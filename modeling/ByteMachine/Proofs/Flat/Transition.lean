import ByteMachine.Proofs.Flat.Cycle

/-!
What instructions are made of.  A relation between an earlier and a later state that is kept by
every look at registers and memory, every store, jump and setting of the flags and every access to a
channel is kept by every instruction, whether it ends well or with a fault.
-/

namespace ByteMachine.Flat

variable {α β : Type} {R : Flat → Flat → Prop} {action other : FlatM α} {f : α → FlatM β}

/-- Wherever the action ends, its last state is related to its first one. -/
def Leads (R : Flat → Flat → Prop) (action : FlatM α) : Prop :=
  ∀ s, match action s with
    | .ok _ t => R s t
    | .error _ t => R s t

theorem Leads.ite {c : Prop} [Decidable c] (ha : Leads R action) (ho : Leads R other) :
    Leads R (if c then action else other) := by
  by_cases hc : c
  · rw [if_pos hc]
    exact ha
  · rw [if_neg hc]
    exact ho

/-- The log has grown by entries that have this property. -/
def Notes (p : Access → Prop) (s t : Flat) : Prop :=
  ∃ log, t.activity = s.activity ++ log ∧ ∀ access ∈ log, p access

section Notes

variable {p q : Access → Prop} {s t u : Flat}

theorem notes_nothing (ha : t.activity = s.activity) : Notes p s t := by
  refine ⟨[], ?_, ?_⟩
  · rw [ha, List.append_nil]
  · simp

theorem notes_one {access : Access} (hp : p access) (ha : t.activity = s.activity ++ [access]) :
    Notes p s t := by
  refine ⟨[access], ha, ?_⟩
  intro other ho
  rw [List.mem_singleton.mp ho]
  exact hp

theorem Notes.trans (h : Notes p s t) (k : Notes p t u) : Notes p s u := by
  obtain ⟨log, hl, hp⟩ := h
  obtain ⟨more, kl, kp⟩ := k
  refine ⟨log ++ more, ?_, ?_⟩
  · rw [kl, hl, List.append_assoc]
  · intro access ha
    rcases List.mem_append.mp ha with ha | ha
    · exact hp access ha
    · exact kp access ha

theorem Notes.mono (h : Notes p s t) (hpq : ∀ access, p access → q access) : Notes q s t := by
  obtain ⟨log, hl, hp⟩ := h
  exact ⟨log, hl, fun access ha => hpq access (hp access ha)⟩

end Notes

/-- The relation is kept by looking at registers and memory. -/
structure AdmitsReads (R : Flat → Flat → Prop) : Prop where
  refl : ∀ s, R s s
  trans : ∀ {s t u}, R s t → R t u → R s u
  read : ∀ {s : Flat} {address : Nat} {byte : UInt8}, s.memory[address]? = some byte →
    R s (s.record .read address byte.toNat)

/-- The relation is kept by whatever an instruction can do that does not jump.  No more than two
flags are ever set. -/
structure AdmitsStores (R : Flat → Flat → Prop) : Prop extends AdmitsReads R where
  register : ∀ (s : Flat) {index : Nat} (hi : index < registerCount) (byte : UInt8),
    R s { s with registers := s.registers.set index byte }
  write : ∀ {s : Flat} {address : Nat} (_ : address < s.memory.length) (byte : UInt8),
    R s ({ s with memory := s.memory.set address byte }.record .write address byte.toNat)
  flags : ∀ (s : Flat) {flags : Nat}, flags ≤ 3 → R s { s with flags }
  receive : ∀ channel, Leads R (receive channel)
  send : ∀ channel byte, Leads R (send channel byte)

structure AdmitsEffects (R : Flat → Flat → Prop) : Prop extends AdmitsStores R where
  jump : ∀ byte : UInt8, Leads R (jump byte.toNat)

namespace AdmitsReads

variable (h : AdmitsReads R)
include h

theorem pure (a : α) : Leads R (Pure.pure a) := h.refl

theorem throw (fault : Fault) : Leads R (MonadExcept.throw fault : FlatM α) := h.refl

theorem get : Leads R (MonadState.get : FlatM Flat) := h.refl

theorem bind (ha : Leads R action) (hf : ∀ a, Leads R (f a)) : Leads R (action >>= f) := by
  intro s
  have hs := ha s
  cases hx : action s with
  | ok a t =>
    rw [hx] at hs
    have ht := hf a t
    rw [bind_ok hx]
    cases hy : f a t with
    | ok b u =>
      rw [hy] at ht
      exact h.trans hs ht
    | error fault u =>
      rw [hy] at ht
      exact h.trans hs ht
  | error fault t =>
    rw [hx] at hs
    rw [bind_error hx]
    exact hs

theorem readByte (address : Nat) : Leads R (readByte address) := by
  intro s
  by_cases ha : address < s.memory.length
  · have hb : s.memory[address]? = some s.memory[address] := List.getElem?_eq_getElem ha
    rw [readByte_ok hb]
    exact h.read hb
  · rw [readByte_fault ha]
    exact h.refl s

theorem load (index : Nat) : Leads R (load index) := by
  intro s
  unfold Flat.load
  by_cases hi : index < registerCount
  · rw [dif_pos hi]
    exact h.refl s
  · rw [dif_neg hi]
    exact h.readByte index s

theorem target (operand : UInt8) : Leads R (target operand) := (h.throw _).ite (h.pure _)

theorem value (operand : UInt8) : Leads R (value operand) := (h.pure _).ite (h.load _)

theorem valueAt (operand : UInt8) : Leads R (valueAt operand) := h.bind (h.target operand) h.load

theorem pointee (operand : UInt8) : Leads R (pointee operand) :=
  h.bind (h.valueAt operand) fun _ => (h.throw _).ite (h.pure _)

theorem readBytes (count address : Nat) : Leads R (readBytes address count) := by
  induction count generalizing address with
  | zero => exact h.pure []
  | succ count ih =>
    exact h.bind (h.readByte address) fun _ => h.bind (ih (address + 1)) fun _ => h.pure _

theorem fetchCode (hj : ∀ pc, Leads R (jump pc)) : Leads R fetchCode := by
  refine h.bind h.get fun s => Leads.ite ?_ (h.throw _)
  refine h.bind (h.readByte _) fun opcode => ?_
  exact h.bind (hj _) fun _ => h.bind (h.readBytes _ _) fun _ => h.pure _

theorem receive (hx : ∀ (s : Flat) (channel data : Int) (input output : List UInt8),
    R s ({ s with input, output }.record .ioRead channel data)) (channel : UInt8) :
    Leads R (receive channel) := by
  intro s
  unfold Flat.receive
  by_cases h0 : channel = 0
  · rw [if_pos h0]
    exact hx s 0 _ s.input.tail s.output
  by_cases h1 : channel = 1
  · rw [if_neg h0, if_pos h1]
    exact hx s 1 _ _ _
  · rw [if_neg h0, if_neg h1]
    exact h.refl s

theorem send (hx : ∀ (s : Flat) (channel data : Int) (output : List UInt8),
    R s ({ s with output }.record .ioWrite channel data)) (channel byte : UInt8) :
    Leads R (send channel byte) := by
  intro s
  unfold Flat.send
  by_cases h0 : channel = 0
  · rw [if_pos h0]
    exact hx s 0 _ _
  by_cases h1 : channel = 1
  · rw [if_neg h0, if_pos h1]
    exact hx s 1 _ _
  · rw [if_neg h0, if_neg h1]
    exact h.refl s

end AdmitsReads

/-- A cycle is a fetch, and then the instruction if there is one. -/
theorem cycle_leads {P Q : Flat → Flat → Prop} (hf : Leads R fetchCode)
    (hp : ∀ code, Leads P (perform code)) (hr : ∀ {s t}, R s t → Q s t)
    (ht : ∀ {s t u}, R s t → P t u → Q s u) (s : Flat) : Q s s.cycle.next := by
  have hfetch := hf s
  unfold cycle
  cases hx : fetchCode s with
  | error fault t =>
    rw [hx] at hfetch
    exact hr hfetch
  | ok code t =>
    rw [hx] at hfetch
    have hperform := hp code t
    dsimp only
    cases hy : perform code t with
    | error fault u =>
      rw [hy] at hperform
      exact ht hfetch hperform
    | ok _ u =>
      rw [hy] at hperform
      exact ht hfetch hperform

namespace AdmitsStores

variable (h : AdmitsStores R)
include h

theorem store (index : Nat) (byte : UInt8) : Leads R (store index byte) := by
  intro s
  unfold Flat.store
  by_cases hi : index < registerCount
  · rw [dif_pos hi]
    exact h.register s hi byte
  · rw [dif_neg hi, writeByte]
    by_cases ha : index < s.memory.length
    · rw [if_pos ha]
      exact h.write ha byte
    · rw [if_neg ha]
      exact h.refl s

theorem combine (operation : UInt8 → UInt8 → UInt8) (past : UInt8 → UInt8 → Bool)
    (source place : UInt8) : Leads R (combine operation past source place) := by
  refine h.bind (h.valueAt place) fun old => ?_
  refine h.bind (h.value source) fun delta => ?_
  refine h.bind ?_ fun _ => h.bind (h.target place) fun index => h.store index _
  intro s
  refine h.flags s ?_
  split <;> split <;> omega

theorem effect {opcode : UInt8} (hunless : opcode.toNat ≠ 4) (halways : opcode.toNat ≠ 5)
    (operands : List UInt8) : Leads R (effect opcode operands) := by
  unfold Flat.effect
  split
  case h_1 source place _ =>
    exact h.bind (h.value source) fun data =>
      h.bind (h.target place) fun index => h.store index data
  case h_2 source place _ => exact h.combine _ _ source place
  case h_3 source place _ => exact h.combine _ _ source place
  case h_4 hopcode => exact absurd hopcode hunless
  case h_5 hopcode => exact absurd hopcode halways
  case h_6 place _ =>
    refine h.bind h.get fun s => ?_
    exact h.bind (h.target place) fun index => h.store index _
  case h_7 channel place _ =>
    refine h.bind (h.target place) fun index => ?_
    exact h.bind (h.receive channel) (h.store index)
  case h_8 channel place _ => exact h.bind (h.valueAt place) (h.send channel)
  case h_9 source place _ =>
    refine h.bind (h.target place) fun index => ?_
    refine h.bind (h.pointee source) fun other => ?_
    exact h.bind (h.load other) (h.store index)
  case h_10 source place _ =>
    refine h.bind (h.pointee place) fun index => ?_
    exact h.bind (h.value source) (h.store index)
  case h_11 => exact h.pure _

end AdmitsStores

namespace AdmitsEffects

variable (h : AdmitsEffects R)
include h

theorem effect (opcode : UInt8) (operands : List UInt8) : Leads R (effect opcode operands) := by
  by_cases hunless : opcode.toNat = 4
  · unfold Flat.effect
    rw [hunless]
    split
    case h_4 mask place _ =>
      refine h.bind (h.target place) fun index => ?_
      refine h.bind h.get fun s => ?_
      exact (h.bind (h.load index) h.jump).ite (h.pure _)
    all_goals first | contradiction | exact h.pure _
  by_cases halways : opcode.toNat = 5
  · unfold Flat.effect
    rw [halways]
    split
    case h_5 place _ => exact h.bind (h.valueAt place) h.jump
    all_goals first | contradiction | exact h.pure _
  · exact h.toAdmitsStores.effect hunless halways operands

end AdmitsEffects

end ByteMachine.Flat
