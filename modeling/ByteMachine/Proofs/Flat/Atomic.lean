import ByteMachine.Proofs.Flat.Step
import ByteMachine.Proofs.Flat.Transition
import Mathlib.Tactic.Common

/-!
What a fault leaves behind.  An instruction looks at everything it needs before it changes anything,
so if it ends with a fault it has changed nothing.  There is one exception: an instruction that has
taken its input already when it finds that the place to store it lies outside of memory.
-/

namespace ByteMachine

/-- The instruction takes input from a channel and stores it neither in a register nor in a memory
of this size. -/
def Instruction.InputAstray (size : Nat) : Instruction → Prop
  | .input channel (.reference index) =>
    (channel = 0 ∨ channel = 1) ∧ registerCount ≤ index ∧ size ≤ index
  | _ => False

namespace Flat

variable {α β : Type} {R : Flat → Flat → Prop} {action other : FlatM α} {f : α → FlatM β}
  {s t : Flat} {fault : Fault} {operand byte : UInt8}

def Fails (R : Flat → Flat → Prop) (action : FlatM α) : Prop :=
  ∀ s t fault, action s = .error fault t → R s t

theorem Leads.fails (h : Leads R action) : Fails R action := by
  intro s t fault he
  have hs := h s
  rw [he] at hs
  exact hs

theorem Leads.ok (h : Leads R action) {a : α} (he : action s = .ok a t) : R s t := by
  have hs := h s
  rw [he] at hs
  exact hs

theorem Fails.ite {c : Prop} [Decidable c] (ha : Fails R action) (ho : Fails R other) :
    Fails R (if c then action else other) := by
  by_cases hc : c
  · rw [if_pos hc]
    exact ha
  · rw [if_neg hc]
    exact ho

theorem AdmitsReads.bind_fails (h : AdmitsReads R) (ha : Leads R action)
    (hf : ∀ a, Fails R (f a)) : Fails R (action >>= f) := by
  intro s u fault he
  cases hx : action s with
  | ok a t =>
    rw [bind_ok hx] at he
    exact h.trans (ha.ok hx) (hf a _ _ _ he)
  | error failure t =>
    rw [bind_error hx] at he
    cases he
    exact ha.fails _ _ _ hx

theorem jump_fails (pc : Int) : Fails R (jump pc) := by
  intro s t fault he
  cases he

theorem store_fault {index : Nat} (he : store index byte s = .error fault t) :
    t = s ∧ ¬index < registerCount ∧ ¬index < s.memory.length := by
  unfold store writeByte at he
  by_cases hi : index < registerCount
  · rw [dif_pos hi] at he
    cases he
  · rw [dif_neg hi] at he
    by_cases ha : index < s.memory.length
    · rw [if_pos ha] at he
      cases he
    · rw [if_neg ha] at he
      cases he
      exact ⟨rfl, hi, ha⟩

theorem AdmitsReads.store_fails (h : AdmitsReads R) (index : Nat) (byte : UInt8) :
    Fails R (Flat.store index byte) := by
  intro s t fault he
  rw [(store_fault he).1]
  exact h.refl s

theorem AdmitsReads.send_fails (h : AdmitsReads R) (channel byte : UInt8) :
    Fails R (Flat.send channel byte) := by
  intro s t fault he
  unfold Flat.send at he
  split at he
  · cases he
  split at he
  · cases he
  · cases he
    exact h.refl s

def Glanced (s t : Flat) : Prop := ∃ activity, t = { s with activity }

theorem glanced_reads : AdmitsReads Glanced where
  refl s := ⟨s.activity, rfl⟩
  trans := by
    rintro s t u ⟨first, rfl⟩ ⟨activity, rfl⟩
    exact ⟨activity, rfl⟩
  read _ := ⟨_, rfl⟩

/-- All that a program works with is as it was, and the machine stands where it stood. -/
structure Spared (s t : Flat) : Prop where
  registers : t.registers = s.registers
  flags : t.flags = s.flags
  memory : t.memory = s.memory
  pc : t.pc = s.pc
  stepCount : t.stepCount = s.stepCount

theorem spared_reads : AdmitsReads Spared where
  refl _ := ⟨rfl, rfl, rfl, rfl, rfl⟩
  trans h k := ⟨k.registers.trans h.registers, k.flags.trans h.flags, k.memory.trans h.memory,
    k.pc.trans h.pc, k.stepCount.trans h.stepCount⟩
  read _ := ⟨rfl, rfl, rfl, rfl, rfl⟩

/-- The operand refers to a register or to a byte of a memory of this size. -/
def Refers (operand : UInt8) (size : Nat) : Prop :=
  ¬operand.toNat % 2 = 1 ∧ (operand.toNat / 2 < registerCount ∨ operand.toNat / 2 < size)

theorem valueAt_refers (h : valueAt operand s = .ok byte t) : Refers operand s.memory.length := by
  unfold valueAt target at h
  by_cases ho : operand.toNat % 2 = 1
  · rw [if_pos ho] at h
    cases h
  · rw [if_neg ho] at h
    change load (operand.toNat / 2) s = .ok byte t at h
    refine ⟨ho, ?_⟩
    by_contra hout
    rw [not_or] at hout
    rw [load, dif_neg hout.1, readByte_fault hout.2] at h
    cases h

theorem Refers.store_ok (h : Refers operand s.memory.length) (byte : UInt8) :
    ∃ t, (target operand >>= fun index => store index byte) s = .ok () t := by
  obtain ⟨ho, hplace⟩ := h
  rw [target, if_neg ho]
  change ∃ t, store (operand.toNat / 2) byte s = .ok () t
  unfold store
  by_cases hi : operand.toNat / 2 < registerCount
  · rw [dif_pos hi]
    exact ⟨_, rfl⟩
  · rw [dif_neg hi, writeByte, if_pos (hplace.resolve_left hi)]
    exact ⟨_, rfl⟩

theorem AdmitsReads.combine_fails (h : AdmitsReads R) (operation : UInt8 → UInt8 → UInt8)
    (past : UInt8 → UInt8 → Bool) (source place : UInt8) :
    Fails R (Flat.combine operation past source place) := by
  intro s v fault he
  unfold Flat.combine at he
  cases hx : Flat.valueAt place s with
  | error failure t =>
    rw [bind_error hx] at he
    cases he
    exact (h.valueAt place).fails _ _ _ hx
  | ok old t =>
    rw [bind_ok hx] at he
    cases hy : Flat.value source t with
    | error failure u =>
      rw [bind_error hy] at he
      cases he
      exact h.trans ((h.valueAt place).ok hx) ((h.value source).fails _ _ _ hy)
    | ok delta u =>
      rw [bind_ok hy] at he
      obtain ⟨_, rfl⟩ := (glanced_reads.valueAt place).ok hx
      obtain ⟨activity, rfl⟩ := (glanced_reads.value source).ok hy
      have hrefers : Refers place s.memory.length := valueAt_refers hx
      have hstored : ∀ flags, ∃ w, (Flat.target place >>= fun index =>
          Flat.store index (operation old delta)) { s with flags, activity } = .ok () w :=
        fun flags => Refers.store_ok (s := { s with flags, activity }) hrefers _
      obtain ⟨w, hw⟩ := hstored _
      cases he.symm.trans hw

/-- An instruction that faults has only looked, unless it has taken input before. -/
theorem AdmitsReads.effect_fails (h : AdmitsReads R) (opcode : UInt8) (operands : List UInt8)
    (hi : opcode = 7 → ∀ channel, Leads R (Flat.receive channel)) :
    Fails R (Flat.effect opcode operands) := by
  unfold Flat.effect
  split
  case h_1 source place _ =>
    exact h.bind_fails (h.value source) fun data =>
      h.bind_fails (h.target place) fun index => h.store_fails index data
  case h_2 source place _ => exact h.combine_fails _ _ source place
  case h_3 source place _ => exact h.combine_fails _ _ source place
  case h_4 mask place _ =>
    refine h.bind_fails (h.target place) fun index => ?_
    refine h.bind_fails h.get fun s => ?_
    exact (h.bind_fails (h.load index) fun byte => jump_fails _).ite (h.pure _).fails
  case h_5 place _ => exact h.bind_fails (h.valueAt place) fun byte => jump_fails _
  case h_6 place _ =>
    refine h.bind_fails h.get fun s => ?_
    exact h.bind_fails (h.target place) fun index => h.store_fails index _
  case h_7 channel place hop =>
    have ho : opcode = 7 := UInt8.toNat_inj.mp hop
    refine h.bind_fails (h.target place) fun index => ?_
    exact h.bind_fails (hi ho channel) (h.store_fails index)
  case h_8 channel place _ => exact h.bind_fails (h.valueAt place) (h.send_fails channel)
  case h_9 source place _ =>
    refine h.bind_fails (h.target place) fun index => ?_
    refine h.bind_fails (h.pointee source) fun other => ?_
    exact h.bind_fails (h.load other) (h.store_fails index)
  case h_10 source place _ =>
    refine h.bind_fails (h.pointee place) fun index => ?_
    exact h.bind_fails (h.value source) (h.store_fails index)
  case h_11 => exact (h.pure _).fails

section Input

variable {channel place : UInt8}

theorem receive_total (hc : channel = 0 ∨ channel = 1) (s : Flat) :
    ∃ byte t, receive channel s = .ok byte t := by
  rcases hc with rfl | rfl
  · exact ⟨_, _, rfl⟩
  · exact ⟨_, _, rfl⟩

theorem receive_fault (h0 : channel ≠ 0) (h1 : channel ≠ 1) (s : Flat) :
    receive channel s = .error (.unsupportedChannel channel.toNat) s := by
  rw [receive, if_neg h0, if_neg h1]

theorem receive_spares : ∀ channel, Leads Spared (receive channel) :=
  spared_reads.receive fun _ _ _ _ _ => ⟨rfl, rfl, rfl, rfl, rfl⟩

theorem inputAstray_iff (size : Nat) :
    (Instruction.ofBytes 7 [channel, place]).InputAstray size ↔
      (channel = 0 ∨ channel = 1) ∧ ¬place.toNat % 2 = 1 ∧
        ¬place.toNat / 2 < registerCount ∧ ¬place.toNat / 2 < size := by
  change (Instruction.input channel (.ofByte place)).InputAstray size ↔ _
  by_cases ho : place.toNat % 2 = 1
  · rw [ofByte_odd ho]
    simp [Instruction.InputAstray, ho]
  · rw [ofByte_even ho]
    constructor
    · rintro ⟨hc, hr, hm⟩
      exact ⟨hc, ho, by omega, by omega⟩
    · rintro ⟨hc, -, hr, hm⟩
      exact ⟨hc, by omega, by omega⟩

theorem input_astray (h : (Instruction.ofBytes 7 [channel, place]).InputAstray s.memory.length) :
    ∃ byte t, receive channel s = .ok byte t ∧ effect 7 [channel, place] s =
      .error (.indexOutside (place.toNat / 2 : Nat) s.memory.length) t := by
  obtain ⟨hc, ho, hr, hm⟩ := (inputAstray_iff _).mp h
  obtain ⟨byte, t, hx⟩ := receive_total hc s
  have ht := ((receive_spares channel).ok hx).memory
  refine ⟨byte, t, hx, ?_⟩
  change (target place >>= fun index => receive channel >>= store index) s = _
  rw [target, if_neg ho]
  change (receive channel >>= store (place.toNat / 2)) s = _
  rw [bind_ok hx, store, dif_neg hr, writeByte, ht, if_neg hm]

theorem AdmitsReads.input_fails (h : AdmitsReads R)
    (hi : ¬(Instruction.ofBytes 7 [channel, place]).InputAstray s.memory.length)
    (he : Flat.effect 7 [channel, place] s = .error fault t) : R s t := by
  rw [inputAstray_iff] at hi
  change (Flat.target place >>= fun index => Flat.receive channel >>= Flat.store index) s =
    .error fault t at he
  by_cases ho : place.toNat % 2 = 1
  · rw [Flat.target, if_pos ho] at he
    cases he
    exact h.refl s
  · rw [Flat.target, if_neg ho] at he
    change (Flat.receive channel >>= Flat.store (place.toNat / 2)) s = .error fault t at he
    by_cases hc : channel = 0 ∨ channel = 1
    · obtain ⟨byte, u, hx⟩ := receive_total hc s
      rw [bind_ok hx] at he
      obtain ⟨-, hr, hm⟩ := store_fault he
      rw [((receive_spares channel).ok hx).memory] at hm
      exact absurd ⟨hc, ho, hr, hm⟩ hi
    · rw [not_or] at hc
      rw [bind_error (receive_fault hc.1 hc.2 s)] at he
      cases he
      exact h.refl s

theorem receive_console {channel : UInt8} {console : Console} (h : receive channel s = .ok byte t)
    (hi : console.remaining = s.input) (ho : console.programOutput = s.output)
    (hc : console.interactive = s.interactive) :
    ∃ port, consolePort? channel.toNat = some port ∧
      (port.read console).2.remaining = t.input ∧
      (port.read console).2.programOutput = t.output := by
  rcases consolePort_cases channel with ⟨rfl, hport⟩ | ⟨rfl, hport⟩ | ⟨h0, h1, -⟩
  · obtain ⟨-, hx⟩ := ConsolePort.read_character console
    cases h
    refine ⟨.character, hport, hx.remaining.trans (congrArg List.tail hi), ?_⟩
    rw [hx.programOutput, ho, List.append_nil]
    rfl
  · obtain ⟨-, hx⟩ := ConsolePort.read_numeric console
    cases h
    refine ⟨.numeric, hport, ?_, ?_⟩
    · rw [hx.remaining, hi]
      rfl
    · rw [hx.programOutput, ho, ConsolePort.prompt, hc]
      rfl
  · rw [receive_fault h0 h1] at h
    cases h

theorem AdmitsReads.effect_looks (h : AdmitsReads R) {opcode : UInt8} {operands : List UInt8}
    (hi : ¬(Instruction.ofBytes opcode.toNat operands).InputAstray s.memory.length)
    (he : Flat.effect opcode operands s = .error fault t) : R s t := by
  by_cases ho : opcode = 7
  · subst ho
    match operands with
    | [channel, place] => exact h.input_fails hi he
    | [] | [_] | _ :: _ :: _ :: _ => cases he
  · exact h.effect_fails opcode operands (fun hop => absurd hop ho) _ _ _ he

theorem astray_input {opcode : Int} {operands : List UInt8} {size : Nat}
    (h : (Instruction.ofBytes opcode operands).InputAstray size) :
    opcode = 7 ∧ ∃ channel place, operands = [channel, place] := by
  unfold Instruction.ofBytes at h
  split at h
  case h_8 channel place => exact ⟨rfl, channel, place, rfl⟩
  all_goals cases h

end Input

end Flat

end ByteMachine
