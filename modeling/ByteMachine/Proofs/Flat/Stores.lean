import ByteMachine.Proofs.Flat.Transition
import Mathlib.Tactic.Common

/-!
What a program can store to.  An instruction looks first and stores last, and it stores once: to the
index that an operand holds, or to one that it has taken from a cell and compared with the largest
operand.  The first eight indices are registers, so neither the bytes of memory at those addresses
nor any byte beyond the largest operand can be stored to.
-/

namespace ByteMachine

inductive Cell where
  | register (index : Fin registerCount)
  | memory (address : Nat)
  deriving DecidableEq, Repr

/-- Memory is written to only where an operand can refer to it. -/
def Access.WritesInReach (access : Access) : Prop :=
  access.kind = .write → 8 ≤ access.address ∧ access.address ≤ 127

namespace Flat

variable {α β : Type} {s t u : Flat} {action : FlatM α} {f : α → FlatM β}

def held (s : Flat) : Cell → Option UInt8
  | .register index => some (s.registers.get index)
  | .memory address => s.memory[address]?

structure Still (s t : Flat) : Prop where
  registers : t.registers = s.registers
  memory : t.memory = s.memory
  activity : Notes (·.kind ≠ .write) s t

/-- One cell at most is not as it was, and it is one that an operand can refer to. -/
structure Restrained (s t : Flat) : Prop where
  single : ∃ cell, ∀ other, other ≠ cell → t.held other = s.held other
  size : t.memory.length = s.memory.length
  beyond : ∀ address, address < 8 ∨ 127 < address → t.memory[address]? = s.memory[address]?
  activity : Notes Access.WritesInReach s t

section Still

theorem still_unlogged (hr : t.registers = s.registers) (hm : t.memory = s.memory)
    (ha : t.activity = s.activity) : Still s t :=
  ⟨hr, hm, notes_nothing ha⟩

theorem still_logged {kind : AccessKind} (hk : kind ≠ .write) (address data : Int)
    (hr : t.registers = s.registers) (hm : t.memory = s.memory)
    (ha : t.activity = s.activity ++ [⟨kind, address, data⟩]) : Still s t :=
  ⟨hr, hm, notes_one hk ha⟩

theorem still_reads : AdmitsReads Still where
  refl _ := still_unlogged rfl rfl rfl
  trans h k := ⟨k.registers.trans h.registers, k.memory.trans h.memory, h.activity.trans k.activity⟩
  read _ := still_logged (by decide) _ _ rfl rfl rfl

theorem still_jump (pc : Int) : Leads Still (jump pc) := fun _ => still_unlogged rfl rfl rfl

theorem still_receive : ∀ channel, Leads Still (receive channel) :=
  still_reads.receive fun _ _ _ _ _ => still_logged (by decide) _ _ rfl rfl rfl

theorem still_send : ∀ channel byte, Leads Still (send channel byte) :=
  still_reads.send fun _ _ _ _ => still_logged (by decide) _ _ rfl rfl rfl

end Still

section Restrained

theorem Still.held_eq (h : Still s t) (cell : Cell) : t.held cell = s.held cell := by
  cases cell with
  | register index => exact congrArg (fun registers => some (registers.get index)) h.registers
  | memory address => exact congrArg (fun memory => memory[address]?) h.memory

theorem Still.restrained (h : Still s t) : Restrained s t := by
  constructor
  · exact ⟨.memory 0, fun other _ => h.held_eq other⟩
  · rw [h.memory]
  · intro address _
    rw [h.memory]
  · exact h.activity.mono fun access hn hk => absurd hk hn

theorem Still.before (h : Still s t) (k : Restrained t u) : Restrained s u := by
  constructor
  · obtain ⟨cell, hc⟩ := k.single
    refine ⟨cell, ?_⟩
    intro other ho
    rw [hc other ho, h.held_eq other]
  · rw [k.size, h.memory]
  · intro address ha
    rw [k.beyond address ha, h.memory]
  · exact h.restrained.activity.trans k.activity

theorem Leads.restrained (h : Leads Still action) : Leads Restrained action := by
  intro s
  have hs := h s
  cases hx : action s with
  | ok a t =>
    rw [hx] at hs
    exact hs.restrained
  | error fault t =>
    rw [hx] at hs
    exact hs.restrained

theorem restrained_register {index : Nat} (hi : index < registerCount) (s : Flat) (byte : UInt8) :
    Restrained s { s with registers := s.registers.set index byte } := by
  constructor
  · refine ⟨.register ⟨index, hi⟩, ?_⟩
    intro other ho
    cases other with
    | register place =>
      have hne : index ≠ place := by
        rintro rfl
        exact ho rfl
      exact congrArg some (Vector.getElem_set_ne hi place.isLt hne)
    | memory address => rfl
  · rfl
  · intro address _
    rfl
  · exact notes_nothing rfl

theorem restrained_memory {index : Nat} (hi : 8 ≤ index ∧ index ≤ 127) (s : Flat) (byte : UInt8) :
    Restrained s
      ({ s with memory := s.memory.set index byte }.record .write index byte.toNat) := by
  constructor
  · refine ⟨.memory index, ?_⟩
    intro other ho
    cases other with
    | register place => rfl
    | memory address =>
      have hne : index ≠ address := by
        rintro rfl
        exact ho rfl
      exact List.getElem?_set_ne hne
  · exact List.length_set
  · intro address ha
    exact List.getElem?_set_ne (by omega)
  · refine notes_one ?_ rfl
    intro _
    constructor <;> dsimp only <;> omega

theorem restrained_store {index : Nat} (hi : index ≤ largestOperand) (byte : UInt8) :
    Leads Restrained (store index byte) := by
  intro s
  unfold store
  by_cases hr : index < registerCount
  · rw [dif_pos hr]
    exact restrained_register hr s byte
  · rw [dif_neg hr, writeByte]
    by_cases ha : index < s.memory.length
    · rw [if_pos ha]
      unfold largestOperand at hi
      unfold registerCount at hr
      exact restrained_memory (by omega) s byte
    · rw [if_neg ha]
      exact (still_reads.refl s).restrained

end Restrained

section Index

def Yields (p : α → Prop) (action : FlatM α) : Prop := ∀ s a t, action s = .ok a t → p a

theorem target_yields (operand : UInt8) : Yields (· ≤ largestOperand) (target operand) := by
  intro s index t h
  have hb := operand.toNat_lt
  unfold target at h
  split at h
  · cases h
  · cases h
    change operand.toNat / 2 ≤ 127
    omega

theorem pointee_yields (operand : UInt8) : Yields (· ≤ largestOperand) (pointee operand) := by
  intro s index t h
  obtain ⟨byte, u, -, hrest⟩ := bind_eq_ok h
  split at hrest
  · cases hrest
  · cases hrest
    omega

theorem still_bind {p : α → Prop} (ha : Leads Still action) (hy : Yields p action)
    (hf : ∀ a, p a → Leads Restrained (f a)) : Leads Restrained (action >>= f) := by
  intro s
  have hs := ha s
  cases hx : action s with
  | error fault t =>
    rw [hx] at hs
    rw [bind_error hx]
    exact hs.restrained
  | ok a t =>
    rw [hx] at hs
    have ht := hf a (hy s a t hx) t
    rw [bind_ok hx]
    cases hz : f a t with
    | ok b u =>
      rw [hz] at ht
      exact hs.before ht
    | error fault u =>
      rw [hz] at ht
      exact hs.before ht

theorem still_then (ha : Leads Still action) (hf : ∀ a, Leads Restrained (f a)) :
    Leads Restrained (action >>= f) :=
  still_bind (p := fun _ => True) ha (fun _ _ _ _ => trivial) fun a _ => hf a

theorem restrained_target (operand : UInt8) {g : Nat → FlatM β}
    (hg : ∀ index, index ≤ largestOperand → Leads Restrained (g index)) :
    Leads Restrained (target operand >>= g) :=
  still_bind (still_reads.target operand) (target_yields operand) hg

end Index

theorem restrained_combine (operation : UInt8 → UInt8 → UInt8) (past : UInt8 → UInt8 → Bool)
    (source place : UInt8) : Leads Restrained (combine operation past source place) := by
  have h := still_reads
  refine still_then (h.valueAt place) fun old => ?_
  refine still_then (h.value source) fun delta => ?_
  refine still_then (fun _ => still_unlogged rfl rfl rfl) fun _ => ?_
  exact restrained_target place fun index hi => restrained_store hi _

theorem restrained_effect (opcode : UInt8) (operands : List UInt8) :
    Leads Restrained (effect opcode operands) := by
  have h := still_reads
  unfold effect
  split
  case h_1 source place _ =>
    refine still_then (h.value source) fun data => ?_
    exact restrained_target place fun index hi => restrained_store hi data
  case h_2 source place _ => exact restrained_combine _ _ source place
  case h_3 source place _ => exact restrained_combine _ _ source place
  case h_4 mask place _ =>
    refine Leads.restrained (h.bind (h.target place) fun index => ?_)
    refine h.bind h.get fun s => ?_
    exact (h.bind (h.load index) fun byte => still_jump _).ite (h.pure _)
  case h_5 place _ => exact (h.bind (h.valueAt place) fun byte => still_jump _).restrained
  case h_6 place _ =>
    refine still_then h.get fun s => ?_
    exact restrained_target place fun index hi => restrained_store hi _
  case h_7 channel place _ =>
    refine restrained_target place fun index hi => ?_
    exact still_then (still_receive channel) fun byte => restrained_store hi byte
  case h_8 channel place _ => exact (h.bind (h.valueAt place) (still_send channel)).restrained
  case h_9 source place _ =>
    refine restrained_target place fun index hi => ?_
    refine still_then (h.pointee source) fun other => ?_
    exact still_then (h.load other) fun byte => restrained_store hi byte
  case h_10 source place _ =>
    refine still_bind (h.pointee place) (pointee_yields place) fun index hi => ?_
    exact still_then (h.value source) fun byte => restrained_store hi byte
  case h_11 => exact (h.pure _).restrained

theorem restrained_perform (code : UInt8 × List UInt8) : Leads Restrained (perform code) := by
  intro s
  by_cases ho : Stops code.1
  · have hstop : Still s { s with pc := s.pc + code.2.length, status := .halted } :=
      still_unlogged rfl rfl rfl
    rw [perform_stops ho code.2]
    exact hstop.restrained
  · have hmove : Still s { s with pc := s.pc + code.2.length } := still_unlogged rfl rfl rfl
    have heffect := restrained_effect code.1 code.2 { s with pc := s.pc + code.2.length }
    rw [perform_goes ho code.2]
    cases hx : effect code.1 code.2 { s with pc := s.pc + code.2.length } with
    | ok _ t =>
      rw [hx] at heffect
      exact hmove.before heffect
    | error fault t =>
      rw [hx] at heffect
      exact hmove.before heffect

theorem cycle_restrained (s : Flat) : Restrained s s.cycle.next :=
  cycle_leads (still_reads.fetchCode still_jump) restrained_perform Still.restrained Still.before s

/-- A step changes one cell at most, and writes to memory only where an operand can refer to it. -/
theorem step_restrained (s : Flat) : Restrained { s with activity := [] } s.step.next := by
  by_cases hr : s.status = .running
  · rw [step_of_running hr]
    obtain ⟨hsingle, hsize, hbeyond, hlog⟩ := cycle_restrained { s with activity := [] }
    exact ⟨hsingle, hsize, hbeyond, hlog⟩
  · rw [step_of_stopped hr]
    exact (still_reads.refl _).restrained

end Flat

end ByteMachine
