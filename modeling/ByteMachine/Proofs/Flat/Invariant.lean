import ByteMachine.Proofs.Byte
import ByteMachine.Proofs.Flat.Transition

/-!
What no program can do, whatever bytes it is made of.  An instruction keeps the size of memory and
the status, sets no flag beyond the two, and jumps nowhere but to a byte; so every step keeps the
machine within its bounds.
-/

namespace ByteMachine.Flat

variable {α : Type} {s t u : Flat}

/-- The other state can come out of this one inside an instruction. -/
structure Within (s t : Flat) : Prop where
  memory : t.memory.length = s.memory.length
  status : t.status = s.status
  flags : t.flags = s.flags ∨ t.flags ≤ 3
  pc : t.pc = s.pc ∨ 0 ≤ t.pc ∧ t.pc ≤ 255

theorem Within.refl (s : Flat) : s.Within s := ⟨rfl, rfl, .inl rfl, .inl rfl⟩

theorem Within.trans (h : s.Within t) (k : t.Within u) : s.Within u := by
  refine ⟨k.memory.trans h.memory, k.status.trans h.status, ?_, ?_⟩
  · rcases k.flags with hf | hf
    · rw [hf]
      exact h.flags
    · exact Or.inr hf
  · rcases k.pc with hp | hp
    · rw [hp]
      exact h.pc
    · exact Or.inr hp

/-- Wherever the action ends, it ends within bounds. -/
def Confined (action : FlatM α) : Prop :=
  ∀ s, match action s with
    | .ok _ t => s.Within t
    | .error _ t => s.Within t

theorem within_unchanged (hm : t.memory = s.memory) (hs : t.status = s.status)
    (hf : t.flags = s.flags) (hp : t.pc = s.pc) : s.Within t :=
  ⟨congrArg List.length hm, hs, .inl hf, .inl hp⟩

theorem within_reads : AdmitsReads Within where
  refl := .refl
  trans := .trans
  read _ := within_unchanged rfl rfl rfl rfl

theorem within_effects : AdmitsEffects Within where
  toAdmitsReads := within_reads
  register _ _ _ _ := within_unchanged rfl rfl rfl rfl
  write _ _ := ⟨List.length_set, rfl, .inl rfl, .inl rfl⟩
  flags _ _ hf := ⟨rfl, rfl, .inr hf, .inl rfl⟩
  jump byte _ := ⟨rfl, rfl, .inl rfl, .inr (byte_range byte)⟩
  receive := within_reads.receive fun _ _ _ _ _ => within_unchanged rfl rfl rfl rfl
  send := within_reads.send fun _ _ _ _ => within_unchanged rfl rfl rfl rfl

theorem effect_confined (opcode : UInt8) (operands : List UInt8) :
    Confined (effect opcode operands) := by
  intro s
  have h := within_effects.effect opcode operands s
  cases hx : effect opcode operands s with
  | ok a t =>
    rw [hx] at h
    exact h
  | error fault t =>
    rw [hx] at h
    exact h

theorem within_ok {opcode : UInt8} {operands : List UInt8} {a : Unit}
    (h : effect opcode operands s = .ok a t) : s.Within t := by
  have hw := effect_confined opcode operands s
  rw [h] at hw
  exact hw

theorem within_error {opcode : UInt8} {operands : List UInt8} {fault : Fault}
    (h : effect opcode operands s = .error fault t) : s.Within t := by
  have hw := effect_confined opcode operands s
  rw [h] at hw
  exact hw

/-- The machine has halted at this address.  The pc stands behind the opcode that stopped it. -/
structure HaltedAt (s : Flat) (place : Nat) : Prop where
  pc : s.pc = place + 1
  stops : ∃ opcode, s.memory[place]? = some opcode ∧ Stops opcode

/-- The bounds that no program leaves. -/
structure Sound (s : Flat) (size : Nat) : Prop where
  memory : s.memory.length = size
  flags : s.flags ≤ 3
  pc : 0 ≤ s.pc ∧ s.pc ≤ 255
  halted : s.status = .halted → ∃ place, s.HaltedAt place

variable {size : Nat}

theorem HaltedAt.inside {place : Nat} (h : s.HaltedAt place) : place < s.memory.length := by
  obtain ⟨opcode, hb, -⟩ := h.stops
  exact (List.getElem?_eq_some_iff.mp hb).1

theorem Within.sound (h : s.Within t) (hs : s.Sound size) (hr : s.status = .running) :
    t.Sound size := by
  refine ⟨h.memory.trans hs.memory, ?_, ?_, ?_⟩
  · rcases h.flags with hf | hf
    · rw [hf]
      exact hs.flags
    · exact hf
  · rcases h.pc with hp | hp
    · rw [hp]
      exact hs.pc
    · exact hp
  · rw [h.status, hr]
    intro hh
    cases hh

theorem Within.unfaulted (h : s.Within t) (hr : s.status = .running) : t.status ≠ .faulted := by
  rw [h.status, hr]
  decide

/-- Nothing but the last cycle of a run halts, and it leaves the pc right behind an opcode. -/
theorem cycle_sound (h : s.Sound size) (hz : size ≤ 255) (hr : s.status = .running) :
    s.cycle.next.Sound size ∧ s.cycle.next.status ≠ .faulted := by
  have hm := h.memory
  have hflags := h.flags
  have hleft : ∀ place (activity : List Access), place ≤ size →
      Sound { s with pc := (place : Nat), activity } size := by
    intro place activity hp
    refine ⟨hm, hflags, by dsimp only; omega, ?_⟩
    dsimp only
    rw [hr]
    intro hh
    cases hh
  have hafter := s.cycle_cases
  generalize s.cycle = outcome at hafter
  cases hafter with
  | outside hp => exact ⟨h, by rw [hr]; decide⟩
  | @short place opcode hpc hb hl activity =>
    have hlt : place < s.memory.length := (List.getElem?_eq_some_iff.mp hb).1
    exact ⟨hleft (place + 1) activity (by omega), by dsimp only; rw [hr]; decide⟩
  | @stop place opcode hpc hb ho activity =>
    have hlt : place < s.memory.length := (List.getElem?_eq_some_iff.mp hb).1
    refine ⟨⟨hm, hflags, ?_, fun _ => ⟨place, rfl, opcode, hb, ho⟩⟩, by dsimp only; decide⟩
    dsimp only
    omega
  | @effect place opcode hpc hb ho hl activity next he =>
    have hs := hleft (place + 1 + operandCount opcode) activity (by omega)
    exact ⟨(within_ok he).sound hs hr, (within_ok he).unfaulted hr⟩
  | @fault place opcode hpc hb ho hl activity fault next he =>
    have hs := hleft (place + 1 + operandCount opcode) activity (by omega)
    exact ⟨(within_error he).sound hs hr, (within_error he).unfaulted hr⟩

theorem Within.pc_nonneg (h : s.Within t) (hs : 0 ≤ s.pc) : 0 ≤ t.pc := by
  rcases h.pc with hp | hp
  · rw [hp]
    exact hs
  · exact hp.1

theorem cycle_pc (h : 0 ≤ s.pc) : 0 ≤ s.cycle.next.pc := by
  have hafter := s.cycle_cases
  generalize s.cycle = outcome at hafter
  cases hafter with
  | outside => exact h
  | short | stop =>
    dsimp only
    omega
  | @effect place opcode _ _ _ _ activity next he =>
    apply (within_ok he).pc_nonneg
    dsimp only
    omega
  | @fault place opcode _ _ _ _ activity fault next he =>
    apply (within_error he).pc_nonneg
    dsimp only
    omega

theorem step_pc (h : 0 ≤ s.pc) : 0 ≤ s.step.next.pc := by
  by_cases hr : s.status = .running
  · rw [step_of_running hr]
    exact cycle_pc (s := { s with activity := [] }) h
  · rw [step_of_stopped hr]
    exact h

theorem Sound.quiet (h : s.Sound size) : Sound { s with activity := [] } size := by
  refine ⟨h.memory, h.flags, h.pc, ?_⟩
  intro hh
  obtain ⟨place, hp, hstop⟩ := h.halted hh
  exact ⟨place, hp, hstop⟩

theorem step_sound (h : s.Sound size) (hz : size ≤ 255) : s.step.next.Sound size := by
  by_cases hr : s.status = .running
  · rw [step_of_running hr]
    obtain ⟨hs, hf⟩ := cycle_sound h.quiet hz hr
    refine ⟨hs.memory, hs.flags, hs.pc, ?_⟩
    dsimp only
    split
    · intro hh
      obtain ⟨place, hp, hstop⟩ := hs.halted hh
      exact ⟨place, hp, hstop⟩
    · intro hh
      cases hh
  · rw [step_of_stopped hr]
    exact h.quiet

theorem step_fault_iff (h : s.Sound size) (hz : size ≤ 255) (hr : s.status = .running) :
    s.step.fault.isSome ↔ s.step.next.status = .faulted := by
  have hf := (cycle_sound h.quiet hz hr).2
  rw [step_of_running hr]
  generalize cycle { s with activity := [] } = outcome at hf
  rcases outcome with ⟨next, code, _ | fault⟩
  · simpa using hf
  · simp

theorem after_sound (h : s.Sound size) (hz : size ≤ 255) (count : Nat) :
    (s.after count).Sound size := by
  induction count generalizing s with
  | zero => exact h
  | succ count ih => exact ih (step_sound h hz)

end ByteMachine.Flat
