import ByteMachine.Proofs.Flat.Faults
import ByteMachine.Proofs.Flat.Fetching
import ByteMachine.Proofs.Machine.Alike
import ByteMachine.Proofs.Machine.Listing
import ByteMachine.Proofs.Machine.Stores

/-!
Execution without jumps ends.  Whatever the program does to itself, a step that does not jump moves
the program counter on, and never further than to the end of memory.  So the distance from there
bounds the number of steps until the machine stops or jumps.
-/

namespace ByteMachine

theorem FaultStage.onward {memory : List UInt8} {pc after : Int}
    {decoded : Option Operation} {fault : Fault} (h : FaultStage memory pc decoded fault after) :
    fault.InFetch ∨ (pc < after ∧ after ≤ memory.length) := by
  cases h with
  | fetch _ => exact .inl trivial
  | operand hpc hb _ =>
    have hlt := (List.getElem?_eq_some_iff.mp hb).1
    right
    omega
  | execution hpc hb hl hd _ =>
    right
    rw [hd, List.length_take, List.length_drop]
    omega

namespace Flat

variable {s : Flat}

theorem step_fault_status {fault : Fault} (hr : s.status = .running)
    (hf : s.step.fault = some fault) : s.step.next.status = .faulted := by
  rw [step_of_running hr] at hf ⊢
  dsimp only at hf ⊢
  rw [hf]
  rfl

/-- A step that neither jumps nor faults in the fetch moves the program counter on, but not beyond
the end of memory. -/
theorem step_onward (hr : s.status = .running) (hpc : 0 ≤ s.pc)
    (hj : s.step.fault = none → ∀ code, s.step.code = some code →
      ¬(operation code).instruction.Jumps s.flags) :
    (∃ fault, s.step.fault = some fault ∧ fault.InFetch) ∨
      (s.pc < s.step.next.pc ∧ s.step.next.pc ≤ s.memory.length) := by
  cases hf : s.step.fault with
  | some fault =>
    obtain ⟨failure, hsame, -, -, -, -, hstage⟩ := step_faulted hr (step_fault_status hr hf)
    rw [hf] at hsame
    cases hsame
    exact hstage.onward.imp_left fun hfetch => ⟨fault, rfl, hfetch⟩
  | none =>
    have hin : 0 ≤ s.pc ∧ s.pc < s.memory.length := by
      by_contra hout
      rw [(step_outside hr hout).2] at hf
      cases hf
    obtain ⟨place, hplace⟩ := Int.eq_ofNat_of_zero_le hpc
    have hb : s.memory[place]? = some s.memory[place] := List.getElem?_eq_getElem (by omega)
    generalize s.memory[place] = opcode at hb
    have hl : place + 1 + operandCount opcode ≤ s.memory.length := by
      by_contra hshort
      rw [(step_short hr hplace hb (by omega)).2] at hf
      cases hf
    obtain ⟨hcode, hstays⟩ := step_whole hr hplace hb hl
    rw [hstays hf (hj hf _ hcode)]
    right
    omega

end Flat

open Machine

/-- A step of a running machine, with the machine before it and after it. -/
structure Stride where
  before : Machine
  snapshot : Snapshot
  after : Machine

namespace Stride

/-- The step has executed a jump, or a conditional one that was to be taken. -/
def Jumps (stride : Stride) : Prop :=
  stride.snapshot.fault = none ∧ ∃ operation, stride.snapshot.operation = some operation ∧
    operation.instruction.Jumps stride.before.cpu.flags

/-- There was no opcode to be fetched. -/
def Unfetched (stride : Stride) : Prop :=
  ∃ report, stride.snapshot.fault = some report ∧ report.fault.InFetch

end Stride

/-- Consecutive steps, until the machine stops or before. -/
inductive Trail : Machine → List Stride → Machine → Prop where
  | nothing (m : Machine) : Trail m [] m
  | step {m next last : Machine} {snapshot : Snapshot} {rest : List Stride}
      (hr : m.status = .running) (hs : Machine.step m = .ok snapshot next)
      (hrest : Trail next rest last) : Trail m (⟨m, snapshot, next⟩ :: rest) last

variable {m next last : Machine} {snapshot : Snapshot} {strides front window : List Stride}

theorem Trail.split (h : Trail m (front ++ window) last) :
    ∃ middle, Trail m front middle ∧ Trail middle window last := by
  induction front generalizing m with
  | nil => exact ⟨m, .nothing m, h⟩
  | cons stride front ih =>
    cases h with
    | step hr hs hrest =>
      obtain ⟨middle, hfront, hwindow⟩ := ih hrest
      exact ⟨middle, .step hr hs hfront, hwindow⟩

theorem Machine.Poised.step_kept (h : m.Poised) (hs : Machine.step m = .ok snapshot next) :
    m.Mirrors snapshot next ∧ next.Poised ∧ next.bus.memorySize = m.bus.memorySize := by
  obtain ⟨_, _, hsame, hmirrors⟩ := h.step_mirrors
  rw [hs] at hsame
  cases hsame
  exact ⟨hmirrors, hmirrors.poised h, (hmirrors.restrains h.toEquipped).size⟩

theorem Trail.poised (h : Trail m strides last) (hm : m.Poised) :
    last.Poised ∧ last.bus.memorySize = m.bus.memorySize := by
  induction h with
  | nothing m => exact ⟨hm, rfl⟩
  | step hr hs hrest ih =>
    obtain ⟨-, hnext, hsize⟩ := hm.step_kept hs
    obtain ⟨hlast, hsame⟩ := ih hnext
    exact ⟨hlast, hsame.trans hsize⟩

theorem Machine.Poised.trail (h : m.Poised) (count : Nat) :
    ∃ strides last, Trail m strides last ∧ strides.length ≤ count ∧
      (strides.length < count → last.status ≠ .running) := by
  induction count generalizing m with
  | zero => exact ⟨[], m, .nothing m, Nat.le_refl 0, nofun⟩
  | succ count ih =>
    by_cases hr : m.status = .running
    · obtain ⟨snapshot, next, hs, -⟩ := h.step_mirrors
      obtain ⟨-, hnext, -⟩ := h.step_kept hs
      obtain ⟨strides, last, hp, hl, hstop⟩ := ih hnext
      refine ⟨_, last, .step hr hs hp, Nat.succ_le_succ hl, fun hshort => ?_⟩
      exact hstop (Nat.lt_of_succ_lt_succ hshort)
    · exact ⟨[], m, .nothing m, Nat.zero_le _, fun _ => hr⟩

def Stride.Onward (stride : Stride) (size : Nat) : Prop :=
  stride.Unfetched ∨
    (stride.before.cpu.pc < stride.after.cpu.pc ∧ stride.after.cpu.pc ≤ size)

namespace Machine.Mirrors

variable (h : m.Mirrors snapshot next)
include h

theorem onward (hr : m.status = .running) (hpc : 0 ≤ m.cpu.pc)
    (hj : ¬Stride.Jumps ⟨m, snapshot, next⟩) :
    Stride.Onward ⟨m, snapshot, next⟩ m.bus.memorySize := by
  have hstay : m.marked.step.fault = none → ∀ code, m.marked.step.code = some code →
      ¬(Flat.operation code).instruction.Jumps m.marked.flags := by
    intro hf code hcode hjumps
    refine hj ⟨by rw [h.fault, hf]; rfl, Flat.operation code, by rw [h.operation, hcode]; rfl, ?_⟩
    exact (jumps_marked m _).mp hjumps
  obtain ⟨fault, hf, hfetch⟩ | hmoved := Flat.step_onward (s := m.marked) hr hpc hstay
  · exact .inl ⟨⟨fault, m.cpu.pc⟩, by rw [h.fault, hf]; rfl, hfetch⟩
  · refine .inr ?_
    change m.cpu.pc < next.cpu.pc ∧ next.cpu.pc ≤ m.bus.memorySize
    rw [h.pc, ← Bus.cells_length]
    exact hmoved

theorem fault_status (hr : m.status = .running) {report : FaultReport}
    (hf : snapshot.fault = some report) : next.status = .faulted := by
  rw [h.fault] at hf
  obtain ⟨fault, hfault, -⟩ := Option.map_eq_some_iff.mp hf
  exact h.status.trans (Flat.step_fault_status hr hfault)

end Machine.Mirrors

namespace Trail

theorem onward (h : Trail m strides last) (hm : m.Poised)
    (hj : ∀ stride ∈ strides, ¬stride.Jumps) :
    ∀ stride ∈ strides, stride.Onward m.bus.memorySize := by
  induction h with
  | nothing m => exact List.forall_mem_nil _
  | step hr hs hrest ih =>
    obtain ⟨hmirrors, hnext, hsize⟩ := hm.step_kept hs
    rw [List.forall_mem_cons] at hj ⊢
    refine ⟨hmirrors.onward hr hm.pc hj.1, ?_⟩
    rw [← hsize]
    exact ih hnext hj.2

theorem running_of_last (h : Trail m strides last) (hr : last.status = .running) :
    m.status = .running := by
  cases h with
  | nothing => exact hr
  | step hrunning => exact hrunning

theorem length_le (h : Trail m strides last) (hm : m.Poised)
    (hj : ∀ stride ∈ strides, ¬stride.Jumps) (hr : last.status = .running) :
    strides.length = 0 ∨ m.cpu.pc + strides.length ≤ m.bus.memorySize := by
  induction h with
  | nothing m => exact .inl rfl
  | step hrunning hs hrest ih =>
    obtain ⟨hmirrors, hnext, hsize⟩ := hm.step_kept hs
    rw [List.forall_mem_cons] at hj
    have hcost := ih hnext hj.2 hr
    have hon := hrest.running_of_last hr
    obtain ⟨report, hf, -⟩ | ⟨hmoved, hwithin⟩ := hmirrors.onward hrunning hm.pc hj.1
    · exact absurd ((hmirrors.fault_status hrunning hf).symm.trans hon) nofun
    · dsimp only at hmoved hwithin
      rw [List.length_cons]
      omega

theorem last_step (h : Trail m strides last) (hne : strides ≠ []) :
    ∃ before final, strides = before ++ [final] ∧ Trail m before final.before ∧
      final.before.status = .running := by
  obtain ⟨before, final, rfl⟩ := (List.eq_nil_or_concat' strides).resolve_left hne
  obtain ⟨middle, hbefore, hfinal⟩ := h.split
  cases hfinal with
  | step hr _ _ => exact ⟨before, _, rfl, hbefore, hr⟩

theorem length_le_succ (h : Trail m strides last) (hm : m.Poised)
    (hj : ∀ stride ∈ strides, ¬stride.Jumps) :
    strides.length ≤ m.bus.memorySize + 1 ∧
      (m.cpu.pc ≤ m.bus.memorySize → strides.length ≤ m.bus.memorySize - m.cpu.pc + 1) := by
  have hpc := hm.pc
  by_cases hne : strides = []
  · have hzero : strides.length = 0 := List.length_eq_zero_iff.mpr hne
    omega
  · obtain ⟨before, final, rfl, hbefore, hr⟩ := h.last_step hne
    rw [List.forall_mem_append] at hj
    have hcost := hbefore.length_le hm hj.1 hr
    rw [List.length_append, List.length_singleton]
    omega

end Trail

/-- However a machine with `n` bytes of memory is programmed, its steps go on until it stops.  As
long as none of them jumps, each moves the program counter on unless it faults in the fetch, and the
machine has stopped after `n + 1` steps; from within memory, after one step more than there are
addresses left.  So among any `n + 1` steps that leave the machine running there is a jump. -/
theorem execution_without_jumps_stops (h : m.Poised) :
    (∀ count, ∃ strides last, Trail m strides last ∧ strides.length ≤ count ∧
      (strides.length < count → last.status ≠ .running)) ∧
    (∀ strides last, Trail m strides last → (∀ stride ∈ strides, ¬stride.Jumps) →
      (∀ stride ∈ strides, stride.Unfetched ∨ stride.before.cpu.pc < stride.after.cpu.pc) ∧
      strides.length ≤ m.bus.memorySize + 1 ∧
      (strides.length = m.bus.memorySize + 1 → last.status ≠ .running) ∧
      (m.cpu.pc ≤ m.bus.memorySize →
        strides.length ≤ m.bus.memorySize - m.cpu.pc + 1 ∧
        (strides.length = m.bus.memorySize - m.cpu.pc + 1 → last.status ≠ .running))) ∧
    (∀ front window last, Trail m (front ++ window) last → last.status = .running →
      window.length = m.bus.memorySize + 1 → ∃ stride ∈ window, stride.Jumps) := by
  have hpc := h.pc
  refine ⟨h.trail, fun strides last hp hj => ?_, fun front window last hp hr hl => ?_⟩
  · obtain ⟨hall, hwithin⟩ := hp.length_le_succ h hj
    refine ⟨fun stride hmem => (hp.onward h hj stride hmem).imp_right And.left, hall, ?_,
      fun hin => ⟨hwithin hin, ?_⟩⟩
    all_goals
      intro hl hr
      have hcost := hp.length_le h hj hr
      omega
  · by_contra hnone
    obtain ⟨middle, hfront, hwindow⟩ := hp.split
    obtain ⟨hmiddle, hsize⟩ := hfront.poised h
    have hj : ∀ stride ∈ window, ¬stride.Jumps := fun stride hmem hjump =>
      hnone ⟨stride, hmem, hjump⟩
    have hstart := hmiddle.pc
    have hcost := hwindow.length_le hmiddle hj hr
    omega

/-- The program jumps to its own start, where register 0 points. -/
def circling : Machine where
  bus := {
    devices := #[.ram ⟨#[5, 0]⟩]
    regions := [⟨0, 1, 0⟩]
    ports := [(1, .numeric), (0, .character)]
    shared := {} }

theorem circling_regular : circling.Regular where
  memory := by
    refine ⟨⟨by decide, ?_⟩, by decide⟩
    intro region hr
    simp only [circling, List.mem_singleton] at hr
    subst hr
    exact ⟨_, rfl, rfl⟩
  ports := overlapping_regular.ports
  registers := by decide
  flags := by decide

theorem not_jumps_of_code {s : Flat} {code : UInt8 × List UInt8} {pc : Int}
    (hc : s.step.code = some code) (hj : ¬(Flat.operation code).instruction.Jumps m.cpu.flags) :
    ¬Stride.Jumps ⟨m, s.step.snapshot pc, next⟩ := by
  rintro ⟨-, operation, ho, hjumps⟩
  obtain ⟨_, hcode, rfl⟩ := Option.map_eq_some_iff.mp ho
  obtain rfl := Option.some.inj (hc.symm.trans hcode)
  exact hj hjumps

/-- A program that reads a number and halts takes two of the five steps it has at most; one that
goes in a circle has jumped after three steps in two bytes of memory. -/
theorem execution_without_jumps_stops_overlapping :
    (∃ strides last, Trail overlapping strides last ∧ (∀ stride ∈ strides, ¬stride.Jumps) ∧
      strides.length = 2 ∧ strides.length ≤ overlapping.bus.memorySize + 1 ∧
      (∀ stride ∈ strides, stride.Unfetched ∨ stride.before.cpu.pc < stride.after.cpu.pc)) ∧
    ∃ window last, Trail circling window last ∧ last.status = .running ∧
      window.length = circling.bus.memorySize + 1 ∧ ∃ stride ∈ window, stride.Jumps := by
  have hm : overlapping.Poised := ⟨overlapping_regular.equipped, by decide⟩
  obtain ⟨-, hstraight, -⟩ := execution_without_jumps_stops hm
  have hc : circling.Poised := ⟨circling_regular.equipped, by decide⟩
  obtain ⟨-, -, hwindow⟩ := execution_without_jumps_stops hc
  constructor
  · obtain ⟨middle, hfirst, hm⟩ := step_shows overlapping_regular.shows_flat
    obtain ⟨last, hsecond, -⟩ := step_shows hm
    have hon : middle.status = .running := hm.status.trans (by decide +kernel)
    have hread : overlapping.flat.step.code = some (7, [1, 0]) := by decide +kernel
    have hhalt : overlapping.flat.step.next.step.code = some (0, []) := by decide +kernel
    obtain ⟨strides, hp, hj, hcount⟩ : ∃ strides, Trail overlapping strides last ∧
        (∀ stride ∈ strides, ¬stride.Jumps) ∧ strides.length = 2 :=
      ⟨_, .step rfl hfirst (.step hon hsecond (.nothing last)),
        List.forall_mem_cons.mpr ⟨not_jumps_of_code hread id,
          List.forall_mem_singleton.mpr (not_jumps_of_code hhalt id)⟩, rfl⟩
    obtain ⟨honward, hl, -⟩ := hstraight _ _ hp hj
    exact ⟨_, _, hp, hj, hcount, hl, honward⟩
  · obtain ⟨second, hfirst, hs⟩ := step_shows circling_regular.shows_flat
    obtain ⟨third, hsecond, ht⟩ := step_shows hs
    obtain ⟨last, hthird, hl⟩ := step_shows ht
    have hp := Trail.step rfl hfirst (.step (hs.status.trans (by decide +kernel)) hsecond
      (.step (ht.status.trans (by decide +kernel)) hthird (.nothing last)))
    have hr : last.status = .running := hl.status.trans (by decide +kernel)
    exact ⟨_, _, hp, hr, rfl, hwindow [] _ _ hp hr rfl⟩

end ByteMachine
