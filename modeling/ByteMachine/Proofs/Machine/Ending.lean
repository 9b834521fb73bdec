import ByteMachine.Proofs.Flat.Invariant
import ByteMachine.Proofs.Machine.Tracing
import ByteMachine.Proofs.System.Safety

/-!
How runs end.  Whatever is done between the steps, as long as it touches neither memory nor the
processor, a machine that starts within its bounds stays within them, and the last snapshot of its
run shows a fault exactly if the machine has faulted.
-/

namespace ByteMachine

variable {m next last : Machine} {size limit : Nat} {snapshots : List Snapshot}
  {act : Snapshot → MachineM Unit}

def Machine.Bounded (m : Machine) (size : Nat) : Prop := ∃ s : Flat, m.Shows s ∧ s.Sound size

theorem Machine.Bounded.poised (h : m.Bounded size) : m.Poised := by
  obtain ⟨s, hm, hs⟩ := h
  exact hm.poised hs.pc.1

theorem Machine.Bounded.cells (h : m.Bounded size) : m.bus.cells.length = size := by
  obtain ⟨s, hm, hs⟩ := h
  rw [hm.memory.cells_eq, hs.memory]

theorem Machine.Bounded.pc (h : m.Bounded size) : 0 ≤ m.cpu.pc ∧ m.cpu.pc ≤ 255 := by
  obtain ⟨s, hm, hs⟩ := h
  rw [hm.pc]
  exact hs.pc

theorem Machine.Bounded.withTerminal (h : m.Bounded size) (log : List Access) (console : Console) :
    (m.withTerminal log console).Bounded size := by
  obtain ⟨s, hm, hs⟩ := h
  refine ⟨{ s with
    input := console.remaining
    output := console.programOutput
    interactive := console.interactive }, ?_, hs.memory, hs.flags, hs.pc, ?_⟩
  · exact ⟨hm.cpu, hm.memory.congr rfl rfl, hm.ports, rfl, rfl, rfl, hm.status, hm.stepCount⟩
  · intro hh
    obtain ⟨place, hp, hstops⟩ := hs.halted hh
    exact ⟨place, hp, hstops⟩

structure Machine.Proceeds (m : Machine) (size : Nat) (snapshot : Snapshot) (next : Machine) :
    Prop where
  step : Machine.step m = .ok snapshot next
  bounded : next.Bounded size
  pc : 0 ≤ snapshot.cpu.pc
  fault : m.status = .running → (snapshot.fault.isSome ↔ next.status = .faulted)

theorem Machine.Bounded.proceeds (h : m.Bounded size) (hz : size ≤ 255) :
    ∃ snapshot next, m.Proceeds size snapshot next := by
  obtain ⟨s, hm, hs⟩ := h
  obtain ⟨next, hstep, hnext⟩ := step_shows hm
  have hsound := Flat.step_sound hs hz
  refine ⟨_, next, hstep, ⟨_, hnext, hsound⟩, hsound.pc.1, fun hr => ?_⟩
  rw [Flat.Outcome.snapshot, Option.isSome_map, hnext.status]
  exact Flat.step_fault_iff hs hz (hm.status.symm.trans hr)

/-- The action succeeds on machines within their bounds, keeps them there and leaves their status
alone. -/
def Harmless (size : Nat) (act : Snapshot → MachineM Unit) : Prop :=
  ∀ m snapshot, m.Bounded size → 0 ≤ snapshot.cpu.pc →
    ∃ told, act snapshot m = .ok () told ∧ told.Bounded size ∧ told.status = m.status

theorem nothing_harmless (size : Nat) : Harmless size fun _ => pure () :=
  fun m _ hm _ => ⟨m, rfl, hm, rfl⟩

theorem print_harmless (size : Nat) (layout : Trace.Layout) (pause : Bool) :
    Harmless size (Trace.print layout pause) := by
  intro m snapshot hm hpc
  have ht := Trace.print_shows hm.poised.memory hpc layout pause
  exact ⟨_, ht, hm.withTerminal _ _, rfl⟩

theorem Harmless.course (ha : Harmless size act) (hz : size ≤ 255) (hm : m.Bounded size)
    (limit : Nat) : ∃ snapshots last, Course act limit m snapshots last := by
  induction limit generalizing m with
  | zero => exact ⟨[], m, .limit m⟩
  | succ limit ih =>
    by_cases hr : m.status = .running
    · obtain ⟨snapshot, next, hp⟩ := hm.proceeds hz
      obtain ⟨told, ht, htold, -⟩ := ha next snapshot hp.bounded hp.pc
      obtain ⟨rest, last, hc⟩ := ih htold
      exact ⟨snapshot :: rest, last, .step hr hp.step ht hc⟩
    · exact ⟨[], m, .stopped hr⟩

theorem Course.stopped_nil (h : Course act limit m snapshots last) (hm : m.status ≠ .running) :
    snapshots = [] ∧ last = m := by
  cases h with
  | limit m => exact ⟨rfl, rfl⟩
  | stopped h => exact ⟨rfl, rfl⟩
  | step hr hs ha hrest => exact absurd hr hm

theorem Course.ends (h : Course act limit m snapshots last) (ha : Harmless size act)
    (hz : size ≤ 255) (hm : m.Bounded size) (hf : m.status ≠ .faulted) :
    last.Bounded size ∧
      ((snapshots.getLast?.bind Snapshot.fault).isSome ↔ last.status = .faulted) := by
  induction h with
  | limit m => exact ⟨hm, by simpa using hf⟩
  | stopped _ => exact ⟨hm, by simpa using hf⟩
  | @step limit m next told last snapshot rest hr hs ht hrest ih =>
    obtain ⟨shown, reached, hp⟩ := hm.proceeds hz
    have hsame := hp.step
    rw [hs] at hsame
    cases hsame
    obtain ⟨acted, hact, hbounded, hstatus⟩ := ha next snapshot hp.bounded hp.pc
    rw [ht] at hact
    cases hact
    have hfault := hp.fault hr
    rw [← hstatus] at hfault
    by_cases htold : told.status = .faulted
    · obtain ⟨rfl, rfl⟩ := hrest.stopped_nil (by rw [htold]; decide)
      exact ⟨hbounded, by simpa using hfault⟩
    · obtain ⟨hlast, hiff⟩ := ih hbounded htold
      refine ⟨hlast, ?_⟩
      cases rest with
      | nil =>
        cases hrest.nothing
        simpa using hfault
      | cons first rest =>
        rw [List.getLast?_cons_cons]
        exact hiff

end ByteMachine
