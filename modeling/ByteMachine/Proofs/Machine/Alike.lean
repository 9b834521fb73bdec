import ByteMachine.Proofs.Flat.Activity
import ByteMachine.Proofs.Flat.Invariant
import ByteMachine.Proofs.Machine.Equipped

/-!
Machines that nobody can tell apart: the same processor, the same memory behind any regions, the
same input left and the same output written.  Alike machines take the same steps and stay alike.
-/

namespace ByteMachine

open Machine

variable {m m' next next' : Machine} {snapshot snapshot' : Snapshot}

theorem peek_bus {bus after : Bus wiring} {address : Int} {byte : UInt8}
    (h : Bus.peek address bus = .ok byte after) : after = bus := by
  unfold Bus.peek at h
  split at h
  · cases h
  · split at h
    · cases h
      rfl
    · cases h
  · next device _ _ => exact nomatch device

theorem peekRange_bus {count : Nat} {address : Int} {bus after : Bus wiring} {bytes : List UInt8}
    (h : Bus.peekRange address count bus = .ok bytes after) : after = bus := by
  induction count generalizing address bus bytes with
  | zero =>
    cases h
    rfl
  | succ count ih =>
    obtain ⟨byte, first, hb, h⟩ := bind_eq_ok h
    obtain ⟨rest, last, hr, h⟩ := bind_eq_ok h
    cases h
    rw [ih hr, peek_bus hb]

theorem snapshot_leaves {operation : Option Operation} {fault : Option FaultReport}
    (h : Machine.snapshot operation fault m = .ok snapshot next) :
    snapshot.cpu = next.cpu ∧ next.bus.log = [] := by
  obtain ⟨activity, quiet, ha, h⟩ := bind_eq_ok h
  obtain ⟨memory, last, hm, h⟩ := bind_eq_ok h
  obtain ⟨bus, hc, rfl⟩ := onBus_eq_ok hm
  have hbus : bus = quiet.bus := peekRange_bus hc
  cases ha
  cases h
  exact ⟨rfl, by rw [hbus]⟩

theorem step_ends (h : Machine.step m = .ok snapshot next) :
    ∃ operation fault last, Machine.snapshot operation fault last = .ok snapshot next := by
  obtain ⟨log, quiet, -, h⟩ := bind_eq_ok h
  obtain ⟨seen, same, -, h⟩ := bind_eq_ok h
  split at h
  · obtain ⟨pc, start, -, h⟩ := bind_eq_ok h
    obtain ⟨⟨operation, fault⟩, last, -, h⟩ := bind_eq_ok h
    cases fault with
    | none =>
      obtain ⟨_, counted, -, h⟩ := bind_eq_ok h
      exact ⟨operation, none, counted, h⟩
    | some fault =>
      obtain ⟨_, faulted, -, h⟩ := bind_eq_ok h
      obtain ⟨_, reported, -, h⟩ := bind_eq_ok h
      obtain ⟨_, counted, -, h⟩ := bind_eq_ok h
      exact ⟨operation, _, counted, h⟩
  · exact ⟨none, none, same, h⟩

theorem step_leaves (h : Machine.step m = .ok snapshot next) :
    snapshot.cpu = next.cpu ∧ next.bus.log = [] := by
  obtain ⟨operation, fault, last, hs⟩ := step_ends h
  exact snapshot_leaves hs

theorem Machine.Equipped.step_flags (h : m.Equipped) (hs : Machine.step m = .ok snapshot next)
    (hn : m.marked.step.next.flags ≠ m.marked.flags) :
    next.cpu.flags = m.marked.step.next.flags := by
  have hmod : m.cpu.flags % 256 = (m.cpu.flags % 256 + 256) % 256 := by omega
  have hregular := h.withFlags_regular (show 0 ≤ m.cpu.flags % 256 + 256 by omega)
  obtain ⟨shown, hstep, hshows⟩ := step_shows hregular.shows_flat
  have hends := step_indifferent hmod m _ (.kept rfl)
  have hflags : shown.cpu.flags = m.marked.step.next.flags := hshows.flags
  have hmarked := marked_flags m
  rw [hs, hstep] at hends
  cases hends with
  | ok halike hapart =>
    cases hapart with
    | kept hf =>
      have hsame : (m.cpu.flags % 256 + 256 : Int) = m.marked.step.next.flags := hflags
      omega
    | reset hf => exact hflags

/-- The machine is equipped, and its program counter has not gone below memory. -/
structure Machine.Poised (m : Machine) : Prop extends m.Equipped where
  pc : 0 ≤ m.cpu.pc

theorem Machine.Shows.poised {s : Flat} (h : m.Shows s) (hpc : 0 ≤ s.pc) : m.Poised :=
  ⟨h.equipped, by rw [h.pc]; exact hpc⟩

/-- The same input is left on both terminals, and the program has written the same to them. -/
structure Console.Alike (console console' : Console) : Prop where
  remaining : console'.remaining = console.remaining
  output : console'.programOutput = console.programOutput
  interactive : console'.interactive = console.interactive

/-- Nobody can tell the machines apart. -/
structure Machine.Alike (m m' : Machine) : Prop where
  cpu : m'.cpu = m.cpu
  memory : m'.bus.cells = m.bus.cells
  console : m.console.Alike m'.console
  status : m'.status = m.status
  stepCount : m'.stepCount = m.stepCount

theorem Bus.Holds.cells_eq {bus : Bus wiring} {memory : List UInt8} (h : bus.Holds memory) :
    bus.cells = memory := by
  have hcells := h.gapFree.holds.contents
  rw [h.contents] at hcells
  cases hcells
  rfl

namespace Machine

theorem Mirrors.poised (h : m.Mirrors snapshot next) (hm : m.Poised) : next.Poised := by
  refine ⟨h.equipped, ?_⟩
  rw [h.pc]
  exact Flat.step_pc (s := m.marked) hm.pc

theorem Mirrors.interactive (h : m.Mirrors snapshot next) :
    next.console.interactive = m.console.interactive :=
  h.shows.interactive.trans m.marked.step_tells.interactive

theorem Mirrors.snapshot_eq (h : m.Mirrors snapshot next)
    (hs : Machine.step m = .ok snapshot next) :
    snapshot = { m.marked.step.snapshot m.cpu.pc with cpu := next.cpu } := by
  have hbeside := h.snapshot
  unfold Snapshot.AlikeBesideCpu at hbeside
  rw [hbeside, ← (step_leaves hs).1]

namespace Alike

theorem refl (m : Machine) : m.Alike m := ⟨rfl, rfl, ⟨rfl, rfl, rfl⟩, rfl, rfl⟩

theorem withFlags (h : m.Alike m') (flags : Int) :
    (m.withFlags flags).Alike (m'.withFlags flags) := by
  refine ⟨?_, h.memory, h.console, h.status, h.stepCount⟩
  unfold Machine.withFlags
  rw [h.cpu]

theorem flat (h : m.Alike m') : m'.flat = m.flat := by
  simp only [Machine.flat, h.cpu, h.memory, h.console.remaining, h.console.output,
    h.console.interactive, h.status, h.stepCount]

theorem marked (h : m.Alike m') : m'.marked = m.marked := by
  unfold Machine.marked
  rw [h.cpu]
  exact (h.withFlags _).flat

end Alike

theorem Poised.step_flags (hm : m.Poised) (hm' : m'.Poised) (ha : m.Alike m')
    (hs : Machine.step m = .ok snapshot next) (hs' : Machine.step m' = .ok snapshot' next')
    (h : m.Mirrors snapshot next) (h' : m'.Mirrors snapshot' next') :
    next'.cpu.flags = next.cpu.flags := by
  by_cases hkept : m.marked.step.next.flags = m.marked.flags
  · rw [h.flags hkept, h'.flags (by rw [ha.marked]; exact hkept), ha.cpu]
  · have hflags := hm.toEquipped.step_flags hs hkept
    have hflags' := hm'.toEquipped.step_flags hs' (by rw [ha.marked]; exact hkept)
    rw [hflags, hflags', ha.marked]

/-- Alike machines take the same step, with the same snapshot, and are alike behind it. -/
theorem Alike.step (ha : m.Alike m') (hm : m.Poised) (hm' : m'.Poised) :
    ∃ snapshot next next', Machine.step m = .ok snapshot next ∧
      Machine.step m' = .ok snapshot next' ∧ next.Alike next' ∧ next.Poised ∧ next'.Poised ∧
      next.console.interactive = m.console.interactive := by
  obtain ⟨snapshot, next, hs, h⟩ := hm.step_mirrors
  obtain ⟨snapshot', next', hs', h'⟩ := hm'.step_mirrors
  have hflat := ha.marked
  have hshows := h'.shows
  rw [hflat] at hshows
  have hcpu : next'.cpu = next.cpu := by
    have hpc : next'.cpu.pc = next.cpu.pc := by rw [h'.pc, h.pc, hflat]
    have hregisters : next'.cpu.registers = next.cpu.registers := by
      rw [h'.registers, h.registers, hflat]
    have hflags := hm.step_flags hm' ha hs hs' h h'
    generalize next'.cpu = cpu' at hpc hregisters hflags ⊢
    generalize next.cpu = cpu at hpc hregisters hflags ⊢
    cases cpu
    cases cpu'
    cases hpc
    cases hregisters
    cases hflags
    rfl
  have hsnapshot : snapshot' = snapshot := by
    rw [h'.snapshot_eq hs', h.snapshot_eq hs, hflat, ha.cpu, hcpu]
  subst hsnapshot
  refine ⟨snapshot', next, next', hs, hs', ?_, h.poised hm, h'.poised hm', h.interactive⟩
  exact {
    cpu := hcpu
    memory := hshows.memory.cells_eq.trans h.shows.memory.cells_eq.symm
    console := ⟨hshows.input.trans h.shows.input.symm, hshows.output.trans h.shows.output.symm,
      hshows.interactive.trans h.shows.interactive.symm⟩
    status := hshows.status.trans h.shows.status.symm
    stepCount := hshows.stepCount.trans h.shows.stepCount.symm }

end Machine

end ByteMachine
