import ByteMachine.Proofs.Flat.Refinement
import ByteMachine.Proofs.Machine.Flags
import ByteMachine.Proofs.Machine.Steps

/-!
Machines whose flag register holds any number, a negative one too.  Such a machine steps like a flat
machine that has the same lowest byte of flags, with a bit above it which tells whether arithmetic
has set them.
-/

namespace ByteMachine

open Machine

variable {m next : Machine} {s : Flat} {snapshot : Snapshot}

/-- The machine has a memory without gaps, the console on its channels and bytes in its
registers. -/
structure Machine.Equipped (m : Machine) : Prop where
  memory : m.bus.GapFree
  ports : m.bus.HasConsole
  registers : ∀ register ∈ m.cpu.registers, 0 ≤ register ∧ register ≤ 255

theorem Machine.Regular.equipped (h : m.Regular) : m.Equipped :=
  ⟨h.memory, h.ports, h.registers⟩

theorem Machine.Shows.equipped (h : m.Shows s) : m.Equipped := h.regular.equipped

theorem Machine.Equipped.withFlags_regular (h : m.Equipped) {flags : Int} (hf : 0 ≤ flags) :
    (m.withFlags flags).Regular :=
  ⟨h.memory, h.ports, h.registers, hf⟩

/-- The machine without its bus, with a bit in its flags that no instruction can see or set. -/
def Machine.marked (m : Machine) : Flat := (m.withFlags (m.cpu.flags % 256 + 256)).flat

theorem marked_flags (m : Machine) : (m.marked.flags : Int) = m.cpu.flags % 256 + 256 := by
  change ((m.cpu.flags % 256 + 256).toNat : Int) = _
  omega

theorem Machine.Equipped.marked_registers (h : m.Equipped) :
    m.marked.cpu.registers = m.cpu.registers := by
  have hflags : 0 ≤ m.cpu.flags % 256 + 256 := by omega
  have hcpu := congrArg Cpu.registers (h.withFlags_regular hflags).flat_cpu
  exact hcpu

/-- This step of the machine, with its snapshot, is that of the flat machine but for the flags.
They are kept if the flat machine keeps its own. -/
structure Machine.Mirrors (m : Machine) (snapshot : Snapshot) (next : Machine) : Prop where
  snapshot : snapshot.AlikeBesideCpu (m.marked.step.snapshot m.cpu.pc)
  shows : (next.withFlags m.marked.step.next.flags).Shows m.marked.step.next
  flags : m.marked.step.next.flags = m.marked.flags → next.cpu.flags = m.cpu.flags

theorem Machine.Equipped.step_mirrors (h : m.Equipped) :
    ∃ snapshot next, Machine.step m = .ok snapshot next ∧ m.Mirrors snapshot next := by
  have hmod : m.cpu.flags % 256 = (m.cpu.flags % 256 + 256) % 256 := by omega
  -- Arithmetic sets no flags beyond 3, so from 256 on they can only be those of the start.
  have hregular := h.withFlags_regular (show 0 ≤ m.cpu.flags % 256 + 256 by omega)
  obtain ⟨shown, hstep, hshows⟩ := step_shows hregular.shows_flat
  have hends := step_indifferent hmod m _ (.kept rfl)
  rw [hstep] at hends
  have hmarked := marked_flags m
  generalize hx : Machine.step m = x at hends
  cases hends with
  | @ok snapshot _ next _ halike hapart =>
    have hsame := hshows.flags
    refine ⟨snapshot, next, rfl, halike, ?_, ?_⟩
    · cases hapart with
      | kept hf =>
        have hflags : (m.cpu.flags % 256 + 256 : Int) = m.marked.step.next.flags := hsame
        rw [← hflags]
        exact hshows
      | reset hf =>
        rw [Machine.marked, ← hsame]
        exact hshows
    · intro hkept
      cases hapart with
      | kept hf => exact hf
      | reset hf =>
        have hflags : shown.cpu.flags = m.marked.step.next.flags := hsame
        omega

namespace Machine.Mirrors

variable (h : m.Mirrors snapshot next)
include h

theorem equipped : next.Equipped := by
  have he := h.shows.equipped
  exact ⟨he.memory, he.ports, he.registers⟩

theorem activity : snapshot.activity = m.marked.step.next.activity :=
  (congrArg Snapshot.activity h.snapshot).symm

theorem memory : snapshot.memory = m.marked.step.next.memory :=
  (congrArg Snapshot.memory h.snapshot).symm

theorem operation : snapshot.operation = m.marked.step.code.map Flat.operation :=
  (congrArg Snapshot.operation h.snapshot).symm

theorem fault : snapshot.fault = m.marked.step.fault.map (⟨·, m.cpu.pc⟩) :=
  (congrArg Snapshot.fault h.snapshot).symm

theorem pc : next.cpu.pc = m.marked.step.next.pc := h.shows.pc

theorem registers : next.cpu.registers = m.marked.step.next.cpu.registers := by
  have hcpu := congrArg Cpu.registers h.shows.cpu
  exact hcpu

theorem status : next.status = m.marked.step.next.status := h.shows.status

theorem contents : Bus.contents next.bus = .ok snapshot.memory next.bus := by
  rw [h.memory]
  exact h.shows.memory.contents

end Machine.Mirrors

theorem Machine.Equipped.steps (h : m.Equipped) (count : Nat) :
    ∃ snapshots last, Machine.steps count m = .ok snapshots last ∧ last.Equipped := by
  induction count generalizing m with
  | zero => exact ⟨[], m, rfl, h⟩
  | succ count ih =>
    obtain ⟨snapshot, next, hstep, hmirrors⟩ := h.step_mirrors
    obtain ⟨snapshots, last, hsteps, hlast⟩ := ih hmirrors.equipped
    exact ⟨snapshot :: snapshots, last, steps_cons hstep hsteps, hlast⟩

end ByteMachine
