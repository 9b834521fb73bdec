import ByteMachine.Proofs.Flat.Step
import Mathlib.Tactic.Common

/-!
Every regular machine refines the flat machine.  Regular are the machines without gaps in memory,
with bytes in their registers and the console on their channels; nothing is asked of the program
counter, of memory or of the terminal.
-/

namespace ByteMachine

open Machine

variable {m : Machine} {s : Flat}

structure Machine.Regular (m : Machine) : Prop where
  memory : m.bus.GapFree
  ports : m.bus.HasConsole
  registers : ∀ register ∈ m.cpu.registers, 0 ≤ register ∧ register ≤ 255
  flags : 0 ≤ m.cpu.flags

def Machine.flat (m : Machine) : Flat where
  pc := m.cpu.pc
  flags := m.cpu.flags.toNat
  registers := m.cpu.registers.map UInt8.ofInt
  memory := m.bus.cells
  input := m.console.remaining
  output := m.console.programOutput
  interactive := m.console.interactive
  status := m.status
  stepCount := m.stepCount
  activity := []

theorem Machine.Regular.flat_cpu (h : m.Regular) : m.flat.cpu = m.cpu := by
  have hflags : (m.cpu.flags.toNat : Int) = m.cpu.flags := Int.toNat_of_nonneg h.flags
  have hregisters : (m.cpu.registers.map UInt8.ofInt).map (fun byte => (byte.toNat : Int)) =
      m.cpu.registers := by
    apply Vector.ext
    intro i hi
    have hr := h.registers m.cpu.registers[i] (Vector.getElem_mem hi)
    simp only [Vector.getElem_map, toNat_ofInt]
    omega
  simp only [Flat.cpu, flat, hflags, hregisters]

theorem Machine.Regular.shows_flat (h : m.Regular) : m.Shows m.flat :=
  ⟨h.flat_cpu.symm, h.memory.holds, h.ports, rfl, rfl, rfl, rfl, rfl⟩

theorem Bus.Holds.gapFree {h : Hardware} {bus : Bus h} {memory : List UInt8}
    (hm : bus.Holds memory) : bus.GapFree := by
  refine ⟨hm.separate, ?_⟩
  intro address ha
  rw [hm.size] at ha
  have hb := hm.bytes address ha
  rw [List.getElem?_eq_getElem ha] at hb
  obtain ⟨region, memory, hh⟩ := hm.separate.home_of_byteAt hb
  exact ⟨region, List.mem_of_find?_eq_some hh.found, hh.covers⟩

theorem Machine.Shows.regular (h : m.Shows s) : m.Regular where
  memory := h.memory.gapFree
  ports := h.ports
  registers := by
    intro register hr
    rw [h.cpu] at hr
    obtain ⟨byte, -, rfl⟩ := Vector.mem_map.mp hr
    exact byte_range byte
  flags := by
    rw [h.flags]
    omega

/-- One step of a regular machine is one step of the flat machine.  It never fails; the new state,
the terminal and the snapshot, with the fault if there is one, are those of the flat machine, and
the machine is regular again. -/
theorem step_refines_flat (h : m.Regular) :
    ∃ next, Machine.step m = .ok (m.flat.step.snapshot m.cpu.pc) next ∧
      next.Shows m.flat.step.next ∧ next.Regular := by
  obtain ⟨next, hstep, hnext⟩ := step_shows h.shows_flat
  exact ⟨next, hstep, hnext, hnext.regular⟩

/-- Two memories, the first of them behind the second, that share address 2.  The program reads a
number into register 0. -/
def overlapping : Machine where
  bus := {
    devices := #[.ram ⟨#[16, 0]⟩, .ram ⟨#[7, 1, 0]⟩]
    regions := [⟨0, 2, 1⟩, ⟨2, 3, 0⟩]
    ports := [(1, .numeric), (0, .character)]
    shared := { unread := [32, 55, 10] } }

theorem overlapping_regular : overlapping.Regular where
  memory := by
    refine ⟨⟨by decide, ?_⟩, by decide⟩
    intro region hr
    simp only [overlapping, List.mem_cons, List.not_mem_nil, or_false] at hr
    rcases hr with rfl | rfl
    · exact ⟨_, rfl, rfl⟩
    · exact ⟨_, rfl, rfl⟩
  ports := Bus.hasConsole rfl
  registers := by decide
  flags := by decide

/-- Ten bytes of memory in two regions that share address 6.  The program stores a byte that it
reads at address 9, and writes it from there. -/
def echoing : Machine where
  bus := {
    devices := #[.ram ⟨#[0, 0, 0, 0]⟩, .ram ⟨#[7, 0, 18, 8, 0, 18, 99]⟩]
    regions := [⟨6, 9, 0⟩, ⟨0, 6, 1⟩]
    ports := [(1, .numeric), (0, .character)]
    shared := { unread := [65, 10] } }

theorem echoing_regular : echoing.Regular where
  memory := by
    refine ⟨⟨by decide, ?_⟩, by decide⟩
    intro region hr
    simp only [echoing, List.mem_cons, List.not_mem_nil, or_false] at hr
    rcases hr with rfl | rfl
    · exact ⟨_, rfl, rfl⟩
    · exact ⟨_, rfl, rfl⟩
  ports := Bus.hasConsole rfl
  registers := by decide
  flags := by decide

theorem step_refines_flat_overlapping :
    overlapping.flat.memory = [7, 1, 0, 0] ∧
      overlapping.flat.step.next.registers.toList = [7, 0, 0, 0, 0, 0, 0, 0] ∧
      overlapping.flat.step.next.input = [10] ∧
      ∃ next, Machine.step overlapping = .ok (overlapping.flat.step.snapshot 0) next ∧
        next.Shows overlapping.flat.step.next ∧ next.Regular :=
  ⟨by decide, by decide +kernel, by decide +kernel, step_refines_flat overlapping_regular⟩

end ByteMachine
