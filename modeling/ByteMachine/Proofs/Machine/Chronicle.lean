import ByteMachine.Proofs.Flat.Activity
import ByteMachine.Proofs.Machine.Equipped

/-!
The log in a snapshot accounts for its step: it leads from the memory before the step to the memory
in the snapshot, and it holds all that the step has written to the terminal.  The snapshots of a run
form a chronicle, in which each step starts from the memory that the one before it has left.
-/

namespace ByteMachine

open Machine

variable {m next last : Machine} {snapshot : Snapshot} {snapshots : List Snapshot}
  {memory : List UInt8}

/-- What the snapshot of a step tells of the machine before and after it. -/
structure Snapshot.Accounts (snapshot : Snapshot) (m : Machine) (memory : List UInt8)
    (next : Machine) : Prop where
  before : Bus.contents m.bus = .ok memory m.bus
  replay : snapshot.activity.foldlM Access.follow? memory = some snapshot.memory
  after : Bus.contents next.bus = .ok snapshot.memory next.bus
  fetched : ∀ (place : Nat) (opcode : UInt8), m.status = .running → m.cpu.pc = place →
    memory[place]? = some opcode →
    ∃ rest, snapshot.activity = ⟨.read, place, opcode.toNat⟩ ::
      Access.reads (place + 1)
        ((memory.drop (place + 1)).take (Instruction.operandCount opcode.toNat)) ++ rest
  output : next.console.programOutput =
    m.console.programOutput ++ snapshot.activity.flatMap (Access.shown m.console.interactive)
  interactive : next.console.interactive = m.console.interactive

/-- The snapshots of successive steps, each of which accounts for its own one. -/
inductive Chronicle : Machine → List UInt8 → List Snapshot → Machine → List UInt8 → Prop where
  | nothing (m : Machine) (memory : List UInt8) : Chronicle m memory [] m memory
  | step {m next last : Machine} {memory final : List UInt8} {snapshot : Snapshot}
      {rest : List Snapshot} (hs : Machine.step m = .ok snapshot next)
      (ha : snapshot.Accounts m memory next)
      (hr : Chronicle next snapshot.memory rest last final) :
      Chronicle m memory (snapshot :: rest) last final

theorem Machine.Mirrors.accounts (h : m.Mirrors snapshot next) (he : m.Equipped)
    (hm : Bus.contents m.bus = .ok memory m.bus) : snapshot.Accounts m memory next := by
  have hcells : m.bus.cells = memory := by
    rw [he.memory.holds.contents] at hm
    cases hm
    rfl
  have htells := m.marked.step_tells
  rw [← h.activity] at htells
  subst hcells
  constructor
  · exact hm
  · rw [h.memory]
    exact htells.memory
  · exact h.contents
  · intro place opcode hr hpc hb
    rw [h.activity, operandCount_eq]
    exact Flat.step_activity (s := m.marked) hr hpc hb
  · exact h.shows.output.trans htells.output
  · exact h.shows.interactive.trans htells.interactive

theorem steps_chronicle (h : m.Equipped) (hm : Bus.contents m.bus = .ok memory m.bus)
    (count : Nat) :
    ∃ snapshots last final, Machine.steps count m = .ok snapshots last ∧
      Chronicle m memory snapshots last final := by
  induction count generalizing m memory with
  | zero => exact ⟨[], m, memory, rfl, .nothing m memory⟩
  | succ count ih =>
    obtain ⟨snapshot, next, hstep, hmirrors⟩ := h.step_mirrors
    have haccounts := hmirrors.accounts h hm
    obtain ⟨snapshots, last, final, hsteps, hrest⟩ := ih hmirrors.equipped haccounts.after
    exact ⟨snapshot :: snapshots, last, final, steps_cons hstep hsteps,
      .step hstep haccounts hrest⟩

theorem Chronicle.whole {final : List UInt8} (h : Chronicle m memory snapshots last final) :
    (snapshots.flatMap Snapshot.activity).foldlM Access.follow? memory = some final ∧
      last.console.programOutput = m.console.programOutput ++
        (snapshots.flatMap Snapshot.activity).flatMap (Access.shown m.console.interactive) := by
  induction h with
  | nothing m memory => exact ⟨rfl, by simp⟩
  | step hs ha hr ih =>
    obtain ⟨hreplay, houtput⟩ := ih
    constructor
    · rw [List.flatMap_cons, List.foldlM_append, ha.replay]
      exact hreplay
    · rw [houtput, ha.output, ha.interactive, List.flatMap_cons, List.flatMap_append,
        List.append_assoc]

/-- However often a machine with the console on its channels is stepped, whatever its program, its
flags and its terminal, every snapshot accounts for what its step has done to memory and to the
terminal. -/
theorem every_step_is_accounted_for (h : m.Equipped) (count : Nat) :
    ∃ memory snapshots last final, Bus.contents m.bus = .ok memory m.bus ∧
      Machine.steps count m = .ok snapshots last ∧
      Chronicle m memory snapshots last final := by
  have hm := h.memory.holds.contents
  obtain ⟨snapshots, last, final, hsteps, hchronicle⟩ := steps_chronicle h hm count
  exact ⟨m.bus.cells, snapshots, last, final, hm, hsteps, hchronicle⟩

/-- The program of the overlapping memories asks for a number and then halts. -/
theorem every_step_is_accounted_for_overlapping :
    overlapping.Equipped ∧
      ∃ memory snapshots last final, Bus.contents overlapping.bus = .ok memory overlapping.bus ∧
        Machine.steps 2 overlapping = .ok snapshots last ∧
        Chronicle overlapping memory snapshots last final :=
  ⟨overlapping_regular.equipped, every_step_is_accounted_for overlapping_regular.equipped 2⟩

end ByteMachine
