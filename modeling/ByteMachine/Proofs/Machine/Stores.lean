import ByteMachine.Proofs.Bus.Mapping
import ByteMachine.Proofs.Flat.Stores
import ByteMachine.Proofs.Machine.Equipped

/-!
What no program can overwrite.  Every step of a machine changes one register or one byte of memory
at most, and bytes of memory only at addresses from 8 to 127.  All others stay for good.
-/

namespace ByteMachine

open Machine

variable {m next last : Machine} {s : Flat} {snapshot : Snapshot} {snapshots : List Snapshot}

/-- What a register or a byte of memory holds. -/
def Machine.held (m : Machine) : Cell → Option Int
  | .register index => some (m.cpu.registers.get index)
  | .memory address => (m.bus.byteAt address).map fun byte => (byte.toNat : Int)

theorem Machine.Shows.held (h : m.Shows s) (cell : Cell) :
    m.held cell = (s.held cell).map fun byte => (byte.toNat : Int) := by
  cases cell with
  | register index => exact congrArg some (h.register index index.isLt)
  | memory address =>
    change (m.bus.byteAt address).map _ = (s.memory[address]?).map _
    rw [h.memory.byteAt_eq address]

/-- What a step may have changed: one cell at most, and of memory only what an operand can refer
to. -/
structure Snapshot.Restrains (snapshot : Snapshot) (m next : Machine) : Prop where
  single : ∃ cell, ∀ other, other ≠ cell → next.held other = m.held other
  writes : ∀ access ∈ snapshot.activity, access.WritesInReach
  size : next.bus.memorySize = m.bus.memorySize
  beyond : ∀ address : Nat, address < 8 ∨ 127 < address →
    next.bus.byteAt address = m.bus.byteAt address

/-- Successive steps with their snapshots, none of which changes more than it may. -/
inductive RestrainedRun : Machine → List Snapshot → Machine → Prop where
  | nothing (m : Machine) : RestrainedRun m [] m
  | step {m next last : Machine} {snapshot : Snapshot} {rest : List Snapshot}
      (hs : Machine.step m = .ok snapshot next) (hr : snapshot.Restrains m next)
      (run : RestrainedRun next rest last) : RestrainedRun m (snapshot :: rest) last

theorem Machine.Mirrors.restrains (h : m.Mirrors snapshot next) (he : m.Equipped) :
    snapshot.Restrains m next := by
  obtain ⟨⟨cell, hsingle⟩, hsize, hbeyond, log, hlog, hwrites⟩ := m.marked.step_restrained
  have hm := he.memory.holds
  have hnext := h.shows.memory
  have hbefore : (m.withFlags (m.cpu.flags % 256 + 256)).Shows m.marked :=
    (he.withFlags_regular (show 0 ≤ m.cpu.flags % 256 + 256 by omega)).shows_flat
  constructor
  · refine ⟨cell, ?_⟩
    intro other ho
    have hafter := h.shows.held other
    have hfirst := hbefore.held other
    rw [hsingle other ho] at hafter
    cases other with
    | register index => exact hafter.trans hfirst.symm
    | memory address => exact hafter.trans hfirst.symm
  · intro access ha
    rw [h.activity, hlog] at ha
    exact hwrites access ha
  · rw [hm.size]
    exact hnext.size.trans hsize
  · intro address ha
    have hsame := hbeyond address ha
    rw [hm.byteAt_eq address]
    exact (hnext.byteAt_eq address).trans hsame

theorem steps_restrained (h : m.Equipped) (count : Nat) :
    ∃ snapshots last, Machine.steps count m = .ok snapshots last ∧
      RestrainedRun m snapshots last := by
  induction count generalizing m with
  | zero => exact ⟨[], m, rfl, .nothing m⟩
  | succ count ih =>
    obtain ⟨snapshot, next, hstep, hmirrors⟩ := h.step_mirrors
    obtain ⟨snapshots, last, hsteps, hrun⟩ := ih hmirrors.equipped
    exact ⟨snapshot :: snapshots, last, steps_cons hstep hsteps,
      .step hstep (hmirrors.restrains h) hrun⟩

theorem RestrainedRun.beyond (h : RestrainedRun m snapshots last) :
    last.bus.memorySize = m.bus.memorySize ∧ ∀ address : Nat, address < 8 ∨ 127 < address →
      last.bus.byteAt address = m.bus.byteAt address := by
  induction h with
  | nothing => exact ⟨rfl, fun _ _ => rfl⟩
  | step _ hr _ ih =>
    obtain ⟨hsize, hbytes⟩ := ih
    refine ⟨hsize.trans hr.size, ?_⟩
    intro address ha
    exact (hbytes address ha).trans (hr.beyond address ha)

/-- However often a machine is stepped, whatever its program and its input, each step changes one
register or one byte of memory at most and writes only to addresses from 8 to 127.  The first eight
bytes of memory and all bytes from address 128 on are those that the machine started with. -/
theorem programs_store_within_reach (h : m.Equipped) (count : Nat) :
    ∃ snapshots last, Machine.steps count m = .ok snapshots last ∧
      RestrainedRun m snapshots last ∧ last.bus.memorySize = m.bus.memorySize ∧
      ∀ address : Nat, address < 8 ∨ 127 < address →
        last.bus.byteAt address = m.bus.byteAt address := by
  obtain ⟨snapshots, last, hsteps, hrun⟩ := steps_restrained h count
  obtain ⟨hsize, hbytes⟩ := hrun.beyond
  exact ⟨snapshots, last, hsteps, hrun, hsize, hbytes⟩

/-- The program reads a byte, stores it at address 9 and writes it from there. -/
theorem programs_store_within_reach_echoing :
    echoing.Equipped ∧ ∃ snapshots last, Machine.steps 3 echoing = .ok snapshots last ∧
      RestrainedRun echoing snapshots last ∧
      echoing.bus.byteAt 9 = some 0 ∧ last.bus.byteAt 9 = some 65 ∧
      last.bus.memorySize = echoing.bus.memorySize ∧
      ∀ address : Nat, address < 8 ∨ 127 < address →
        last.bus.byteAt address = echoing.bus.byteAt address := by
  obtain ⟨snapshots, last, hsteps, hrun, hsize, hbytes⟩ :=
    programs_store_within_reach echoing_regular.equipped 3
  have hstores : ∃ snapshots last, Machine.steps 3 echoing = .ok snapshots last ∧
      last.bus.byteAt 9 = some 65 := Succeeds.exists_ok (by decide +kernel)
  obtain ⟨_, _, hsame, hstored⟩ := hstores
  rw [hsteps] at hsame
  cases hsame
  exact ⟨echoing_regular.equipped, snapshots, last, hsteps, hrun, rfl, hstored, hsize, hbytes⟩

end ByteMachine
