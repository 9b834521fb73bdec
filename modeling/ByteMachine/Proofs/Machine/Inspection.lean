import ByteMachine.Proofs.Bus.Tiling
import ByteMachine.Proofs.Flat.Refinement

/-!
Looking at memory through a listing.  The lister peeks at opcodes but reads the bytes behind them,
and in the end it takes the log.  Its own reads are gone then, and so is all that had been logged
before it.
-/

namespace ByteMachine

open Machine

variable {m : Machine} {start : Int}

/-- A listing leaves everything but the log as it was, and reads nothing but the bytes behind the
opcodes of its lines.  It takes these reads out of the log again, together with what had been there
before; so taking the log after a listing comes to the same as without it exactly if the log had
been empty. -/
theorem listing_takes_the_log (hm : m.bus.GapFree) (hs : 0 ≤ start) (length : Int) :
    ∃ lines listed,
      Bus.listUpTo (min (start + length) m.bus.memorySize)
          (min (start + length) (m.bus.memorySize : Int) - start).toNat start m.bus =
        .ok lines { m.bus with log := m.bus.log ++ lines.flatMap (Line.reads m.bus.cells) } ∧
      onBus (Bus.disassemble start length) m = .ok lines listed ∧
      listed = { m with bus := { m.bus with log := [] } } ∧
      (onBus Bus.takeLog listed = onBus Bus.takeLog m ↔ m.bus.log = []) := by
  obtain ⟨address, rfl⟩ := Int.eq_ofNat_of_zero_le hs
  obtain ⟨lines, stop, hlist, -⟩ := hm.holds.displays.window_tiles address length
  rw [Bus.cells_length] at hlist
  have hget : (get : BusM wiring (Bus wiring)) m.bus = .ok m.bus m.bus := rfl
  have hdone : Bus.disassemble address length m.bus = .ok lines { m.bus with log := [] } := by
    rw [Bus.disassemble, bind_ok hget]
    exact (bind_ok hlist).trans rfl
  refine ⟨lines, _, hlist, onBus_ok hdone, rfl, ?_⟩
  change EStateM.Result.ok [] _ = EStateM.Result.ok m.bus.log _ ↔ _
  constructor
  · intro htaken
    exact (EStateM.Result.ok.inj htaken).1.symm
  · intro hempty
    rw [hempty]

/-- The first line is an instruction of three bytes, the second one of a single byte. -/
theorem listing_takes_the_log_overlapping :
    overlapping.bus.GapFree ∧ (0 : Int) ≤ 0 ∧
    ∃ lines listed,
      Bus.listUpTo 4 4 0 overlapping.bus =
        .ok lines { overlapping.bus with log := [⟨.read, 1, 1⟩, ⟨.read, 2, 0⟩] } ∧
      onBus (Bus.disassemble 0 9) overlapping = .ok lines listed ∧ listed = overlapping := by
  have hm := overlapping_regular.memory
  obtain ⟨lines, listed, hread, hlist, hsame, -⟩ := listing_takes_the_log hm (Int.le_refl 0) 9
  have hwindow : ∃ lines, Bus.listUpTo 4 4 0 overlapping.bus =
      .ok lines { overlapping.bus with log := [⟨.read, 1, 1⟩, ⟨.read, 2, 0⟩] } := ⟨_, rfl⟩
  obtain ⟨shown, hwindow⟩ := hwindow
  obtain ⟨rfl, -⟩ := EStateM.Result.ok.inj (hread.symm.trans hwindow)
  exact ⟨hm, Int.le_refl 0, lines, listed, hwindow, hlist, hsame⟩

/-- The read of a byte is pending when the byte is listed, and is not there any more behind that. -/
theorem listing_loses_what_was_pending :
    ∃ byte touched lines listed,
      overlapping.bus.GapFree ∧ onBus (Bus.read 0) overlapping = .ok byte touched ∧
      onBus (Bus.disassemble 0 1) touched = .ok lines listed ∧
      touched.bus.log = [⟨.read, 0, 7⟩] ∧ onBus Bus.takeLog listed = .ok [] listed :=
  ⟨_, _, _, _, overlapping_regular.memory, rfl, rfl, rfl, rfl⟩

end ByteMachine
