import ByteMachine.Proofs.Flat.Step

/-!
Many steps.  Stepping a machine steps the flat machine that it shows.
-/

namespace ByteMachine

variable {m : Machine} {s : Flat}

def Machine.steps : Nat → MachineM (List Snapshot)
  | 0 => return []
  | count + 1 => do
    let first ← step
    let rest ← steps count
    return first :: rest

def Flat.snapshots (s : Flat) : Nat → List Snapshot
  | 0 => []
  | count + 1 => s.step.snapshot s.pc :: s.step.next.snapshots count

theorem steps_cons {snapshot : Snapshot} {next last : Machine} {rest : List Snapshot} {count : Nat}
    (h : Machine.step m = .ok snapshot next) (hr : Machine.steps count next = .ok rest last) :
    Machine.steps (count + 1) m = .ok (snapshot :: rest) last := by
  rw [Machine.steps, bind_ok h, bind_ok hr]
  rfl

theorem steps_shows (h : m.Shows s) (count : Nat) :
    ∃ next, Machine.steps count m = .ok (s.snapshots count) next ∧ next.Shows (s.after count) := by
  induction count generalizing m s with
  | zero => exact ⟨m, rfl, h⟩
  | succ count ih =>
    obtain ⟨next, hstep, hn⟩ := step_shows h
    obtain ⟨last, hsteps, hl⟩ := ih hn
    exact ⟨last, steps_cons hstep hsteps, hl⟩

end ByteMachine
