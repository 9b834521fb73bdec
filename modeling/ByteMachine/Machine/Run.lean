import ByteMachine.Machine.Step

/-!
Running a machine under observation.  After every step each observer that is registered at that
moment is told of the snapshot, once and in the order of registration, even if the observers change
the registry meanwhile.
-/

namespace ByteMachine

/-- A machine with its registered observers and whatever the observers keep among themselves. -/
structure Session (κ ω : Type) where
  machine : Machine
  observers : List κ := []
  context : ω

abbrev SessionM (κ ω : Type) := EStateM Failure (Session κ ω)

structure RunSummary (κ : Type) where
  status : Status := .running
  steps : Nat := 0
  last : Option Snapshot := none
  calls : Array (κ × Snapshot) := #[]

def RunSummary.fault {κ : Type} (result : RunSummary κ) : Option FaultReport :=
  result.last.bind Snapshot.fault

namespace Session

variable {κ ω : Type}

def onMachine {α : Type} (action : MachineM α) : SessionM κ ω α := fun session =>
  match action session.machine with
  | .ok value machine => .ok value { session with machine }
  | .error failure machine => .error failure { session with machine }

def subscribe [DecidableEq κ] (observer : κ) : SessionM κ ω Unit := modify fun session =>
  if observer ∈ session.observers then session
  else { session with observers := session.observers ++ [observer] }

def unsubscribe [DecidableEq κ] (observer : κ) : SessionM κ ω Unit := modify fun session =>
  { session with observers := session.observers.erase observer }

def notifyAll (notify : κ → Snapshot → SessionM κ ω Unit) (snapshot : Snapshot) :
    List κ → SessionM κ ω Unit
  | [] => return ()
  | observer :: rest => do
    notify observer snapshot
    notifyAll notify snapshot rest

def advance (notify : κ → Snapshot → SessionM κ ω Unit) (result : RunSummary κ) :
    SessionM κ ω (RunSummary κ) := do
  let snapshot ← onMachine Machine.step
  let told := (← get).observers
  notifyAll notify snapshot told
  return { result with
    steps := result.steps + 1
    last := some snapshot
    calls := result.calls ++ told.map (·, snapshot) }

/-- Goes on with a run while the machine is running, but for no more steps than the limit. -/
def runFrom (notify : κ → Snapshot → SessionM κ ω Unit) :
    Nat → RunSummary κ → SessionM κ ω (RunSummary κ)
  | 0, result => return { result with status := (← get).machine.status }
  | limit + 1, result => do
    if (← get).machine.status = .running then
      runFrom notify limit (← advance notify result)
    else return { result with status := (← get).machine.status }

def run (notify : κ → Snapshot → SessionM κ ω Unit) (limit : Nat) : SessionM κ ω (RunSummary κ) :=
  runFrom notify limit {}

end Session

end ByteMachine
