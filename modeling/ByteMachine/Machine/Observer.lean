import ByteMachine.Trace

/-!
Observers of a run: the tracer, and observers with a name that react to every call in one way.  A
named observer is made when its name is first used, and its reaction never changes after that.
-/

namespace ByteMachine

inductive Reaction where
  | none
  | remove (name : String)
  | add (name : String)
  | write (address data : Int)
  | jump (pc : Int)
  | reset
  deriving DecidableEq, Repr

inductive Observer where
  | named (name : String)
  | tracer (pause : Bool)
  deriving DecidableEq, Repr

abbrev Cast := List (String × Reaction)

abbrev ObservedM := SessionM Observer Cast

namespace Observer

def ensure (name : String) (reaction : Reaction) : ObservedM Unit := modify fun session =>
  if (session.context.lookup name).isSome then session
  else { session with context := session.context ++ [(name, reaction)] }

def addNamed (name : String) (reaction : Reaction := .none) : ObservedM Unit := do
  ensure name reaction
  Session.subscribe (.named name)

def removeNamed (name : String) : ObservedM Unit := do
  ensure name .none
  Session.unsubscribe (.named name)

def react : Reaction → ObservedM Unit
  | .none => return ()
  | .remove name => removeNamed name
  | .add name => addNamed name
  | .write address data => Session.onMachine (Machine.onBus (Bus.write address data))
  | .jump pc => Session.onMachine (Machine.setPc pc)
  | .reset => Session.onMachine Machine.reset

def notify (layout : Trace.Layout) : Observer → Snapshot → ObservedM Unit
  | .named name, _ => do react (((← get).context.lookup name).getD .none)
  | .tracer pause, snapshot => Session.onMachine (Trace.print layout pause snapshot)

end Observer

end ByteMachine
