/-!
Runs of letters that lie at a fixed distance from the same letters in the other case.
-/

namespace ByteMachine.Text

structure CaseRun where
  first : Nat
  last : Nat
  step : Nat
  distance : Int

def CaseRun.contains (run : CaseRun) (n : Nat) : Bool :=
  run.first ≤ n && n ≤ run.last && (n - run.first) % run.step = 0

def otherCase? (runs : Array CaseRun) (c : Char) : Option Char :=
  (runs.find? (·.contains c.toNat)).map fun run =>
    Char.ofNat ((c.toNat : Int) + run.distance).toNat

end ByteMachine.Text
