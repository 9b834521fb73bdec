import ByteMachine.Proofs.Program.Arguments
import ByteMachine.Proofs.Program.Switches
import Mathlib.Data.List.TakeDrop

/-!
The image that a command line asks for.  It can be named by the plain argument and by a switch, as
often as one likes and in several forms; the last one counts, whatever stands in between.
-/

namespace ByteMachine

section Spellings

variable {text value : String} {switch : Switch}

end Spellings

section Images

variable {arguments rest : List String} {choices : List Choice} {position : Position}
  {release : Release}

example : Options.ofArguments .late ["-la.img", "-d"] =
    .ok { load := .text "a.img", debug := true } := by decide +kernel

end Images

end ByteMachine
