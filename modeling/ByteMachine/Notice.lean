import ByteMachine.Fault

/-!
Notices.  Everything that the machine and its surroundings report besides their results, with a
level that decides whether the report is shown.
-/

namespace ByteMachine

inductive Level where
  | debug
  | info
  | warning
  | error
  deriving DecidableEq, Repr

namespace Level

def name : Level → String
  | debug => "DEBUG"
  | info => "INFO"
  | warning => "WARNING"
  | error => "ERROR"

def weight : Level → Nat
  | debug => 10
  | info => 20
  | warning => 30
  | error => 40

end Level

inductive Notice where
  | noNumber
  | unknownOpcode (hex : String)
  | faulted (pc : Int) (fault : Fault)
  | loadingImage (path : String)
  | savingImage (path : String)
  | imageSizeField (found computed : Nat)
  | resuming (pc : Int)
  | malformedProgram (pc : Int) (fault : Fault)
  | problem (text : String)
  deriving DecidableEq, Repr

namespace Notice

def level : Notice → Level
  | noNumber | imageSizeField .. => .warning
  | unknownOpcode _ | faulted .. => .debug
  | loadingImage _ | savingImage _ | resuming _ => .info
  | malformedProgram .. | problem _ => .error

def message : Notice → String
  | noNumber => "numeric input is not a decimal integer, reading 0"
  | unknownOpcode hex => s!"no handler for opcode ${hex}, halting"
  | faulted pc fault => s!"fault at pc {pc}: {fault.message}"
  | loadingImage path => s!"loading image from {path}"
  | savingImage path => s!"saving image into new file {path}"
  | imageSizeField found computed =>
    s!"image size field {found} does not match {computed}, ignoring"
  | resuming pc => s!"resuming core from {pc}"
  | malformedProgram pc fault => s!"malformed program at pc {pc}: {fault.message}"
  | problem text => s!"error: {text}"

def line (notice : Notice) : String := notice.level.name ++ ": " ++ notice.message

end Notice

end ByteMachine
