import ByteMachine.Bootstrap
import ByteMachine.Config.Value
import ByteMachine.Numeral
import ByteMachine.Target
import ByteMachine.Text.Upper

/-!
System configurations and how they are read from a mapping.  Keys that are missing have defaults; a
section that is missing, null or empty has only defaults.  Unknown keys are ignored.
-/

namespace ByteMachine

structure Config where
  architecture : Value := .text "EVM"
  memorySize : Int := Bootstrap.largestMemory
  initialPc : Int := 0
  traceEnabled : Bool := false
  tracePause : Bool := true
  level : String := "WARNING"
  load : Value := .null
  save : Value := .null
  deriving Repr

inductive ConfigProblem where
  | file (path : String) (error : FileError)
  | invalidYaml (path : String)
  | rootNotMapping
  | invalidInteger (value : Value)
  | unsupportedArchitecture (value : Value)
  | memorySize (size : Int)
  | bootstrap (error : Bootstrap.BuildError)
  | unknownLevel (name : String)
  deriving Repr

def ConfigProblem.message : ConfigProblem → String
  | file path error => s!"{path}: {error.message}"
  | invalidYaml path => s!"{path}: invalid YAML: "
  | rootNotMapping => "config root must be a mapping"
  | invalidInteger value => s!"Invalid integer format: {value.shown}"
  | unsupportedArchitecture value => s!"Unsupported architecture: {value.shown}"
  | memorySize size => s!"memory_size {size} must be in 1..{Bootstrap.largestMemory}"
  | bootstrap error => error.message
  | unknownLevel name => s!"unknown logging level {name}"

/-- What reading a configuration can end with instead of a result.  Only the first kind is reported
as an error of the configuration. -/
inductive ConfigFailure where
  | config (error : ConfigProblem)
  | sectionShape
  | target (error : TargetError)
  | undecodable
  | reader (name message : String)
  deriving Repr

def ConfigFailure.message : ConfigFailure → String
  | config error => error.message
  | sectionShape => "a section must be a mapping"
  | target error => error.message
  | undecodable => "the file is not a text"
  | reader _ message => message

namespace Config

/-- What a configuration is read from: the entries of its root, and those of its sections. -/
structure Source where
  entry : String → Option Value
  entryOf : String → Except ConfigFailure (String → Option Value)

def sectionEntries (root : List (Value × Value)) (name : String) :
    Except ConfigFailure (List (Value × Value)) :=
  match Value.get? root name with
  | none => .ok []
  | some value =>
    if value.truthy then
      match value with
      | .mapping entries => .ok entries
      | _ => .error .sectionShape
    else .ok []

def Source.ofEntries (root : List (Value × Value)) : Source :=
  ⟨Value.get? root, fun name => (sectionEntries root name).map Value.get?⟩

def readInteger (value : Value) : Except ConfigFailure Int :=
  match value with
  | .int n => .ok n
  | .text s =>
    match Numeral.parse? s with
    | some n => .ok n
    | none => .error (.config (.invalidInteger value))
  | _ => .error (.config (.invalidInteger value))

def intOr (entry : String → Option Value) (key : String) (fallback : Int) :
    Except ConfigFailure Int :=
  match entry key with
  | some value => readInteger value
  | none => .ok fallback

def flagOr (entry : String → Option Value) (key : String) (fallback : Bool) : Bool :=
  match entry key with
  | some value => value.truthy
  | none => fallback

/-- Reads a configuration; sections are looked at in a fixed order. -/
def ofSource (source : Source) : Except ConfigFailure Config := do
  let defaults : Config := {}
  let machine ← source.entryOf "machine"
  let memorySize ← intOr machine "memory_size" defaults.memorySize
  let initialPc ← intOr machine "initial_pc" defaults.initialPc
  let trace ← source.entryOf "trace"
  let logging ← source.entryOf "logging"
  let image ← source.entryOf "image"
  return {
    architecture := (source.entry "architecture").getD defaults.architecture
    memorySize
    initialPc
    traceEnabled := flagOr trace "enabled" defaults.traceEnabled
    tracePause := flagOr trace "pause" defaults.tracePause
    level := Text.upper ((logging "level").getD (.text defaults.level)).shown
    load := (image "load").getD .null
    save := (image "save").getD .null }

def ofValue (value : Value) : Except ConfigFailure Config :=
  match value with
  | .mapping root => ofSource (.ofEntries root)
  | _ => .error (.config .rootNotMapping)

end Config

end ByteMachine
