import ByteMachine.Config.File
import ByteMachine.Machine.Observer
import ByteMachine.Options
import ByteMachine.System

/-!
The whole program.  It prepares a configuration and an image, runs the machine until it stops, and
saves the image of a machine that has halted.  Nothing runs before all preparation has succeeded,
and a machine that faults is not saved.  The reader of documents and the layout of dumps are given.
-/

namespace ByteMachine.Program

inductive ExitStatus where
  | success
  | loadFailure
  | fault
  deriving DecidableEq, Repr

def ExitStatus.code : ExitStatus → Nat
  | success => 0
  | loadFailure => 1
  | fault => 2

structure Tools where
  reader : DocumentReader
  layout : Trace.Layout

/-- A failure that the program has no answer to. -/
inductive Escape where
  | config (failure : ConfigFailure)
  | system (error : SystemError)
  | save (error : Image.SaveError)
  | machine (failure : Failure)
  /-- The machine has faulted, but its last snapshot shows no fault. -/
  | faultNotShown
  deriving Repr

def Escape.message : Escape → String
  | config failure => failure.message
  | system error => error.message
  | save error => error.message
  | machine failure => failure.message
  | faultNotShown => "'NoneType' object has no attribute 'pc'"

inductive Ending where
  | exit (status : ExitStatus)
  | escaped (failure : Escape)
  | unfinished
  deriving Repr

/-- What is left when the program ends.  Notices below the threshold are not shown. -/
structure Outcome where
  ending : Ending
  console : Console
  files : FileTree
  threshold : Nat := Level.warning.weight
  deriving Repr

def threshold? (name : String) : Option Nat :=
  [("CRITICAL", 50), ("FATAL", 50), ("ERROR", 40), ("WARNING", 30), ("WARN", 30), ("INFO", 20),
    ("DEBUG", 10), ("NOTSET", 0)].lookup name

namespace Outcome

def output (outcome : Outcome) : List UInt8 :=
  outcome.console.output.toList.flatMap fun
    | .program bytes => bytes
    | .trace text => Console.asciiBytes text

def report (outcome : Outcome) : String :=
  let shown := outcome.console.journal.toList.filter fun notice =>
    outcome.threshold ≤ notice.level.weight
  String.join (shown.map fun notice => notice.line ++ "\n")

end Outcome

/-- The configuration that options ask for, and the threshold that goes with it. -/
def configure (reader : DocumentReader) (files : FileTree) (options : Options) :
    Except ConfigFailure (Config × Nat) := do
  let config ←
    match options.config.value? with
    | some path => Config.ofFile reader files path
    | none => .ok {}
  let config := options.adjust config
  match threshold? config.level with
  | some threshold => return (config, threshold)
  | none => .error (.config (.unknownLevel config.level))

def failed (outcome : Outcome) (problem : String) : Outcome :=
  { outcome with
    ending := .exit .loadFailure
    console := outcome.console.report (.problem problem) }

/-- Saves the image of a halted machine if the configuration says where.  A file that cannot be
created is reported and changes nothing else. -/
def saveHalted (config : Config) (outcome : Outcome) (machine : Machine) : Outcome :=
  let outcome := { outcome with console := machine.console }
  if config.save.truthy then
    match Machine.takeImage machine with
    | .error failure machine =>
      { outcome with ending := .escaped (.machine failure), console := machine.console }
    | .ok image machine =>
      let (notices, saved) := Image.save outcome.files config.save image
      let console := notices.foldl Console.report machine.console
      match saved with
      | .ok files => { outcome with ending := .exit .success, console, files }
      | .error (.file path error) =>
        let problem := (Image.SaveError.file path error).message
        { outcome with ending := .exit .success, console := console.report (.problem problem) }
      | .error error => { outcome with ending := .escaped (.save error), console }
  else { outcome with ending := .exit .success }

def observedRun (layout : Trace.Layout) (config : Config) (budget : Nat) :
    ObservedM (RunSummary Observer) := do
  if config.traceEnabled then
    Session.subscribe (.tracer config.tracePause)
    Session.onMachine (Trace.printCurrent layout config.tracePause)
  Session.run (Observer.notify layout) budget

def runMachine (layout : Trace.Layout) (config : Config) (budget : Nat) (outcome : Outcome)
    (machine : Machine) : Outcome :=
  match observedRun layout config budget { machine, context := [] } with
  | .error failure session =>
    { outcome with ending := .escaped (.machine failure), console := session.machine.console }
  | .ok result session =>
    let console := session.machine.console
    match result.status with
    | .running => { outcome with ending := .unfinished, console }
    | .halted => saveHalted config outcome session.machine
    | .faulted =>
      match result.fault with
      | none => { outcome with ending := .escaped .faultNotShown, console }
      | some report =>
        let notice := Notice.malformedProgram report.pc report.fault
        { outcome with ending := .exit .fault, console := console.report notice }

def runConfigured (layout : Trace.Layout) (config : Config) (budget : Nat) (outcome : Outcome) :
    Outcome :=
  let (notices, image) := config.initialImage outcome.files
  let outcome := { outcome with console := notices.foldl Console.report outcome.console }
  match image with
  | .error (.image (.target error)) =>
    { outcome with ending := .escaped (.system (.image (.target error))) }
  | .error error => failed outcome error.message
  | .ok image =>
    match config.assemble image outcome.console with
    | .error error => { outcome with ending := .escaped (.system error) }
    | .ok machine => runMachine layout config budget outcome machine

def run (tools : Tools) (options : Options) (files : FileTree) (console : Console)
    (budget : Nat) : Outcome :=
  let outcome : Outcome := { ending := .unfinished, console, files }
  match configure tools.reader files options with
  | .error (.config error) => failed outcome error.message
  | .error failure => { outcome with ending := .escaped (.config failure) }
  | .ok (config, threshold) =>
    runConfigured tools.layout config budget { outcome with threshold }

/-- More steps than anyone waits for. -/
def patience : Nat := 1000000000000

end ByteMachine.Program
