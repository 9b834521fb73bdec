import ByteMachine.Config.Basic
import ByteMachine.Machine.Step

/-!
Systems: a machine built as a configuration asks for, with an image installed in it.
-/

namespace ByteMachine

namespace Machine

def equip (memorySize : Int) : MachineM Unit := onBus do
  let memory ← MonadExcept.ofExcept (Ram.create (some memorySize))
  let device ← Bus.addDevice (.ram memory)
  Bus.register 0 (memorySize - 1) device
  Bus.connect 0 (some .character)
  Bus.connect 1 (some .numeric)

/-- Installs an image that fits; registers and flags start at zero. -/
def install (image : Image) : MachineM Unit := do
  let size := (← get).bus.memorySize
  if image.size ≠ size then throw (.imageSize image.size size)
  onBus (Bus.loadRange 0 image.memory)
  reset
  setPc image.pc
  report (.resuming image.pc)

def takeImage : MachineM Image := do
  let memory ← onBus Bus.contents
  return ⟨← readPc, memory⟩

end Machine

inductive SystemError where
  | config (error : ConfigProblem)
  | image (error : Image.LoadError)
  | machine (failure : Failure)
  deriving Repr

def SystemError.message : SystemError → String
  | config error => error.message
  | image error => error.message
  | machine failure => failure.message

namespace Config

def check (config : Config) : Except ConfigProblem Unit :=
  if ¬config.architecture.sameKey (.text "EVM") then
    .error (.unsupportedArchitecture config.architecture)
  else if 0 < config.memorySize ∧ config.memorySize ≤ Bootstrap.largestMemory then .ok ()
  else .error (.memorySize config.memorySize)

/-- The image to start with: the configured one, or the built-in one. -/
def initialImage (files : FileTree) (config : Config) :
    List Notice × Except SystemError Image :=
  match config.check with
  | .error e => ([], .error (.config e))
  | .ok () =>
    if config.load.truthy then
      let (notices, image) := Image.load files config.load config.memorySize
      (notices, image.mapError .image)
    else
      ([], (Bootstrap.image config.memorySize config.initialPc).mapError fun e =>
        .config (.bootstrap e))

def assemble (config : Config) (image : Image) (console : Console) :
    Except SystemError Machine :=
  let build : MachineM Unit := do
    Machine.equip config.memorySize
    Machine.install image
  match build { bus := { shared := console } } with
  | .ok () machine => .ok machine
  | .error e _ => .error (.machine e)

/-- Builds a system.  Without an image the initial one is taken. -/
def build (files : FileTree) (config : Config) (image : Option Image)
    (console : Console) : Console × Except SystemError Machine :=
  match config.check with
  | .error e => (console, .error (.config e))
  | .ok () =>
    let (notices, image) : List Notice × Except SystemError Image :=
      match image with
      | some image => ([], .ok image)
      | none => config.initialImage files
    let console := notices.foldl Console.report console
    match image with
    | .error e => (console, .error e)
    | .ok image =>
      match config.assemble image console with
      | .ok machine => (machine.console, .ok machine)
      | .error e => (console, .error e)

end Config

end ByteMachine
