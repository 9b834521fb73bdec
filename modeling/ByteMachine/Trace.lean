import ByteMachine.Machine.Run

/-!
The tracer shows a snapshot as a table of registers, a grid of memory and a status line.  The
mnemonic of the next instruction is looked up in the machine's memory; all else is taken from the
snapshot.  How tables and texts are laid out on a terminal is left to a layout.
-/

namespace ByteMachine

structure RegisterColumn where
  name : String
  width : Nat
  deriving DecidableEq, Repr

structure RegisterGroup where
  name : String
  registers : List RegisterColumn
  deriving DecidableEq, Repr

def registerLayout : List RegisterGroup :=
  [⟨"Control", [⟨"PC", 8⟩, ⟨"FR", 8⟩]⟩,
    ⟨"General", (List.range registerCount).map fun i => ⟨s!"R{i}", 8⟩⟩]

namespace Cpu

def registerValues (cpu : Cpu) : List (String × Int) :=
  ("PC", cpu.pc) :: ("FR", cpu.flags) ::
    cpu.registers.toList.mapIdx fun i value => (s!"R{i}", value)

def flagValues (cpu : Cpu) : List (String × Bool) :=
  [("Z", Flags.zero cpu.flags), ("C", Flags.carry cpu.flags)]

end Cpu

namespace Trace

/-- What a terminal gets to see of the columns of a table, each a header over one value, and of a
text. -/
structure Layout where
  table : List (String × String) → String
  paragraph : String → String

def cell (width : Nat) (value : Int) : String :=
  Hex.padZeros ((width + 3) / 4) (Hex.lower (value % Nat.pow 2 width).toNat)

def groupCells (values : List (String × Int)) (group : RegisterGroup) : List (String × String) :=
  group.registers.map fun column =>
    (column.name, cell column.width ((values.lookup column.name).getD 0))

def flagText (cpu : Cpu) : String :=
  String.join (cpu.flagValues.map fun (name, on) => if on then name else "-")

def registers (cpu : Cpu) (instruction : String) : List (String × String) :=
  let groups := registerLayout.map (groupCells cpu.registerValues)
  (groups.take 1).flatten ++ [("INST", instruction)] ++ (groups.drop 1).flatten ++
    [("FLAGS", flagText cpu)]

def title : String := "------------------------- MEM ------------------------\n"

def columns : Nat := 16

def memoryCell (pc : Int) (address : Nat) (byte : UInt8) : String :=
  (if address % columns = 8 then " " else "") ++ Hex.byte byte ++
    (if (address : Int) = pc then "<" else " ")

def memoryRow (pc : Int) (address : Nat) (bytes : List UInt8) : String :=
  Hex.padZeros 4 (Hex.lower address) ++ "  " ++
    String.join (bytes.mapIdx fun i byte => memoryCell pc (address + i) byte) ++ "\n"

def memoryRows (pc : Int) (address : Nat) : Nat → List UInt8 → String
  | 0, _ | _, [] => ""
  | count + 1, bytes =>
    memoryRow pc address (bytes.take columns) ++
      memoryRows pc (address + columns) count (bytes.drop columns)

def memory (pc : Int) (bytes : List UInt8) : String :=
  title ++ memoryRows pc 0 bytes.length bytes

def statusText (snapshot : Snapshot) : Option String :=
  match snapshot.fault with
  | some report => some s!"FAULT at {Hex.signed Hex.lower 2 report.pc}: {report.fault.message}"
  | none =>
    if snapshot.stopped then some s!"{snapshot.status.name} after {snapshot.stepCount} steps"
    else none

def render (layout : Layout) (snapshot : Snapshot) (instruction : String) : String :=
  layout.table (registers snapshot.cpu instruction) ++
    layout.paragraph (memory snapshot.cpu.pc snapshot.memory) ++
    ((statusText snapshot).map layout.paragraph).getD ""

/-- The mnemonic at an address as a listing shows it, or dashes where there is none. -/
def mnemonicAt (pc : Int) : MachineM String := do
  match ← Machine.onBus (Bus.disassemble pc 1) with
  | [] => return "----"
  | line :: _ => return String.ofList (line.text.toList.takeWhile (· ≠ ' '))

def prompt : String := "Press enter to continue..."

/-- Prints a snapshot and, if asked to pause at an interactive console, waits for a line. -/
def print (layout : Layout) (pause : Bool) (snapshot : Snapshot) : MachineM Unit := do
  let instruction ← mnemonicAt snapshot.cpu.pc
  Machine.modifyConsole (·.trace (render layout snapshot instruction))
  if pause && (← get).console.interactive then
    Machine.modifyConsole fun console => (console.trace (layout.paragraph prompt)).readLine.2

def printCurrent (layout : Layout) (pause : Bool) : MachineM Unit := do
  print layout pause (← Machine.capture)

end Trace

end ByteMachine
