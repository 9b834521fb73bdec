import ByteMachine.Machine.Execute

/-!
One instruction cycle: fetch, decode, move the program counter past the operands, execute.  A fault
ends the cycle where it happens and stops the machine; it is recorded in the snapshot of the step.
-/

namespace ByteMachine

/-- A fault and the program counter at which its instruction was fetched. -/
structure FaultReport where
  fault : Fault
  pc : Int
  deriving DecidableEq, Repr

/-- The machine at one moment.  The activity is what the bus has logged up to then. -/
structure Snapshot where
  cpu : Cpu
  operation : Option Operation
  stepCount : Nat
  status : Status
  activity : List Access
  memory : List UInt8
  fault : Option FaultReport
  deriving DecidableEq, Repr

def Snapshot.stopped (snapshot : Snapshot) : Bool := snapshot.status ≠ .running

def Snapshot.mnemonic (snapshot : Snapshot) : String :=
  match snapshot.operation with
  | some operation => operation.instruction.mnemonic
  | none => "----"

namespace Machine

def snapshot (operation : Option Operation) (fault : Option FaultReport) : MachineM Snapshot := do
  let activity ← onBus Bus.takeLog
  let memory ← onBus Bus.contents
  let machine ← get
  return ⟨machine.cpu, operation, machine.stepCount, machine.status, activity, memory, fault⟩

def capture : MachineM Snapshot := snapshot none none

/-- Reads the opcode.  The program counter moves on only if it was inside memory. -/
def fetch : MachineM UInt8 := do
  let machine ← get
  let pc := machine.cpu.pc
  let size := machine.bus.memorySize
  if 0 ≤ pc ∧ pc < size then
    let opcode ← onBus (Bus.read pc)
    setPc (pc + 1)
    return opcode
  else throw (.fault (.pcOutside pc size))

def fetchOperation : MachineM Operation := do
  let opcode ← fetch
  onBus (Bus.decode opcode.toNat (← readPc))

def settle (operation : Operation) : MachineM Unit :=
  match operation.instruction with
  | .halt => do
    report (.unknownOpcode operation.opcodeHex)
    setStatus .halted
  | .suspend => setStatus .halted
  | _ => return ()

def executeOperation (operation : Operation) : MachineM Unit := do
  setPc ((← readPc) + operation.bytes.length)
  execute operation.instruction
  settle operation

/-- Runs an action and hands back a fault instead of failing with it. -/
def catchFault {α : Type} (action : MachineM α) : MachineM (Except Fault α) := fun machine =>
  match action machine with
  | .ok value machine => .ok (.ok value) machine
  | .error (.fault fault) machine => .ok (.error fault) machine
  | .error failure machine => .error failure machine

def cycle : MachineM (Option Operation × Option Fault) := do
  match ← catchFault fetchOperation with
  | .error fault => return (none, some fault)
  | .ok operation =>
    match ← catchFault (executeOperation operation) with
    | .error fault => return (some operation, some fault)
    | .ok () => return (some operation, none)

def countStep : MachineM Unit := modify fun machine =>
  { machine with stepCount := machine.stepCount + 1 }

/-- A machine that has stopped only shows itself. -/
def step : MachineM Snapshot := do
  let _ ← onBus Bus.takeLog
  if (← get).status = .running then
    let pc ← readPc
    let (operation, fault) ← cycle
    match fault with
    | some fault =>
      setStatus .faulted
      report (.faulted pc fault)
      countStep
      snapshot operation (some ⟨fault, pc⟩)
    | none =>
      countStep
      snapshot operation none
  else capture

end Machine

end ByteMachine
