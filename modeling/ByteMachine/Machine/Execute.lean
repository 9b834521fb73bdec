import ByteMachine.Machine.State

/-!
Operands and instructions.  Indices below eight are registers, all others memory; both are cells of
one address space, and a stored value is cut down to a byte.
-/

namespace ByteMachine.Machine

def referenceIndex (operand : Operand) : MachineM Int :=
  match operand with
  | .literal _ => throw (.fault (.literalTarget operand))
  | .reference index => return index

def readCell (index : Int) : MachineM Int :=
  if index < registerCount then readRegister index
  else onBus do
    Bus.requireInside index
    return (← Bus.read index).toNat

def writeCell (index value : Int) : MachineM Unit :=
  if index < registerCount then writeRegister index (value % 256)
  else onBus do
    Bus.requireInside index
    Bus.write index (value % 256)

def evaluate (operand : Operand) : MachineM Int :=
  match operand with
  | .literal value => return value
  | .reference index => readCell index

def readReference (operand : Operand) : MachineM Int := do readCell (← referenceIndex operand)

def store (operand : Operand) (value : Int) : MachineM Unit := do
  writeCell (← referenceIndex operand) value

/-- The reference that a pointer holds.  It has to fit beside the tag of an operand. -/
def resolve (pointer : Operand) : MachineM Operand := do
  let index ← readReference pointer
  if largestOperand < index then throw (.fault (.indirectOutside index))
  return .reference index

def readPc : MachineM Int := return (← get).cpu.pc

def readFlags : MachineM Int := return (← get).cpu.flags

/-- Adds to or subtracts from the target.  The target is read before the source. -/
def executeArithmetic (operation : Int → Int → Arithmetic.Outcome) (source target : Operand) :
    MachineM Unit := do
  let old ← readReference target
  let outcome := operation old (← evaluate source)
  setFlags outcome.flags
  store target outcome.value

def execute (instruction : Instruction) : MachineM Unit :=
  match instruction with
  | .suspend | .halt => return ()
  | .move source target => do store target (← evaluate source)
  | .add source target => executeArithmetic Arithmetic.add source target
  | .sub source target => executeArithmetic Arithmetic.sub source target
  | .jumpUnless mask target => do
    let index ← referenceIndex target
    if Flags.masked (← readFlags) mask = 0 then setPc (← readCell index)
  | .jump target => do setPc (← readReference target)
  | .storePc target => do store target (← readPc)
  | .input channel target => do
    let index ← referenceIndex target
    writeCell index (← onBus (Bus.receive channel.toNat))
  | .output channel source => do
    let data ← readReference source
    onBus (Bus.send channel.toNat data)
  | .loadAt pointer target => do
    let index ← referenceIndex target
    writeCell index (← evaluate (← resolve pointer))
  | .storeAt source pointer => do
    let target ← resolve pointer
    store target (← evaluate source)

end ByteMachine.Machine
