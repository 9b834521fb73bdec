import ByteMachine.Bus.Basic
import ByteMachine.Instruction

/-!
Decoding from the bus.  The bytes behind an opcode are read one by one, each of them only after
its address has been found to lie inside memory.
-/

namespace ByteMachine

namespace Bus

variable {h : Hardware}

def requireInside (index : Int) : BusM h Unit := fun bus =>
  if 0 ≤ index ∧ index < bus.memorySize then .ok () bus
  else .error (.fault (.indexOutside index bus.memorySize)) bus

def readOperandBytes (address : Int) : Nat → BusM h (List UInt8)
  | 0 => return []
  | count + 1 => do
    requireInside address
    let byte ← read address
    let rest ← readOperandBytes (address + 1) count
    return byte :: rest

def decode (opcode address : Int) : BusM h Operation := do
  let bytes ← readOperandBytes address (Instruction.operandCount opcode)
  return ⟨opcode, bytes, Instruction.ofBytes opcode bytes⟩

/-- A decoder's view of the bytes at an address: the opcode is only looked at. -/
def operationAt (address : Int) : BusM h Operation := do
  let opcode ← peek address
  decode opcode.toNat (address + 1)

end Bus

structure Line where
  address : Int
  hexText : String
  text : String
  deriving DecidableEq, Repr

namespace Bus

variable {h : Hardware}

/-- The line at an address and the number of bytes that it covers.  Where an instruction reaches
beyond memory, its first byte is listed alone. -/
def listOne (address : Int) : BusM h (Line × Nat) := fun bus =>
  match operationAt address bus with
  | .ok operation bus =>
    .ok (⟨address, operation.hexText, operation.instruction.text⟩, operation.length) bus
  | .error failure bus =>
    if failure.isMisaddressed then
      match peek address bus with
      | .ok byte bus => .ok (⟨address, Hex.upperByte byte, "ERR"⟩, 1) bus
      | .error failure bus => .error failure bus
    else .error failure bus

def listUpTo (last : Int) : Nat → Int → BusM h (List Line)
  | 0, _ => return []
  | count + 1, address =>
    if address < last then do
      let (line, length) ← listOne address
      let rest ← listUpTo last count (address + length)
      return line :: rest
    else return []

def disassemble (start length : Int) : BusM h (List Line) := do
  let last := min (start + length) (← get).memorySize
  let lines ← listUpTo last (last - start).toNat start
  let _ ← takeLog
  return lines

end Bus

end ByteMachine
