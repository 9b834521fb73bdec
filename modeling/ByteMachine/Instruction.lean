import ByteMachine.Fault

/-!
The instruction set: eleven instructions of one to three bytes.  Every other opcode stands for an
instruction that only halts the machine.
-/

namespace ByteMachine

inductive Instruction where
  | suspend
  | move (source target : Operand)
  | add (source target : Operand)
  | sub (source target : Operand)
  | jumpUnless (mask : UInt8) (target : Operand)
  | jump (target : Operand)
  | storePc (target : Operand)
  | input (channel : UInt8) (target : Operand)
  | output (channel : UInt8) (source : Operand)
  | loadAt (pointer target : Operand)
  | storeAt (source pointer : Operand)
  | halt
  deriving DecidableEq, Repr

/-- What an instruction carries behind its opcode: tagged operands and untagged bytes. -/
inductive Argument where
  | operand (operand : Operand)
  | raw (byte : UInt8)
  deriving DecidableEq, Repr

namespace Argument

def text : Argument → String
  | operand o => o.text
  | raw byte => "$" ++ Hex.upperByte byte

def encode : Argument → Except Operand.NotRepresentable UInt8
  | operand o => o.encode
  | raw byte => .ok byte

end Argument

namespace Instruction

def operandCount (opcode : Int) : Nat :=
  if opcode = 5 ∨ opcode = 6 then 1
  else if 1 ≤ opcode ∧ opcode ≤ 10 then 2
  else 0

def ofBytes (opcode : Int) (bytes : List UInt8) : Instruction :=
  match opcode, bytes with
  | 0, [] => suspend
  | 1, [a, b] => move (.ofByte a) (.ofByte b)
  | 2, [a, b] => add (.ofByte a) (.ofByte b)
  | 3, [a, b] => sub (.ofByte a) (.ofByte b)
  | 4, [a, b] => jumpUnless a (.ofByte b)
  | 5, [a] => jump (.ofByte a)
  | 6, [a] => storePc (.ofByte a)
  | 7, [a, b] => input a (.ofByte b)
  | 8, [a, b] => output a (.ofByte b)
  | 9, [a, b] => loadAt (.ofByte a) (.ofByte b)
  | 10, [a, b] => storeAt (.ofByte a) (.ofByte b)
  | _, _ => halt

def opcode? : Instruction → Option UInt8
  | suspend => some 0
  | move .. => some 1
  | add .. => some 2
  | sub .. => some 3
  | jumpUnless .. => some 4
  | jump _ => some 5
  | storePc _ => some 6
  | input .. => some 7
  | output .. => some 8
  | loadAt .. => some 9
  | storeAt .. => some 10
  | halt => none

def mnemonic : Instruction → String
  | suspend => "SUS"
  | move .. => "MOV"
  | add .. => "ADD"
  | sub .. => "SUB"
  | jumpUnless .. => "JIF"
  | jump _ => "JMR"
  | storePc _ => "MPC"
  | input .. => "IN"
  | output .. => "OUT"
  | loadAt .. => "AT"
  | storeAt .. => "ATP"
  | halt => "HALT"

def arguments : Instruction → List Argument
  | suspend | halt => []
  | move a b | add a b | sub a b | loadAt a b | storeAt a b => [.operand a, .operand b]
  | jumpUnless byte a | input byte a | output byte a => [.raw byte, .operand a]
  | jump a | storePc a => [.operand a]

def assemble (instruction : Instruction) : Except Operand.NotRepresentable (List UInt8) := do
  let arguments ← instruction.arguments.mapM Argument.encode
  return instruction.opcode?.toList ++ arguments

def text (instruction : Instruction) : String :=
  match instruction.arguments with
  | [] => instruction.mnemonic
  | arguments => instruction.mnemonic ++ " " ++ ", ".intercalate (arguments.map Argument.text)

end Instruction

structure Operation where
  opcode : Int
  bytes : List UInt8
  instruction : Instruction
  deriving DecidableEq, Repr

namespace Operation

def opcodeHex (operation : Operation) : String := Hex.signed Hex.upper 2 operation.opcode

def length (operation : Operation) : Nat := operation.bytes.length + 1

def hexText (operation : Operation) : String :=
  " ".intercalate (operation.opcodeHex :: operation.bytes.map Hex.upperByte)

end Operation

end ByteMachine
