import ByteMachine.Image.Basic
import ByteMachine.Instruction

/-!
The built-in image.  Its program reads a kernel from the numeric channel into memory, notes where
to start again, reads two operands and jumps into the kernel.  A kernel returns by jumping to the
suspend instruction; a machine that is resumed there starts again with two new operands.

Registers: 1 the start of the kernel; 2 its length, later the first operand; 3 the address of the
variables, later the way out; 4 the head of the loading loop; 5 the byte read; 6 the second operand;
7 the place to write to, later the address behind the restart cell.
-/

namespace ByteMachine.Bootstrap

/-- The largest memory whose cells operands can reach. -/
def largestMemory : Nat := 128

def variableCount : Nat := 4

/-- Bytes in front of the variables that belong to the restart cell. -/
def restartSize : Nat := 3

/-- Where the suspend instruction lies that kernels return to. -/
def exitAddress : Nat := 48

def numericChannel : UInt8 := 1

def zeroMask : UInt8 := 1

def variablesAddress (memorySize : Int) : Int := memorySize - variableCount

def restartAddress (memorySize : Int) : Int := variablesAddress memorySize - restartSize - 1

def register (index : Nat) : Operand := .reference index

def instructions (memorySize : Int) : List Instruction :=
  let scratch := variablesAddress memorySize
  let restart := restartAddress memorySize
  let one := Operand.literal 1
  [ .input numericChannel (register 1),
    .input numericChannel (register 2),
    .move (.literal scratch) (register 3),
    .storeAt (register 1) (register 3),
    .move (register 1) (register 7),
    .storePc (register 4),
    .input numericChannel (register 5),
    .storeAt (register 5) (register 7),
    .add one (register 7),
    .sub one (register 2),
    .jumpUnless zeroMask (register 4),
    .storePc (.reference restart),
    .move (.literal (restart + 1)) (register 7),
    .input numericChannel (register 2),
    .input numericChannel (register 6),
    .move (.literal exitAddress) (register 3),
    .jump (.reference scratch),
    .suspend,
    .jump (.reference restart) ]

def program (memorySize : Int) : Except Operand.NotRepresentable (List UInt8) := do
  return ((← (instructions memorySize).mapM Instruction.assemble).flatten)

inductive BuildError where
  | memorySize (size : Int)
  | pcOutside (pc size : Int)
  | tooSmall (size : Int)
  deriving DecidableEq, Repr

def BuildError.message : BuildError → String
  | memorySize size => s!"memory size {size} must be in 1..{largestMemory}"
  | pcOutside pc size => s!"pc {pc} is outside memory of size {size}"
  | tooSmall size => s!"memory size {size} is too small for the bootstrap program"

/-- The program at the start of an empty memory.  It must end in front of the restart cell. -/
def image (memorySize pc : Int) : Except BuildError Image :=
  if ¬(0 < memorySize ∧ memorySize ≤ largestMemory) then .error (.memorySize memorySize)
  else if ¬(0 ≤ pc ∧ pc < memorySize) then .error (.pcOutside pc memorySize)
  else
    match program memorySize with
    | .error _ => .error (.tooSmall memorySize)
    | .ok bytes =>
      if restartAddress memorySize < bytes.length then .error (.tooSmall memorySize)
      else .ok ⟨pc, bytes ++ List.replicate (memorySize.toNat - bytes.length) 0⟩

end ByteMachine.Bootstrap
