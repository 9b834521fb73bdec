/-!
Operand bytes.  The lowest bit is a tag: set for a literal, clear for a reference to a register or
a memory cell.  The other seven bits hold the value or the index.
-/

namespace ByteMachine

def registerCount : Nat := 8

def largestOperand : Nat := 127

inductive Operand where
  | literal (value : Int)
  | reference (index : Int)
  deriving DecidableEq, Repr

namespace Operand

/-- Splits a number into tag and value; division rounds down. -/
def decode (byte : Int) : Operand :=
  if byte % 2 = 1 then .literal (byte / 2) else .reference (byte / 2)

def ofByte (byte : UInt8) : Operand := decode byte.toNat

def text : Operand → String
  | .literal value => "#" ++ toString value
  | .reference index =>
    if index < registerCount then "R" ++ toString index else "[" ++ toString index ++ "]"

structure NotRepresentable where
  operand : Operand
  deriving DecidableEq, Repr

def NotRepresentable.message (e : NotRepresentable) : String :=
  match e.operand with
  | .literal value => s!"Literal {value} is not representable (0..{largestOperand})."
  | .reference index => s!"Reference index {index} is not representable (0..{largestOperand})."

def encode (operand : Operand) : Except NotRepresentable UInt8 :=
  match operand with
  | .literal value =>
    if 0 ≤ value ∧ value ≤ largestOperand then .ok (UInt8.ofInt (value * 2 + 1))
    else .error ⟨operand⟩
  | .reference index =>
    if 0 ≤ index ∧ index ≤ largestOperand then .ok (UInt8.ofInt (index * 2))
    else .error ⟨operand⟩

end Operand

end ByteMachine
