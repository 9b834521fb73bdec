/-!
Hexadecimal text.  Numbers are written without a base mark, padded with zeros on the left; a sign
counts as part of the width.
-/

namespace ByteMachine.Hex

def padZeros (width : Nat) (text : String) : String :=
  String.ofList (List.replicate (width - text.length) '0') ++ text

def lower (n : Nat) : String := String.ofList (Nat.toDigits 16 n)

def upper (n : Nat) : String := String.ofList ((Nat.toDigits 16 n).map Char.toUpper)

def signed (digits : Nat → String) (width : Nat) (n : Int) : String :=
  if n < 0 then "-" ++ padZeros (width - 1) (digits n.natAbs)
  else padZeros width (digits n.natAbs)

/-- An address as error messages show it: `0x` and at least two digits, four characters in all. -/
def address (n : Int) : String :=
  if n < 0 then "-0x" ++ padZeros 1 (lower n.natAbs) else "0x" ++ padZeros 2 (lower n.natAbs)

def byte (b : UInt8) : String := padZeros 2 (lower b.toNat)

def upperByte (b : UInt8) : String := padZeros 2 (upper b.toNat)

def bytes (bs : List UInt8) : String := String.join (bs.map byte)

end ByteMachine.Hex
