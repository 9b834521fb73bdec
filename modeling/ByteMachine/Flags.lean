/-!
The flag register and eight-bit arithmetic.  Bit 0 of the register is the zero flag and bit 1 the
carry flag; the other bits are kept but mean nothing.
-/

namespace ByteMachine

namespace Flags

def zero (flags : Int) : Bool := flags % 2 == 1

def carry (flags : Int) : Bool := flags / 2 % 2 == 1

def setZero (flags : Int) (on : Bool) : Int :=
  flags - flags % 2 + (if on then 1 else 0)

def setCarry (flags : Int) (on : Bool) : Int :=
  flags - flags / 2 % 2 * 2 + (if on then 2 else 0)

def ofBits (zero carry : Bool) : Int := setCarry (setZero 0 zero) carry

def masked (flags : Int) (mask : UInt8) : Nat := (flags % 256).toNat &&& mask.toNat

end Flags

namespace Arithmetic

/-- A byte and the flag register that arithmetic leaves behind.  No earlier flag survives. -/
structure Outcome where
  value : Int
  flags : Int
  deriving DecidableEq, Repr

/-- The carry flag reports that the sum wrapped. -/
def add (old delta : Int) : Outcome :=
  let new := (old + delta) % 256
  ⟨new, Flags.ofBits (new = 0) (new < old)⟩

/-- The carry flag reports a borrow. -/
def sub (old delta : Int) : Outcome :=
  let new := (old - delta) % 256
  ⟨new, Flags.ofBits (new = 0) (old < new)⟩

end Arithmetic

end ByteMachine
