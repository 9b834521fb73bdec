/-!
Floating point numbers of 64 bits, by their bit patterns.  A quotient of natural numbers is rounded
to the nearest of them, and to the one with an even significand if two are equally near.
-/

namespace ByteMachine

structure Double where
  bits : UInt64
  deriving DecidableEq, Repr

namespace Double

/-- What a bit pattern means: for a finite number `significand · 2 ^ exponent`. -/
inductive Meaning where
  | finite (significand : Nat) (exponent : Int)
  | infinite
  | undefined
  deriving DecidableEq, Repr

def negative (x : Double) : Bool := Nat.pow 2 63 ≤ x.bits.toNat

def magnitudeBits (x : Double) : Nat := x.bits.toNat % Nat.pow 2 63

def meaning (x : Double) : Meaning :=
  let fraction : Nat := x.magnitudeBits % Nat.pow 2 52
  let biased : Nat := x.magnitudeBits / Nat.pow 2 52
  if biased = 2047 then (if fraction = 0 then .infinite else .undefined)
  else if biased = 0 then .finite fraction (-1074)
  else .finite (fraction + Nat.pow 2 52) ((biased : Int) - 1075)

def isZero (x : Double) : Bool := x.magnitudeBits = 0

def ofMagnitude (negative : Bool) (magnitude : Nat) : Double :=
  ⟨UInt64.ofNat (magnitude + if negative then Nat.pow 2 63 else 0)⟩

def infinity (negative : Bool) : Double := ofMagnitude negative (2047 * Nat.pow 2 52)

def undefined (number : Nat) : Double :=
  ofMagnitude false (2047 * Nat.pow 2 52 + Nat.pow 2 51 + number % Nat.pow 2 51)

def notANumber : Double := undefined 0

def negate (x : Double) : Double := ofMagnitude (!x.negative) x.magnitudeBits

/-- The quotient rounded to the nearest integer, a half to the even neighbour. -/
def roundDiv (numerator denominator : Nat) : Nat :=
  let quotient := numerator / denominator
  let twice := 2 * (numerator % denominator)
  if twice < denominator ∨ (twice = denominator ∧ quotient % 2 = 0) then quotient else quotient + 1

def roundScaled (numerator denominator : Nat) (exponent : Int) : Nat :=
  if exponent < 0 then roundDiv (numerator * Nat.pow 2 exponent.natAbs) denominator
  else roundDiv numerator (denominator * Nat.pow 2 exponent.toNat)

def quotientBelow (numerator denominator : Nat) (exponent : Int) : Bool :=
  if exponent < 0 then numerator * Nat.pow 2 exponent.natAbs < denominator
  else numerator < denominator * Nat.pow 2 exponent.toNat

def ofRatio (negative : Bool) (numerator denominator : Nat) : Double :=
  if numerator = 0 then ofMagnitude negative 0
  else
    let guess : Int := (numerator.log2 : Int) - denominator.log2
    let leading := if quotientBelow numerator denominator guess then guess - 1 else guess
    let exponent := max (leading - 52) (-1074)
    let steps := (exponent + 1074).toNat * Nat.pow 2 52
    let magnitude := steps + roundScaled numerator denominator exponent
    if 2047 * Nat.pow 2 52 ≤ magnitude then infinity negative else ofMagnitude negative magnitude

def ofDecimal (negative : Bool) (digits : Nat) (exponent : Int) : Double :=
  let order : Int := exponent + (Nat.toDigits 10 digits).length
  if digits = 0 ∨ order < -400 then ofMagnitude negative 0
  else if 400 < order then infinity negative
  else if exponent < 0 then ofRatio negative digits (Nat.pow 10 exponent.natAbs)
  else ofRatio negative (digits * Nat.pow 10 exponent.toNat) 1

end Double

end ByteMachine
