import ByteMachine.Decimal.Double

/-!
The shortest decimal numbers that read back.  A floating point number stands for all numbers that
are rounded to it.  Among the decimal numbers in that interval, those with the fewest digits are
looked for, and of these the one nearest to the number itself.
-/

namespace ByteMachine.Decimal

/-- A number between the limits that round to it, all over one denominator.  The limits themselves
belong to the number only if its significand is even. -/
structure Interval where
  value : Nat
  low : Nat
  high : Nat
  denominator : Nat
  closed : Bool
  deriving DecidableEq, Repr

def Interval.ofFinite (significand : Nat) (exponent : Int) : Interval :=
  let gapBelow := if significand = Nat.pow 2 52 ∧ -1074 < exponent then 1 else 2
  let numerator := Nat.pow 2 exponent.toNat
  let denominator := 4 * Nat.pow 2 (-exponent).toNat
  ⟨4 * significand * numerator, (4 * significand - gapBelow) * numerator,
    (4 * significand + 2) * numerator, denominator, significand % 2 = 0⟩

structure Digits where
  digits : Nat
  exponent : Int
  deriving DecidableEq, Repr

def Digits.numerator (d : Digits) : Nat := d.digits * Nat.pow 10 d.exponent.toNat

def Digits.denominator (d : Digits) : Nat := Nat.pow 10 (-d.exponent).toNat

def Interval.contains (i : Interval) (d : Digits) : Bool :=
  let value := d.numerator * i.denominator
  let low := i.low * d.denominator
  let high := i.high * d.denominator
  if i.closed then low ≤ value && value ≤ high else low < value && value < high

def Interval.distance (i : Interval) (d : Digits) : Nat :=
  ((d.numerator * i.denominator : Int) - i.value * d.denominator).natAbs

def digitCount (n : Nat) : Nat := (Nat.toDigits 10 n).length

def Interval.leading (i : Interval) : Int :=
  if i.denominator ≤ i.value then (digitCount (i.value / i.denominator) : Int) - 1
  else -(digitCount ((i.denominator - 1) / i.value) : Int)

def Interval.neighbours (i : Interval) (exponent : Int) : List Digits :=
  let below := i.value * Nat.pow 10 (-exponent).toNat / (i.denominator * Nat.pow 10 exponent.toNat)
  let a : Digits := ⟨below, exponent⟩
  let b : Digits := ⟨below + 1, exponent⟩
  let distanceA := i.distance a
  let distanceB := i.distance b
  if distanceA < distanceB ∨ (distanceA = distanceB ∧ below % 2 = 0) then [a, b] else [b, a]

def Digits.strip : Nat → Digits → Digits
  | 0, d => d
  | fuel + 1, d =>
    if d.digits ≠ 0 ∧ d.digits % 10 = 0 then Digits.strip fuel ⟨d.digits / 10, d.exponent + 1⟩
    else d

/-- Seventeen digits always suffice. -/
def shortest (significand : Nat) (exponent : Int) : Digits :=
  let i := Interval.ofFinite significand exponent
  let leading := i.leading
  let found := (List.range 17).findSome? fun k : Nat =>
    (i.neighbours (leading - k)).find? i.contains
  (found.getD ⟨i.value / i.denominator, 0⟩).strip 400

structure Style where
  plainFrom : Int
  plainBelow : Int

def zeros (n : Nat) : String := String.ofList (List.replicate n '0')

def plain (digits : String) (before : Int) : String :=
  let count : Int := digits.length
  if before ≤ 0 then "0." ++ zeros (-before).toNat ++ digits
  else if count ≤ before then digits ++ zeros (before - count).toNat ++ ".0"
  else
    String.ofList (digits.toList.take before.toNat) ++ "." ++
      String.ofList (digits.toList.drop before.toNat)

/-- An exponent has a sign and at least two digits. -/
def scientific (digits : String) (exponent : Int) : String :=
  let size := toString exponent.natAbs
  let rest := String.ofList (digits.toList.drop 1)
  String.ofList (digits.toList.take 1) ++ (if rest.isEmpty then "" else "." ++ rest) ++ "e" ++
    (if exponent < 0 then "-" else "+") ++ (if size.length < 2 then "0" ++ size else size)

def render (style : Style) (d : Digits) : String :=
  let digits := toString d.digits
  let exponent := d.exponent + digits.length - 1
  if style.plainFrom ≤ exponent ∧ exponent < style.plainBelow then plain digits (exponent + 1)
  else scientific digits exponent

def text (style : Style) (x : Double) : String :=
  let magnitude :=
    match x.meaning with
    | .infinite => "inf"
    | .undefined => "nan"
    | .finite 0 _ => "0.0"
    | .finite significand exponent => render style (shortest significand exponent)
  if x.negative && x.meaning ≠ .undefined then "-" ++ magnitude else magnitude

end ByteMachine.Decimal
