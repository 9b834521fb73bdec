import ByteMachine.Decimal.Double
import ByteMachine.Text.Blank
import ByteMachine.Text.Digit

/-!
Decimal numbers in text: blanks around, one sign, digits of any script with a point and an exponent
that may be missing.  Infinity and undefined results have names.
-/

namespace ByteMachine.Decimal

def isDigit (c : Char) : Bool := (Text.decimalDigit? c).isSome

def digitsValue (digits : List Char) : Nat :=
  digits.foldl (fun n c => 10 * n + (Text.decimalDigit? c).getD 0) 0

def unsigned : List Char → List Char
  | '+' :: rest | '-' :: rest => rest
  | text => text

def natural? (text : List Char) : Option Nat :=
  if !text.isEmpty && text.all isDigit then some (digitsValue text) else none

def exponent? : List Char → Option Int
  | [] => some 0
  | mark :: text =>
    if mark = 'e' ∨ mark = 'E' then
      (natural? (unsigned text)).map fun n => if text.head? = some '-' then -(n : Int) else n
    else none

/-- Digits with an optional point and exponent, without a sign. -/
def finite? (negative : Bool) (text : List Char) : Option Double :=
  let (whole, rest) := text.span isDigit
  let (fraction, rest) :=
    match rest with
    | '.' :: rest => rest.span isDigit
    | rest => ([], rest)
  if whole.isEmpty && fraction.isEmpty then none
  else
    (exponent? rest).map fun exponent =>
      Double.ofDecimal negative (digitsValue (whole ++ fraction)) (exponent - fraction.length)

def read? (text : List Char) : Option Double :=
  let text := Text.trim text
  let negative : Bool := text.head? = some '-'
  let bare := unsigned text
  let word := String.ofList (bare.map Char.toLower)
  if word = "inf" ∨ word = "infinity" then some (Double.infinity negative)
  else if word = "nan" then some Double.notANumber
  else finite? negative bare

end ByteMachine.Decimal
