import ByteMachine.Text.Blank
import ByteMachine.Text.Digit

/-!
Integers in text: blanks around, one sign, digits of any script, single underscores between digits.
In some bases a zero and a letter may stand in front of the digits.
-/

namespace ByteMachine.Numeral

def digit? (base : Nat) (c : Char) : Option Nat := (Text.hexDigit? c).filter (· < base)

/-- Adds the digits of a text, each of them after at most one underscore, to a value. -/
def foldDigits (base : Nat) : Nat → List Char → Option Nat
  | value, [] => some value
  | value, '_' :: c :: rest =>
    match digit? base c with
    | some d => foldDigits base (value * base + d) rest
    | none => none
  | value, c :: rest =>
    match digit? base c with
    | some d => foldDigits base (value * base + d) rest
    | none => none

def mark? : Nat → Option Char
  | 2 => some 'b'
  | 8 => some 'o'
  | 16 => some 'x'
  | _ => none

def withoutMark (base : Nat) : List Char → List Char
  | zero :: letter :: rest =>
    if digit? base zero = some 0 ∧ mark? base = some letter.toLower then
      match rest with
      | '_' :: rest => rest
      | rest => rest
    else zero :: letter :: rest
  | text => text

def magnitude? (base : Nat) (text : List Char) : Option Nat :=
  match withoutMark base text with
  | [] => none
  | '_' :: _ => none
  | digits => foldDigits base 0 digits

def inBase? (base : Nat) (text : List Char) : Option Int :=
  match Text.trim text with
  | '-' :: rest => (magnitude? base rest).map fun n => -(n : Int)
  | '+' :: rest => (magnitude? base rest).map Int.ofNat
  | rest => (magnitude? base rest).map Int.ofNat

/-- A text that starts with `0x` is hexadecimal, every other one decimal. -/
def parse? (text : String) : Option Int :=
  match text.toList with
  | '0' :: 'x' :: _ | '0' :: 'X' :: _ => inBase? 16 text.toList
  | _ => inBase? 10 text.toList

end ByteMachine.Numeral
