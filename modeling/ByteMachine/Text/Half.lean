/-!
Texts as sequences of codes.  Some codes are no characters, but halves of a pair that stands for
one.  A text has such a half as the private character at the same place sixteen planes further on;
these private characters themselves have a mark in front of them, and so has the mark.  Some halves
stand for single bytes; the others are stray, and no text that has one can be turned into bytes.
-/

namespace ByteMachine.Text

def isHalfCode (code : Nat) : Bool := 0xd800 ≤ code && code ≤ 0xdfff

/-- How far the private characters are away from the halves that they stand for. -/
def halfDistance : Nat := 0x100000

def mark : Char := Char.ofNat 0x10ffff

def isMarked (c : Char) : Bool := isHalfCode (c.toNat - halfDistance) || c == mark

def ofChar (c : Char) : List Char := if isMarked c then [mark, c] else [c]

def ofString (text : String) : String := String.ofList (text.toList.flatMap ofChar)

/-- What stands for a code in a text.  There are no codes beyond the last plane. -/
def ofCode? (code : Nat) : Option (List Char) :=
  if isHalfCode code then some [Char.ofNat (code + halfDistance)]
  else if code < 0x110000 then some (ofChar (Char.ofNat code))
  else none

def unmarkedCode (c : Char) : Nat :=
  if isHalfCode (c.toNat - halfDistance) then c.toNat - halfDistance else c.toNat

def codesOf : List Char → List Nat
  | [] => []
  | [c] => [unmarkedCode c]
  | c :: next :: rest =>
    if c = mark ∧ isMarked next then next.toNat :: codesOf rest
    else unmarkedCode c :: codesOf (next :: rest)

def codes (text : String) : List Nat := codesOf text.toList

def halfByte? (code : Nat) : Option UInt8 :=
  if 0xdc80 ≤ code ∧ code ≤ 0xdcff then some (UInt8.ofNat (code - 0xdc00)) else none

def isStray (code : Nat) : Bool := isHalfCode code && (halfByte? code).isNone

def bytes (text : String) : List UInt8 :=
  (codes text).flatMap fun code =>
    match halfByte? code with
    | some byte => [byte]
    | none => String.utf8EncodeChar (Char.ofNat code)

/-- A stray half, its place, and the number of halves from there on. -/
structure Stray where
  half : Nat
  place : Nat
  count : Nat
  deriving DecidableEq, Repr

def firstStray? (text : String) : Option Stray :=
  match (codes text).dropWhile (!isStray ·) with
  | [] => none
  | half :: rest =>
    some ⟨half, ((codes text).takeWhile (!isStray ·)).length,
      (half :: rest.takeWhile isHalfCode).length⟩

end ByteMachine.Text
