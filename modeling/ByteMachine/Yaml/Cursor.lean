/-!
A place in a text, with what follows it.  Lines end at a line feed, a next-line character or a line
or paragraph separator.
-/

namespace ByteMachine.Yaml

def isBreak (c : Char) : Bool := c = '\n' || c = '\x85' || c = '\u2028' || c = '\u2029'

def isGap (c : Char) : Bool := c = ' ' || c = '\t'

def endsWord : Option Char → Bool
  | none => true
  | some c => isGap c || isBreak c

def endsPart : Option Char → Bool
  | none => true
  | some c => c = ' ' || isBreak c

def endsLine : Option Char → Bool
  | none => true
  | some c => isBreak c

def byteOrderMark : Char := '\ufeff'

structure Cursor where
  rest : List Char
  index : Nat := 0
  line : Nat := 0
  column : Nat := 0
  deriving DecidableEq, Repr

namespace Cursor

def peek (cursor : Cursor) : Option Char := cursor.rest.head?

def peekAt (cursor : Cursor) (n : Nat) : Option Char := cursor.rest[n]?

def next (cursor : Cursor) : Cursor :=
  match cursor.rest with
  | [] => cursor
  | c :: rest =>
    if isBreak c then ⟨rest, cursor.index + 1, cursor.line + 1, 0⟩
    else if c = byteOrderMark then ⟨rest, cursor.index + 1, cursor.line, cursor.column⟩
    else ⟨rest, cursor.index + 1, cursor.line, cursor.column + 1⟩

def skip (cursor : Cursor) : Nat → Cursor
  | 0 => cursor
  | n + 1 => cursor.next.skip n

def take (keep : Char → Bool) (cursor : Cursor) : List Char × Cursor :=
  let run := cursor.rest.takeWhile keep
  (run, cursor.skip run.length)

def skipWhile (keep : Char → Bool) (cursor : Cursor) : Cursor := (cursor.take keep).2

def skipSpaces : Cursor → Cursor := skipWhile (· = ' ')

def skipComment (cursor : Cursor) : Cursor :=
  if cursor.peek = some '#' then cursor.skipWhile (!isBreak ·) else cursor

/-- Moves over a line end.  The two oldest kinds of line ends both count as a line feed. -/
def lineBreak? (cursor : Cursor) : Option (Char × Cursor) :=
  match cursor.peek with
  | some c =>
    if c = '\n' ∨ c = '\x85' then some ('\n', cursor.next)
    else if isBreak c then some (c, cursor.next)
    else none
  | none => none

def skipBreak (cursor : Cursor) : Cursor :=
  match cursor.lineBreak? with
  | some (_, cursor) => cursor
  | none => cursor

def endLine? (cursor : Cursor) : Option Cursor :=
  let cursor := cursor.skipSpaces.skipComment
  if endsLine cursor.peek then some cursor.skipBreak else none

def startsWithMark (mark : Char) (cursor : Cursor) : Bool :=
  cursor.rest.take 3 = [mark, mark, mark] && endsWord (cursor.peekAt 3)

def atSeparator (cursor : Cursor) : Bool :=
  cursor.startsWithMark '-' || cursor.startsWithMark '.'

end Cursor

end ByteMachine.Yaml
