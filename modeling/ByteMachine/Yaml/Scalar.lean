import ByteMachine.Text.Digit
import ByteMachine.Yaml.Cursor
import ByteMachine.Yaml.Failure

/-!
Scalars: plain ones, quoted ones, and blocks of lines.  Line ends inside the first two are folded: a
single one becomes a space, and of several all but the first stay.  All loops are bounded by the
length of the text that is left.
-/

namespace ByteMachine.Yaml

def folded (first : Char) (others : List Char) : List Char :=
  if first ≠ '\n' then first :: others else if others.isEmpty then [' '] else others

/-! Plain scalars -/

def isFlowMark (c : Char) : Bool :=
  c = ',' || c = '?' || c = '[' || c = ']' || c = '\x7b' || c = '\x7d'

def endsAfterColon (flow : Bool) (c : Option Char) : Bool :=
  endsWord c || (flow && match c with
    | some c => c ≠ '?' && isFlowMark c
    | none => false)

def plainLength (flow : Bool) : List Char → Nat
  | [] => 0
  | c :: rest =>
    if isGap c || isBreak c then 0
    else if c = ':' && endsAfterColon flow rest.head? then 0
    else if flow && isFlowMark c then 0
    else plainLength flow rest + 1

def plainBreaks : Nat → Cursor → List Char → Option (List Char) × Cursor
  | 0, cursor, found => (some found, cursor)
  | fuel + 1, cursor, found =>
    if cursor.peek = some ' ' then plainBreaks fuel cursor.next found
    else
      match cursor.lineBreak? with
      | none => (some found, cursor)
      | some (c, cursor) =>
        if cursor.atSeparator then (none, cursor) else plainBreaks fuel cursor (found ++ [c])

def plainSpaces (cursor : Cursor) : List Char × Bool × Cursor :=
  let (spaces, cursor) := cursor.take (· = ' ')
  match cursor.lineBreak? with
  | none => (spaces, false, cursor)
  | some (first, cursor) =>
    if cursor.atSeparator then ([], true, cursor)
    else
      match plainBreaks cursor.rest.length cursor [] with
      | (none, cursor) => ([], true, cursor)
      | (some others, cursor) => (folded first others, true, cursor)

def plainWords (flow : Bool) (indent : Int) :
    Nat → Cursor → List Char → List Char → Bool → List Char × Bool × Cursor
  | 0, cursor, text, _, fresh => (text, fresh, cursor)
  | fuel + 1, cursor, text, spaces, fresh =>
    let length := plainLength flow cursor.rest
    if cursor.peek = some '#' ∨ length = 0 then (text, fresh, cursor)
    else
      let text := text ++ spaces ++ cursor.rest.take length
      let (spaces, fresh, cursor) := plainSpaces (cursor.skip length)
      if spaces.isEmpty || cursor.peek = some '#' || (!flow && cursor.column < indent) then
        (text, fresh, cursor)
      else plainWords flow indent fuel cursor text spaces fresh

def plainScalar (flow : Bool) (indent : Int) (cursor : Cursor) : List Char × Bool × Cursor :=
  plainWords flow indent cursor.rest.length cursor [] [] false

/-! Quoted scalars -/

def quotedBreaks : Nat → Cursor → List Char → Option (List Char × Cursor)
  | 0, _, _ => none
  | fuel + 1, cursor, found =>
    if cursor.atSeparator then none
    else
      let cursor := cursor.skipWhile isGap
      match cursor.lineBreak? with
      | some (c, cursor) => quotedBreaks fuel cursor (found ++ [c])
      | none => some (found, cursor)

def quotedSpaces (cursor : Cursor) : Option (List Char × Cursor) :=
  let (spaces, cursor) := cursor.take isGap
  match cursor.lineBreak? with
  | some (first, cursor) => do
    let (others, cursor) ← quotedBreaks (cursor.rest.length + 1) cursor []
    return (folded first others, cursor)
  | none => if cursor.rest.isEmpty then none else some (spaces, cursor)

def escapedChar? : Char → Option Char
  | '0' => some '\x00'
  | 'a' => some '\x07'
  | 'b' => some '\x08'
  | 't' | '\t' => some '\t'
  | 'n' => some '\n'
  | 'v' => some '\x0b'
  | 'f' => some '\x0c'
  | 'r' => some '\r'
  | 'e' => some '\x1b'
  | ' ' => some ' '
  | '"' => some '"'
  | '\\' => some '\\'
  | '/' => some '/'
  | 'N' => some '\x85'
  | '_' => some '\xa0'
  | 'L' => some '\u2028'
  | 'P' => some '\u2029'
  | _ => none

def codeLength? : Char → Option Nat
  | 'x' => some 2
  | 'u' => some 4
  | 'U' => some 8
  | _ => none

def codeOf? (digits : List Char) : Option Nat :=
  if digits.all fun c => c.toNat < 128 && (Text.hexDigit? c).isSome then
    some (digits.foldl (fun n c => 16 * n + (Text.hexDigit? c).getD 0) 0)
  else none

def largestCode : Nat := 0x7fffffff

def codedText (code : Nat) : Except Failure (List Char) :=
  if largestCode < code then .error .tooLarge
  else
    match Text.ofCode? code with
    | some text => .ok text
    | none => .error .notCharacter

def codeEscape (length : Nat) (cursor : Cursor) : Except Failure (List Char × Cursor) := do
  let digits := cursor.rest.take length
  let code ← wellFormed (if digits.length = length then codeOf? digits else none)
  return (← codedText code, cursor.skip length)

/-- What an escape in double quotes stands for; the cursor is behind the backslash. -/
def escape (cursor : Cursor) : Except Failure (List Char × Cursor) := do
  match cursor.lineBreak? with
  | some (_, cursor) => wellFormed (quotedBreaks (cursor.rest.length + 1) cursor [])
  | none =>
    let c ← wellFormed cursor.peek
    match escapedChar? c with
    | some replacement => return ([replacement], cursor.next)
    | none => codeEscape (← wellFormed (codeLength? c)) cursor.next

def quotedText (quote : Char) : Nat → Cursor → List Char → Except Failure (List Char × Cursor)
  | 0, _, _ => .error .malformed
  | fuel + 1, cursor, text => do
    let c ← wellFormed cursor.peek
    if c = quote then
      if quote = '\'' ∧ cursor.peekAt 1 = some '\'' then
        quotedText quote fuel (cursor.skip 2) (text ++ [c])
      else return (text, cursor.next)
    else if isGap c || isBreak c then
      let (spaces, cursor) ← wellFormed (quotedSpaces cursor)
      quotedText quote fuel cursor (text ++ spaces)
    else if quote = '"' ∧ c = '\\' then
      let (replacement, cursor) ← escape cursor.next
      quotedText quote fuel cursor (text ++ replacement)
    else quotedText quote fuel cursor.next (text ++ [c])

def quotedScalar (quote : Char) (cursor : Cursor) : Except Failure (List Char × Cursor) :=
  quotedText quote (cursor.rest.length + 1) cursor.next []

/-! Blocks of lines -/

inductive Chomping where
  | strip
  | clip
  | keep
  deriving DecidableEq, Repr

def chomping? : Option Char → Option Chomping
  | some '+' => some .keep
  | some '-' => some .strip
  | _ => none

def increment? (c : Option Char) : Option Nat :=
  c.bind fun c => if '0' ≤ c ∧ c ≤ '9' then some (c.toNat - '0'.toNat) else none

def blockHeader (cursor : Cursor) : Option (Chomping × Option Nat × Cursor) := do
  let (chomping, increment, cursor) :=
    match chomping? cursor.peek with
    | some chomping =>
      match increment? cursor.next.peek with
      | some n => (chomping, some n, cursor.skip 2)
      | none => (chomping, none, cursor.next)
    | none =>
      match increment? cursor.peek with
      | some n =>
        match chomping? cursor.next.peek with
        | some chomping => (chomping, some n, cursor.skip 2)
        | none => (.clip, some n, cursor.next)
      | none => (.clip, none, cursor)
  if increment = some 0 ∨ !endsPart cursor.peek then none
  else return (chomping, increment, ← cursor.endLine?)

/-- Empty lines in front of a block, and the deepest indentation among them. -/
def blockIndentation : Nat → Cursor → List Char → Nat → List Char × Nat × Cursor
  | 0, cursor, found, deepest => (found, deepest, cursor)
  | fuel + 1, cursor, found, deepest =>
    if cursor.peek = some ' ' then
      blockIndentation fuel cursor.next found (max deepest cursor.next.column)
    else
      match cursor.lineBreak? with
      | some (c, cursor) => blockIndentation fuel cursor (found ++ [c]) deepest
      | none => (found, deepest, cursor)

def skipIndent (indent : Nat) (cursor : Cursor) : Cursor :=
  cursor.skip (min (indent - cursor.column) (cursor.rest.takeWhile (· = ' ')).length)

def blockBreaks (indent : Nat) : Nat → Cursor → List Char → List Char × Cursor
  | 0, cursor, found => (found, cursor)
  | fuel + 1, cursor, found =>
    let cursor := skipIndent indent cursor
    match cursor.lineBreak? with
    | some (c, cursor) => blockBreaks indent fuel cursor (found ++ [c])
    | none => (found, cursor)

/-- The lines of a block: its text, the last line end, and the empty lines after it. -/
def blockLines (fold : Bool) (indent : Nat) :
    Nat → Cursor → List Char → List Char → List Char × List Char × List Char × Cursor
  | 0, cursor, text, breaks => (text, [], breaks, cursor)
  | fuel + 1, cursor, text, breaks =>
    if cursor.column = indent ∧ cursor.peek ≠ none then
      let indented (c : Option Char) : Bool := c = some ' ' || c = some '\t'
      let flush := !indented cursor.peek
      let (line, cursor) := cursor.take (!isBreak ·)
      let text := text ++ breaks ++ line
      let (ending, cursor) :=
        match cursor.lineBreak? with
        | some (c, cursor) => ([c], cursor)
        | none => ([], cursor)
      let (breaks, cursor) := blockBreaks indent (cursor.rest.length + 1) cursor []
      if cursor.column = indent ∧ cursor.peek ≠ none then
        let joint :=
          if fold && ending = ['\n'] && flush && !indented cursor.peek then
            (if breaks.isEmpty then [' '] else [])
          else ending
        blockLines fold indent fuel cursor (text ++ joint) breaks
      else (text, ending, breaks, cursor)
    else (text, [], breaks, cursor)

def blockScalar (fold : Bool) (parent : Int) (cursor : Cursor) : Option (List Char × Cursor) := do
  let (chomping, increment, cursor) ← blockHeader cursor.next
  let least := max (parent + 1) 1 |>.toNat
  let fuel := cursor.rest.length + 1
  let (breaks, indent, cursor) :=
    match increment with
    | some n =>
      let indent := least + n - 1
      let (breaks, cursor) := blockBreaks indent fuel cursor []
      (breaks, indent, cursor)
    | none =>
      let (breaks, deepest, cursor) := blockIndentation fuel cursor [] 0
      (breaks, max least deepest, cursor)
  let (text, ending, breaks, cursor) := blockLines fold indent fuel cursor [] breaks
  let tail :=
    match chomping with
    | .strip => []
    | .clip => ending
    | .keep => ending ++ breaks
  return (text ++ tail, cursor)

end ByteMachine.Yaml
