import ByteMachine.Yaml.Scalar

/-!
Tokens.  Indentation becomes tokens that open and close blocks, and what turns out to be the key of
a mapping gets a token in front of it afterwards, when its colon is found.  A key without a mark of
its own has to stand on one line with its colon and not too far from it.
-/

namespace ByteMachine.Yaml

inductive Token where
  | versionDirective (major : Nat)
  | tagDirective (handle stem : String)
  | otherDirective
  | documentStart
  | documentEnd
  | blockSequence
  | blockMapping
  | blockEnd
  | flowSequence
  | flowSequenceEnd
  | flowMapping
  | flowMappingEnd
  | flowEntry
  | blockEntry
  | key
  | value
  | reference (name : String)
  | anchor (name : String)
  | tag (handle : Option String) (suffix : String)
  | scalar (text : String) (plain : Bool)
  deriving DecidableEq, Repr

/-- A place where a key may have begun. -/
structure Candidate where
  level : Nat
  position : Nat
  required : Bool
  index : Nat
  line : Nat
  column : Nat
  deriving DecidableEq, Repr

structure Lexer where
  cursor : Cursor
  flowLevel : Nat := 0
  indent : Int := -1
  indents : List Int := []
  keyAllowed : Bool := true
  candidates : List Candidate := []
  tokens : Array Token := #[]

namespace Lexer

def push (lexer : Lexer) (token : Token) : Lexer := { lexer with tokens := lexer.tokens.push token }

def inFlow (lexer : Lexer) : Bool := lexer.flowLevel ≠ 0

def unwind (lexer : Lexer) (column : Int) : Lexer :=
  if lexer.inFlow then lexer
  else
    let levels := lexer.indent :: lexer.indents
    let kept := levels.dropWhile (column < ·)
    let closed := levels.length - kept.length
    { lexer with
      indent := kept.headD (-1)
      indents := kept.tail
      tokens := lexer.tokens ++ Array.replicate closed .blockEnd }

def isStale (lexer : Lexer) (c : Candidate) : Bool :=
  c.line ≠ lexer.cursor.line || 1024 < lexer.cursor.index - c.index

def dropStale (lexer : Lexer) : Except Failure Lexer :=
  if lexer.candidates.any fun c => lexer.isStale c && c.required then .error .malformed
  else .ok { lexer with candidates := lexer.candidates.filter (!lexer.isStale ·) }

def dropCandidate (lexer : Lexer) : Except Failure Lexer :=
  let here (c : Candidate) : Bool := c.level = lexer.flowLevel
  if lexer.candidates.any fun c => here c && c.required then .error .malformed
  else .ok { lexer with candidates := lexer.candidates.filter (!here ·) }

def saveCandidate (lexer : Lexer) : Except Failure Lexer :=
  if lexer.keyAllowed then do
    let lexer ← lexer.dropCandidate
    let cursor := lexer.cursor
    let required := !lexer.inFlow && lexer.indent = cursor.column
    return { lexer with
      candidates := ⟨lexer.flowLevel, lexer.tokens.size, required, cursor.index, cursor.line,
        cursor.column⟩ :: lexer.candidates }
  else .ok lexer

def openBlock (lexer : Lexer) (column : Nat) : Lexer × Bool :=
  if lexer.indent < column then
    ({ lexer with indent := column, indents := lexer.indent :: lexer.indents }, true)
  else (lexer, false)

def blockMark (lexer : Lexer) (opening : Token) : Except Failure Lexer :=
  if lexer.inFlow then .ok lexer
  else if lexer.keyAllowed then
    let (lexer, opened) := lexer.openBlock lexer.cursor.column
    .ok (if opened then lexer.push opening else lexer)
  else .error .malformed

def moveOn (lexer : Lexer) (count : Nat) (token : Token) : Lexer :=
  { lexer.push token with cursor := lexer.cursor.skip count }

/-- Spaces, comments and line ends in front of a token.  A key may begin on a new line. -/
def skipGaps : Nat → Lexer → Lexer
  | 0, lexer => lexer
  | fuel + 1, lexer =>
    let cursor := lexer.cursor.skipSpaces.skipComment
    match cursor.lineBreak? with
    | some (_, cursor) =>
      skipGaps fuel { lexer with cursor, keyAllowed := lexer.keyAllowed || !lexer.inFlow }
    | none => { lexer with cursor }

/-! Names and tags -/

def isNameChar (c : Char) : Bool := (c.isAlphanum || c = '-' || c = '_')

def digits (cursor : Cursor) : Option (Nat × Cursor) :=
  let (run, cursor) := cursor.take Char.isDigit
  if run.isEmpty then none
  else some (run.foldl (fun n c => 10 * n + (c.toNat - '0'.toNat)) 0, cursor)

def anchorName (cursor : Cursor) : Option (String × Cursor) :=
  let (name, cursor) := cursor.next.take isNameChar
  let follows (c : Char) : Bool :=
    c = '?' || c = ':' || c = ',' || c = ']' || c = '\x7d' || c = '%' || c = '@' || c = '\x60'
  if name.isEmpty || !(endsWord cursor.peek || cursor.peek.any follows) then none
  else some (String.ofList name, cursor)

def tagHandle (cursor : Cursor) : Option (String × Cursor) :=
  if cursor.peek ≠ some '!' then none
  else
    let (name, cursor) := cursor.next.take isNameChar
    if cursor.peek = some '!' then some ("!" ++ String.ofList name ++ "!", cursor.next)
    else if name.isEmpty && cursor.peek = some ' ' then some ("!", cursor)
    else none

def isUriChar (c : Char) : Bool :=
  c.isAlphanum || "-;/?:@&=+$,_.!~*'()[]".contains c

def uriBytes : Nat → List Char → List UInt8
  | fuel + 1, '%' :: a :: b :: rest =>
    match codeOf? [a, b] with
    | some code => UInt8.ofNat code :: uriBytes fuel rest
    | none => []
  | _, _ => []

def uriText : Nat → Cursor → List Char → Option (List Char × Cursor)
  | 0, cursor, text => some (text, cursor)
  | fuel + 1, cursor, text =>
    match cursor.peek with
    | some '%' => do
      let bytes := uriBytes cursor.rest.length cursor.rest
      if (cursor.peekAt (3 * bytes.length)) = some '%' then none
      else
        let coded ← String.fromUTF8? ⟨bytes.toArray⟩
        uriText fuel (cursor.skip (3 * bytes.length)) (text ++ coded.toList)
    | some c => if isUriChar c then uriText fuel cursor.next (text ++ [c]) else some (text, cursor)
    | none => some (text, cursor)

def tagUri (cursor : Cursor) : Option (String × Cursor) := do
  let (text, cursor) ← uriText (cursor.rest.length + 1) cursor []
  if text.isEmpty then none else return (String.ofList text, cursor)

def scanTag (cursor : Cursor) : Option (Token × Cursor) := do
  let (token, cursor) ←
    match cursor.peekAt 1 with
    | some '<' => do
      let (uri, cursor) ← tagUri (cursor.skip 2)
      if cursor.peek = some '>' then some (Token.tag none uri, cursor.next) else none
    | c =>
      if endsWord c then some (Token.tag none "!", cursor.next)
      else do
        let word := cursor.next.rest.takeWhile fun c => !endsPart (some c)
        let (handle, cursor) ←
          if word.contains '!' then tagHandle cursor else some ("!", cursor.next)
        let (suffix, cursor) ← tagUri cursor
        some (Token.tag (some handle) suffix, cursor)
  if endsPart cursor.peek then some (token, cursor) else none

/-! Directives -/

def versionDirective (cursor : Cursor) : Option (Token × Cursor) := do
  let (major, cursor) ← digits cursor.skipSpaces
  if cursor.peek ≠ some '.' then none
  else
    let (_, cursor) ← digits cursor.next
    if endsPart cursor.peek then some (.versionDirective major, cursor) else none

def tagDirective (cursor : Cursor) : Option (Token × Cursor) := do
  let (handle, cursor) ← tagHandle cursor.skipSpaces
  if cursor.peek ≠ some ' ' then none
  else
    let (stem, cursor) ← tagUri cursor.skipSpaces
    if endsPart cursor.peek then some (.tagDirective handle stem, cursor) else none

def scanDirective (cursor : Cursor) : Option (Token × Cursor) := do
  let (name, cursor) := cursor.next.take isNameChar
  if name.isEmpty || !endsPart cursor.peek then none
  else
    let (token, cursor) ←
      if name = "YAML".toList then versionDirective cursor
      else if name = "TAG".toList then tagDirective cursor
      else some (.otherDirective, cursor.skipWhile (!isBreak ·))
    return (token, ← cursor.endLine?)

/-! Tokens -/

def lexDirective (lexer : Lexer) : Except Failure Lexer := do
  let lexer ← (lexer.unwind (-1)).dropCandidate
  let (token, cursor) ← wellFormed (scanDirective lexer.cursor)
  return { lexer.push token with cursor, keyAllowed := false }

def lexDocumentMark (token : Token) (lexer : Lexer) : Except Failure Lexer := do
  let lexer ← (lexer.unwind (-1)).dropCandidate
  return { lexer.moveOn 3 token with keyAllowed := false }

def lexFlowOpening (token : Token) (lexer : Lexer) : Except Failure Lexer := do
  let lexer ← lexer.saveCandidate
  return { lexer.moveOn 1 token with flowLevel := lexer.flowLevel + 1, keyAllowed := true }

def lexFlowClosing (token : Token) (lexer : Lexer) : Except Failure Lexer := do
  let lexer ← lexer.dropCandidate
  if lexer.flowLevel = 0 then .error .malformed
  else return { lexer.moveOn 1 token with flowLevel := lexer.flowLevel - 1, keyAllowed := false }

def lexFlowEntry (lexer : Lexer) : Except Failure Lexer := do
  let lexer ← lexer.dropCandidate
  return { lexer.moveOn 1 .flowEntry with keyAllowed := true }

def lexBlockEntry (lexer : Lexer) : Except Failure Lexer := do
  let lexer ← lexer.blockMark .blockSequence
  let lexer ← lexer.dropCandidate
  return { lexer.moveOn 1 .blockEntry with keyAllowed := true }

def lexKey (lexer : Lexer) : Except Failure Lexer := do
  let lexer ← lexer.blockMark .blockMapping
  let lexer ← lexer.dropCandidate
  return { lexer.moveOn 1 .key with keyAllowed := !lexer.inFlow }

/-- Puts the tokens of a key in front of where it began. -/
def insertKey (lexer : Lexer) (candidate : Candidate) : Lexer :=
  let before := lexer.tokens.extract 0 candidate.position
  let after := lexer.tokens.extract candidate.position lexer.tokens.size
  let (lexer, opened) :=
    if lexer.inFlow then (lexer, false) else lexer.openBlock candidate.column
  let marks := if opened then #[Token.blockMapping, .key] else #[.key]
  { lexer with tokens := before ++ marks ++ after }

def lexValue (lexer : Lexer) : Except Failure Lexer :=
  match lexer.candidates.find? (·.level = lexer.flowLevel) with
  | some candidate =>
    let lexer := lexer.insertKey candidate
    .ok { lexer.moveOn 1 .value with
      candidates := lexer.candidates.filter (·.level ≠ lexer.flowLevel)
      keyAllowed := false }
  | none => do
    let lexer ← lexer.blockMark .blockMapping
    let lexer ← lexer.dropCandidate
    return { lexer.moveOn 1 .value with keyAllowed := !lexer.inFlow }

def lexKeyPart (scan : Cursor → Except Failure (Token × Cursor)) (lexer : Lexer) :
    Except Failure Lexer := do
  let lexer ← lexer.saveCandidate
  let (token, cursor) ← scan lexer.cursor
  return { lexer.push token with cursor, keyAllowed := false }

def lexPlain (lexer : Lexer) : Except Failure Lexer := do
  let lexer ← lexer.saveCandidate
  let (text, fresh, cursor) := plainScalar lexer.inFlow (lexer.indent + 1) lexer.cursor
  return { lexer.push (.scalar (String.ofList text) true) with cursor, keyAllowed := fresh }

def lexBlockScalar (fold : Bool) (lexer : Lexer) : Except Failure Lexer := do
  let lexer ← lexer.dropCandidate
  let (text, cursor) ← wellFormed (blockScalar fold lexer.indent lexer.cursor)
  return { lexer.push (.scalar (String.ofList text) false) with cursor, keyAllowed := true }

def scanQuoted (quote : Char) (cursor : Cursor) : Except Failure (Token × Cursor) :=
  (quotedScalar quote cursor).map fun (text, cursor) =>
    (.scalar (String.ofList text) false, cursor)

def scanAnchor (token : String → Token) (cursor : Cursor) : Except Failure (Token × Cursor) :=
  (wellFormed (anchorName cursor)).map fun (name, cursor) => (token name, cursor)

def startsPlain (flow : Bool) (c : Char) (following : Option Char) : Bool :=
  !(endsWord (some c) || "-?:,[]\x7b\x7d#&*!|>'\"%@\x60".contains c) ||
    (!endsWord following && (c = '-' || (!flow && (c = '?' || c = ':'))))

def lexAt (lexer : Lexer) (c : Char) : Except Failure Lexer :=
  let cursor := lexer.cursor
  let spaced := endsWord (cursor.peekAt 1)
  let flow := lexer.inFlow
  if c = '%' ∧ cursor.column = 0 then lexer.lexDirective
  else if cursor.column = 0 ∧ cursor.startsWithMark '-' then lexer.lexDocumentMark .documentStart
  else if cursor.column = 0 ∧ cursor.startsWithMark '.' then lexer.lexDocumentMark .documentEnd
  else if c = '[' then lexer.lexFlowOpening .flowSequence
  else if c = '\x7b' then lexer.lexFlowOpening .flowMapping
  else if c = ']' then lexer.lexFlowClosing .flowSequenceEnd
  else if c = '\x7d' then lexer.lexFlowClosing .flowMappingEnd
  else if c = ',' then lexer.lexFlowEntry
  else if c = '-' ∧ spaced then lexer.lexBlockEntry
  else if c = '?' ∧ (flow ∨ spaced) then lexer.lexKey
  else if c = ':' ∧ (flow ∨ spaced) then lexer.lexValue
  else if c = '*' then lexer.lexKeyPart (scanAnchor .reference)
  else if c = '&' then lexer.lexKeyPart (scanAnchor .anchor)
  else if c = '!' then lexer.lexKeyPart fun cursor => wellFormed (scanTag cursor)
  else if c = '|' ∧ !flow then lexer.lexBlockScalar false
  else if c = '>' ∧ !flow then lexer.lexBlockScalar true
  else if c = '\'' ∨ c = '"' then lexer.lexKeyPart (scanQuoted c)
  else if startsPlain flow c (cursor.peekAt 1) then lexer.lexPlain
  else .error .malformed

def step (lexer : Lexer) : Except Failure (Lexer × Bool) := do
  let lexer := lexer.skipGaps (lexer.cursor.rest.length + 1)
  let lexer ← lexer.dropStale
  let lexer := lexer.unwind lexer.cursor.column
  match lexer.cursor.peek with
  | none => return (← (lexer.unwind (-1)).dropCandidate, true)
  | some c => return (← lexer.lexAt c, false)

/-- The tokens that do not depend on what follows: no key can begin in front of them any more. -/
def settled (lexer : Lexer) : List Token :=
  let pending := lexer.candidates.filter (!lexer.isStale ·)
  lexer.tokens.toList.take
    (pending.foldl (fun least c => min least c.position) lexer.tokens.size)

def lexAll : Nat → Lexer → List Token × Option Failure
  | 0, lexer => (lexer.settled, some .malformed)
  | fuel + 1, lexer =>
    match lexer.step with
    | .error failure => (lexer.settled, some failure)
    | .ok (lexer, true) => (lexer.tokens.toList, none)
    | .ok (lexer, false) => lexAll fuel lexer

end Lexer

def isAllowed (c : Char) : Bool :=
  let n := c.toNat
  c = '\t' || c = '\n' || c = '\r' || (0x20 ≤ n && n ≤ 0x7e) || n = 0x85 ||
    (0xa0 ≤ n && n ≤ 0xd7ff) || (0xe000 ≤ n && n ≤ 0xfffd) || 0x10000 ≤ n

/-- The tokens of a text, and why there are no more of them if it fails.  A mark at its very start
is passed over. -/
def Token.ofText (text : List Char) : List Token × Option Failure :=
  if text.all isAllowed then
    let cursor : Cursor := { rest := text }
    let cursor := if cursor.peek = some byteOrderMark then cursor.next else cursor
    Lexer.lexAll (text.length + 1) { cursor }
  else ([], some .malformed)

end ByteMachine.Yaml
