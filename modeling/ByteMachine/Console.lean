import ByteMachine.Notice

/-!
The console.  Input is a stream of bytes with room for pushed-back bytes in front of it: readers
that look one byte too far give that byte back.  Output is kept in the order in which it was
written, with the text of the tracer told apart from what the program writes.
-/

namespace ByteMachine

inductive Chunk where
  | program (bytes : List UInt8)
  | trace (text : String)
  deriving DecidableEq, Repr

structure Console where
  /-- The byte pushed back last comes first. -/
  pushback : List UInt8 := []
  unread : List UInt8 := []
  interactive : Bool := false
  output : Array Chunk := #[]
  journal : Array Notice := #[]
  deriving DecidableEq, Repr

namespace Console

def remaining (console : Console) : List UInt8 := console.pushback ++ console.unread

def getByte (console : Console) : Option UInt8 × Console :=
  match console.pushback with
  | byte :: rest => (some byte, { console with pushback := rest })
  | [] =>
    match console.unread with
    | byte :: rest => (some byte, { console with unread := rest })
    | [] => (none, console)

def ungetByte (console : Console) (byte : Option UInt8) : Console :=
  match byte with
  | some byte => { console with pushback := byte :: console.pushback }
  | none => console

theorem getByte_some {console next : Console} {byte : UInt8}
    (h : console.getByte = (some byte, next)) : console.remaining = byte :: next.remaining := by
  unfold getByte at h
  split at h
  · next hp =>
    simp only [Prod.mk.injEq, Option.some.injEq] at h
    simp [remaining, hp, ← h.1, ← h.2]
  · next hp =>
    split at h
    · next hu =>
      simp only [Prod.mk.injEq, Option.some.injEq] at h
      simp [remaining, hp, hu, ← h.1, ← h.2]
    · simp at h

/-- The longest run of bytes of a class, leaving the byte after it in the input. -/
def takeWhile (keep : UInt8 → Bool) (console : Console) : List UInt8 × Console :=
  match _h : console.getByte with
  | (none, console) => ([], console)
  | (some byte, next) =>
    if keep byte then
      let (bytes, rest) := takeWhile keep next
      (byte :: bytes, rest)
    else ([], next.ungetByte (some byte))
  termination_by console.remaining.length
  decreasing_by simp [getByte_some _h]

def lineFeed : UInt8 := 10

def readLine (console : Console) : List UInt8 × Console :=
  match _h : console.getByte with
  | (none, console) => ([], console)
  | (some byte, next) =>
    if byte = lineFeed then ([byte], next)
    else
      let (bytes, rest) := readLine next
      (byte :: bytes, rest)
  termination_by console.remaining.length
  decreasing_by simp [getByte_some _h]

def isBlank (byte : UInt8) : Bool := byte = 32 || (9 ≤ byte && byte ≤ 13)

def isDigit (byte : UInt8) : Bool := 48 ≤ byte && byte ≤ 57

def plusSign : UInt8 := 43

def minusSign : UInt8 := 45

def isSign (byte : UInt8) : Bool := byte = plusSign || byte = minusSign

def decimalValue (digits : List UInt8) : Nat :=
  digits.foldl (fun value digit => 10 * value + (digit.toNat - 48)) 0

def readSign (console : Console) : Option UInt8 × Console :=
  match console.getByte with
  | (some byte, next) =>
    if isSign byte then (some byte, next) else (none, next.ungetByte (some byte))
  | (none, next) => (none, next)

/-- Skips blanks and reads a decimal number with at most one sign.  If no digit follows, only the
blanks are consumed. -/
def readNumber (console : Console) : Option Int × Console :=
  let (_, console) := console.takeWhile isBlank
  let (sign, console) := console.readSign
  let (digits, console) := console.takeWhile isDigit
  if digits.isEmpty then (none, console.ungetByte sign)
  else
    let value : Int := decimalValue digits
    (some (if sign = some minusSign then -value else value), console)

def asciiBytes (text : String) : List UInt8 := text.toList.map fun c => UInt8.ofNat c.toNat

def put (console : Console) (bytes : List UInt8) : Console :=
  { console with output := console.output.push (.program bytes) }

def trace (console : Console) (text : String) : Console :=
  { console with output := console.output.push (.trace text) }

def report (console : Console) (notice : Notice) : Console :=
  { console with journal := console.journal.push notice }

def programOutput (console : Console) : List UInt8 :=
  console.output.toList.flatMap fun
    | .program bytes => bytes
    | .trace _ => []

def traceOutput (console : Console) : String :=
  String.join (console.output.toList.map fun
    | .program _ => ""
    | .trace text => text)

end Console

inductive ConsolePort where
  | character
  | numeric
  deriving DecidableEq, Repr

namespace ConsolePort

/-- A character is -1 at the end of input.  A missing number is reported and counts as 0. -/
def read (port : ConsolePort) (console : Console) : Int × Console :=
  match port with
  | character =>
    match console.getByte with
    | (some byte, console) => (byte.toNat, console)
    | (none, console) => (-1, console)
  | numeric =>
    let console := if console.interactive then console.put [63] else console
    match console.readNumber with
    | (some value, console) => (value, console)
    | (none, console) => (0, console.report .noNumber)

/-- A character is the lowest byte of the data; a number is written in decimal on a line. -/
def write (port : ConsolePort) (console : Console) (data : Int) : Console :=
  match port with
  | character => console.put [UInt8.ofInt data]
  | numeric => console.put (Console.asciiBytes (toString data) ++ [Console.lineFeed])

end ConsolePort

end ByteMachine
