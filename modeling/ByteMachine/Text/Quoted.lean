import ByteMachine.Hex
import ByteMachine.Text.Half
import ByteMachine.Text.Printable

/-!
Texts in quotes.  The quotes are single unless the text holds single quotes and no double ones.
Characters that cannot be shown are written by their code.
-/

namespace ByteMachine.Text

def quoteMark (text : String) : Char :=
  if text.contains '\'' && !text.contains '"' then '"' else '\''

def escapedCode (n : Nat) : String :=
  if n < 0x100 then "\\x" ++ Hex.padZeros 2 (Hex.lower n)
  else if n < 0x10000 then "\\u" ++ Hex.padZeros 4 (Hex.lower n)
  else "\\U" ++ Hex.padZeros 8 (Hex.lower n)

def quotedCode (mark : Char) (code : Nat) : String :=
  let c := Char.ofNat code
  if c = mark ∨ c = '\\' then String.ofList ['\\', c]
  else if c = '\t' then "\\t"
  else if c = '\n' then "\\n"
  else if c = '\r' then "\\r"
  else if isPrintable c then String.singleton c
  else escapedCode code

def quoted (text : String) : String :=
  let mark := quoteMark text
  String.singleton mark ++ String.join ((codes text).map (quotedCode mark)) ++ String.singleton mark

/-- A text as it is written to a stream of characters, halves by their code. -/
def written (text : String) : String :=
  String.join <| (codes text).map fun code =>
    if isHalfCode code then escapedCode code else String.singleton (Char.ofNat code)

def quotedBytes (content : List UInt8) : String :=
  let mark := quoteMark (String.ofList (content.map fun byte => Char.ofNat byte.toNat))
  let quotedByte (byte : UInt8) : String :=
    if byte < 0x80 then quotedCode mark byte.toNat else "\\x" ++ Hex.byte byte
  "b" ++ String.singleton mark ++ String.join (content.map quotedByte) ++ String.singleton mark

end ByteMachine.Text
