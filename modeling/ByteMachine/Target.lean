import ByteMachine.Config.Value
import ByteMachine.Files

/-!
Targets: where a configured value says that a file is.  A text is a path, if it can be turned into
bytes, and so are bytes.  A number stands for an open stream of that number; no stream can be
reached that way.  Nothing else is a target.
-/

namespace ByteMachine

/-- Why a value is no target, so that the file system is not even asked. -/
inductive TargetError where
  | notPath (kind : String)
  | negativeStream
  | strayHalf (stray : Text.Stray)
  | nullCharacter
  deriving DecidableEq, Repr

def TargetError.message : TargetError → String
  | notPath kind => s!"expected str, bytes or os.PathLike object, not {kind}"
  | negativeStream => "negative file descriptor"
  | strayHalf ⟨half, place, 1⟩ =>
    s!"'utf-8' codec can't encode character '{Text.escapedCode half}' in position {place}: " ++
      "surrogates not allowed"
  | strayHalf ⟨_, place, count⟩ =>
    s!"'utf-8' codec can't encode characters in position {place}-{place + count - 1}: " ++
      "surrogates not allowed"
  | nullCharacter => "embedded null byte"

inductive Target where
  | path (path : List UInt8)
  | stream (number : Nat)
  deriving DecidableEq, Repr

namespace Value

def kindName : Value → String
  | .null => "NoneType"
  | .bool _ => "bool"
  | .int _ => "int"
  | .float _ => "float"
  | .text _ => "str"
  | .bytes _ => "bytes"
  | .list _ | .recurring false => "list"
  | .mapping _ | .recurring true => "dict"
  | .other kind _ _ _ => kind

def streamBound : Int := 0x80000000

def target : Value → Except TargetError Target
  | .text path =>
    match Text.firstStray? path with
    | some stray => .error (.strayHalf stray)
    | none =>
      if path.contains '\x00' then .error .nullCharacter else .ok (.path (Text.bytes path))
  | .bytes path => if path.contains 0 then .error .nullCharacter else .ok (.path path)
  | .bool b => .ok (.stream b.toNat)
  | .int n =>
    if n < -streamBound ∨ streamBound ≤ n then .error (.notPath "int")
    else if n < 0 then .error .negativeStream
    else .ok (.stream n.toNat)
  | value => .error (.notPath value.kindName)

variable {path : String}

theorem not_contains_null (h : '\x00' ∉ path.toList) : ¬path.contains '\x00' := by
  simpa [String.contains_char_eq] using h

theorem text_target (hs : Text.firstStray? path = none) (hp : ¬path.contains '\x00') :
    (Value.text path).target = .ok (.path (Text.bytes path)) := by
  rw [Value.target, hs]
  exact if_neg hp

theorem text_stray {stray : Text.Stray} (hs : Text.firstStray? path = some stray) :
    (Value.text path).target = .error (.strayHalf stray) := by
  rw [Value.target, hs]

theorem text_null (hs : Text.firstStray? path = none) (hp : path.contains '\x00') :
    (Value.text path).target = .error .nullCharacter := by
  rw [Value.target, hs]
  exact if_pos hp

end Value

namespace FileTree

def readTarget (tree : FileTree) : Target → Except FileError (List UInt8)
  | .path path => tree.read path
  | .stream _ => .error .badStream

def createTarget (tree : FileTree) (content : List UInt8) : Target → Except FileError FileTree
  | .path path => tree.create path content
  | .stream _ => .error .badStream

end FileTree

end ByteMachine
