import ByteMachine.Text.Quoted

/-!
Why a text is no document, or a scalar not what its tag says.
-/

namespace ByteMachine.Yaml

inductive Failure where
  | malformed
  /-- Nodes are nested too deeply, or take their texts from each other in a circle. -/
  | tooDeep
  | notCharacter
  | tooLarge
  | notInteger (base : Nat) (text : String)
  | notNumber (text : String)
  | notBoolean (text : String)
  | empty
  deriving DecidableEq, Repr

def Failure.name : Failure → String
  | malformed => "form"
  | notInteger .. | notNumber _ | notCharacter => "value"
  | notBoolean _ => "key"
  | empty => "index"
  | tooLarge => "overflow"
  | tooDeep => "depth"

def Failure.shownLength : Nat := 200

def Failure.message : Failure → String
  | malformed => "the text is not well formed"
  | tooDeep => "nodes are nested too deeply"
  | notCharacter => "chr() arg not in range(0x110000)"
  | tooLarge => "a number is too large"
  | notInteger base text =>
    let shown := String.ofList ((Text.quoted text).toList.take shownLength)
    s!"invalid literal for int() with base {base}: {shown}"
  | notNumber text => s!"could not convert string to float: {Text.quoted text}"
  | notBoolean text => Text.quoted text
  | empty => "string index out of range"

def wellFormed {α : Type} : Option α → Except Failure α
  | some a => .ok a
  | none => .error .malformed

end ByteMachine.Yaml
