import ByteMachine.Decimal.Shortest
import ByteMachine.Text.Quoted

/-!
The values that a configuration is made of: scalars, lists and mappings that keep the order in which
their keys were given.
-/

namespace ByteMachine

inductive Value where
  | null
  | bool (b : Bool)
  | int (n : Int)
  | float (x : Double)
  | text (s : String)
  | bytes (content : List UInt8)
  | list (items : List Value)
  | mapping (entries : List (Value × Value))
  | recurring (mapping : Bool)
  | other (kind bare inside : String) (given : Bool)
  deriving Inhabited, Repr

namespace Value

def numberStyle : Decimal.Style := ⟨-4, 16⟩

mutual

def written : Value → String
  | .null => "None"
  | .bool true => "True"
  | .bool false => "False"
  | .int n => toString n
  | .float x => Decimal.text numberStyle x
  | .text s => Text.quoted s
  | .bytes content => Text.quotedBytes content
  | .list items => "[" ++ ", ".intercalate (writtenItems items) ++ "]"
  | .mapping entries => "\x7b" ++ ", ".intercalate (writtenEntries entries) ++ "\x7d"
  | .recurring false => "[...]"
  | .recurring true => "\x7b...\x7d"
  | .other _ _ inside _ => inside

def writtenItems : List Value → List String
  | [] => []
  | item :: rest => written item :: writtenItems rest

def writtenEntries : List (Value × Value) → List String
  | [] => []
  | (key, value) :: rest => (written key ++ ": " ++ written value) :: writtenEntries rest

end

/-- A value as a message shows it: a text stands for itself. -/
def shown : Value → String
  | .text s => s
  | .other _ bare _ _ => bare
  | value => value.written

/-- Does the value count as given?  Null, false, zero and everything empty do not. -/
def truthy : Value → Bool
  | .null => false
  | .bool b => b
  | .int n => n ≠ 0
  | .float x => !x.isZero
  | .text s => s ≠ ""
  | .bytes content => !content.isEmpty
  | .list items => !items.isEmpty
  | .mapping entries => !entries.isEmpty
  | .recurring _ => true
  | .other _ _ _ given => given

def fraction? : Value → Option (Int × Nat)
  | .bool b => some (if b then 1 else 0, 1)
  | .int n => some (n, 1)
  | .float x =>
    match x.meaning with
    | .finite significand exponent =>
      let magnitude : Nat := significand * Nat.pow 2 exponent.toNat
      some (if x.negative then -(magnitude : Int) else magnitude, Nat.pow 2 (-exponent).toNat)
    | _ => none
  | _ => none

def sameKey (a b : Value) : Bool :=
  match a, b with
  | .null, .null => true
  | .text s, .text t => s = t
  | .bytes s, .bytes t => s = t
  | .other kind _ inside _, .other kind' _ inside' _ => kind = kind' ∧ inside = inside'
  | a, b =>
    match a.fraction?, b.fraction? with
    | some (n, d), some (m, e) => n * e = m * d
    | none, none =>
      match a, b with
      | .float x, .float y => x = y
      | _, _ => false
    | _, _ => false

/-- Sets what belongs to a key; a key that is there already keeps its place and its spelling. -/
def setKey {α : Type} (entries : List (Value × α)) (key : Value) (content : α) :
    List (Value × α) :=
  match entries with
  | [] => [(key, content)]
  | (k, c) :: rest =>
    if k.sameKey key then (k, content) :: rest else (k, c) :: setKey rest key content

def get? {α : Type} (entries : List (Value × α)) (key : String) : Option α :=
  (entries.find? fun entry => entry.1.sameKey (.text key)).map Prod.snd

end Value

end ByteMachine
