import ByteMachine.Config.Value

/-!
Documents as a reader gives them.  A document consists of objects that may be shared and may contain
themselves, so the parts of a collection are given by their numbers.
-/

namespace ByteMachine

inductive Object where
  | scalar (value : Value)
  | list (items : List Nat)
  | mapping (entries : List (Value × Nat))
  deriving Repr

structure Document where
  objects : Array Object
  root : Nat

inductive ReadFailure where
  | malformed
  | undecodable
  | other (name message : String)
  deriving DecidableEq, Repr

abbrev DocumentReader := List UInt8 → Except ReadFailure Document

namespace Document

def object (document : Document) (number : Nat) : Object :=
  document.objects[number]?.getD (.scalar .null)

def valueInside (document : Document) : Nat → List Nat → Nat → Value
  | 0, _, _ => .null
  | fuel + 1, around, number =>
    let part := document.valueInside fuel (number :: around)
    match document.object number with
    | .scalar value => value
    | .list items => if number ∈ around then .recurring false else .list (items.map part)
    | .mapping entries =>
      if number ∈ around then .recurring true
      else .mapping (entries.map fun (key, content) => (key, part content))

def value (document : Document) (number : Nat) : Value :=
  document.valueInside (document.objects.size + 1) [] number

/-- The entries of a mapping; those of everything that does not count as given are none. -/
def entries? (document : Document) (number : Nat) : Option (List (Value × Nat)) :=
  match document.object number with
  | .mapping entries => some entries
  | .list items => if items.isEmpty then some [] else none
  | .scalar value => if value.truthy then none else some []

end Document

end ByteMachine
