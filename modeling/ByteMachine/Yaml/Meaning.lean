import ByteMachine.Config.Value
import ByteMachine.Numeral
import ByteMachine.Text.Lower
import ByteMachine.Yaml.Failure
import ByteMachine.Yaml.Tag

/-!
Meanings of scalars: how a text is read once its tag is known.  A tag that is written out may stand
at a text that does not read as the tag says.
-/

namespace ByteMachine.Yaml

def radixOr (base : Nat) (text : List Char) : Except Failure Int :=
  match Numeral.inBase? base text with
  | some n => .ok n
  | none => .error (.notInteger base (String.ofList text))

def splitColons : List Char → List (List Char)
  | [] => [[]]
  | c :: rest =>
    match splitColons rest with
    | [] => [[c]]
    | part :: parts => if c = ':' then [] :: part :: parts else (c :: part) :: parts

def withoutUnderscores (text : String) : List Char := text.toList.filter (· ≠ '_')

/-- An integer without its sign: in base two or sixteen by its mark, in base eight with a zero in
front, in sixties with colons, else in base ten. -/
def readMagnitude (text : List Char) : Except Failure Int :=
  match text with
  | [] => .error .empty
  | ['0'] => .ok 0
  | '0' :: 'b' :: digits => radixOr 2 digits
  | '0' :: 'x' :: digits => radixOr 16 digits
  | '0' :: _ => radixOr 8 text
  | _ =>
    if text.contains ':' then
      ((splitColons text).mapM (radixOr 10)).map fun parts =>
        parts.foldl (fun value part => 60 * value + part) 0
    else radixOr 10 text

def readInt (text : String) : Except Failure Int :=
  let bare := withoutUnderscores text
  (readMagnitude (Decimal.unsigned bare)).map fun n => if bare.head? = some '-' then -n else n

def doubleOr (text : List Char) : Except Failure Double :=
  match Decimal.read? text with
  | some x => .ok x
  | none => .error (.notNumber (String.ofList text))

def multiplyAdd (x y z : Double) : Double :=
  ⟨(Float.ofBits x.bits + Float.ofBits y.bits * Float.ofBits z.bits).toBits⟩

def sumSixties (worth : Nat) (sum : Double) : List Double → Except Failure Double
  | [] => .ok sum
  | part :: rest =>
    let factor := Double.ofRatio false worth 1
    if factor.meaning = .infinite then .error .tooLarge
    else sumSixties (60 * worth) (multiplyAdd sum part factor) rest

/-- A floating point number.  Undefined ones are told apart by the number of their node, but those
that are spelled as such are all the same. -/
def readFloat (node : Nat) (text : String) : Except Failure Double := do
  let bare := (Text.lower (String.ofList (withoutUnderscores text))).toList
  let negative : Bool := bare.head? = some '-'
  let size := Decimal.unsigned bare
  if bare.isEmpty then .error .empty
  else if size = ".inf".toList then return Double.infinity negative
  else if size = ".nan".toList then return Double.notANumber
  else
    let x ←
      if size.contains ':' then do
        let parts ← (splitColons size).mapM doubleOr
        sumSixties 1 (Double.ofMagnitude false 0) parts.reverse
      else doubleOr size
    if x.meaning = .undefined then return Double.undefined (node + 1)
    else return if negative then x.negate else x

def readBool (text : String) : Except Failure Bool :=
  let word := Text.lower text
  if trueWords.contains word then .ok true
  else if falseWords.contains word then .ok false
  else .error (.notBoolean text)

def Tag.read (tag : Tag) (node : Nat) (text : String) : Except Failure Value :=
  match tag with
  | .null => .ok .null
  | .bool => (readBool text).map .bool
  | .int => (readInt text).map .int
  | .float => (readFloat node text).map .float
  | .text => .ok (.text text)
  | _ => .error .malformed

end ByteMachine.Yaml
