import ByteMachine.Decimal.Reading

/-!
Tags: what kind of value a node stands for.  Names give tags, and where a scalar has no name of a
tag, its text decides.
-/

namespace ByteMachine.Yaml

inductive Tag where
  | null
  | bool
  | int
  | float
  | text
  | sequence
  | mapping
  | merge
  | equals
  | unknown
  deriving DecidableEq, Repr

def standardStem : String := "tag:yaml.org,2002:"

def tagNames : List (String × Tag) :=
  [("null", .null), ("bool", .bool), ("int", .int), ("float", .float), ("str", .text),
    ("seq", .sequence), ("map", .mapping), ("merge", .merge), ("value", .equals)]

def Tag.ofName (name : String) : Tag :=
  match tagNames.find? fun entry => standardStem ++ entry.1 = name with
  | some (_, tag) => tag
  | none => .unknown

/-! Texts -/

def spelledLike (word text : String) : Bool :=
  text = word || text = word.capitalize || text = word.map Char.toUpper

def trueWords : List String := ["yes", "true", "on"]

def falseWords : List String := ["no", "false", "off"]

def isBoolText (text : String) : Bool := (trueWords ++ falseWords).any (spelledLike · text)

def isNullText (text : String) : Bool := text = "" || text = "~" || spelledLike "null" text

def isDigitOrUnderscore (c : Char) : Bool := c.isDigit || c = '_'

def nonEmptyAll (keep : Char → Bool) (text : List Char) : Bool := !text.isEmpty && text.all keep

def isSixties (fuel : Nat) (text : List Char) : Bool :=
  match fuel, text with
  | fuel + 1, ':' :: a :: rest =>
    match rest with
    | [] => a.isDigit
    | ':' :: _ => a.isDigit && isSixties fuel rest
    | b :: more =>
      '0' ≤ a && a ≤ '5' && b.isDigit && (more.isEmpty || isSixties fuel more)
  | _, _ => false

def isIntText (text : List Char) : Bool :=
  match Decimal.unsigned text with
  | '0' :: 'b' :: digits => nonEmptyAll (fun c => c = '0' || c = '1' || c = '_') digits
  | '0' :: 'x' :: digits =>
    nonEmptyAll (fun c => c = '_' || (c.toNat < 128 && (Text.hexDigit? c).isSome)) digits
  | '0' :: digits => digits.all fun c => c = '_' || ('0' ≤ c && c ≤ '7')
  | c :: rest =>
    c.isDigit &&
      let others := rest.dropWhile isDigitOrUnderscore
      others.isEmpty || isSixties others.length others
  | [] => false

def isExponentOrEmpty : List Char → Bool
  | [] => true
  | mark :: sign :: digits =>
    (mark = 'e' || mark = 'E') && (sign = '+' || sign = '-') && nonEmptyAll Char.isDigit digits
  | _ => false

def infinityTexts : List String := [".inf", ".Inf", ".INF"]

def undefinedTexts : List String := [".nan", ".NaN", ".NAN"]

def isSixtiesFloat (text : List Char) : Bool :=
  let (whole, rest) := text.span isDigitOrUnderscore
  let (groups, rest) := rest.span (· ≠ '.')
  (whole.head?.any Char.isDigit) && isSixties groups.length groups &&
    match rest with
    | '.' :: fraction => fraction.all isDigitOrUnderscore
    | _ => false

def isFloatText (text : List Char) : Bool :=
  let bare := Decimal.unsigned text
  let whole := bare.takeWhile isDigitOrUnderscore
  let rest := bare.dropWhile isDigitOrUnderscore
  let pointed :=
    match rest with
    | '.' :: fraction =>
      whole.head?.any Char.isDigit && isExponentOrEmpty (fraction.dropWhile isDigitOrUnderscore)
    | _ => false
  let leading :=
    match text with
    | '.' :: c :: rest => c.isDigit && isExponentOrEmpty (rest.dropWhile isDigitOrUnderscore)
    | _ => false
  pointed || leading || isSixtiesFloat bare || infinityTexts.contains (String.ofList bare) ||
    undefinedTexts.contains (String.ofList text)

def Tag.ofLine (text : String) : Tag :=
  if isBoolText text then .bool
  else if isFloatText text.toList then .float
  else if isIntText text.toList then .int
  else if text = "<<" then .merge
  else if isNullText text then .null
  else if text = "=" then .equals
  else if text = "!" ∨ text = "&" ∨ text = "*" then .unknown
  else .text

def Tag.ofText (text : String) : Tag :=
  match text.toList.reverse with
  | ['\n'] => .text
  | '\n' :: line => .ofLine (String.ofList line.reverse)
  | _ => .ofLine text

end ByteMachine.Yaml
