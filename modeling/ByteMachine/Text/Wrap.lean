/-!
Breaking a line of text to a width.  A break goes in front of a word that does not fit any more; a
word that is wider than a whole line is cut.  Blanks after a word belong to it, but do not count
when it is asked whether the word fits, and blanks beyond the width are dropped at a break.
-/

namespace ByteMachine.Text

def isWordGap (c : Char) : Bool := c = ' '

def takeWord (text : List Char) : List Char × List Char :=
  let (before, rest) := text.span isWordGap
  let (word, rest) := rest.span (!isWordGap ·)
  let (after, rest) := rest.span isWordGap
  (before ++ word ++ after, rest)

/-- Words of a text, at most the given number; blanks alone are no word. -/
def splitWords : Nat → List Char → List (List Char)
  | 0, _ => []
  | count + 1, text =>
    if text.all isWordGap then []
    else
      let (word, rest) := takeWord text
      word :: splitWords count rest

def words (text : List Char) : List (List Char) := splitWords text.length text

def trimRight (text : List Char) : List Char := (text.reverse.dropWhile isWordGap).reverse

def chop (width : Nat) : Nat → List Char → List (List Char)
  | 0, text => [text]
  | count + 1, text =>
    if text.length ≤ width then [text] else text.take width :: chop width count (text.drop width)

structure Layout where
  done : List (List Char) := []
  current : List Char := []

def Layout.place (width : Nat) (layout : Layout) (word : List Char) : Layout :=
  let length := (trimRight word).length
  if layout.current.length + length ≤ width then { layout with current := layout.current ++ word }
  else if width < length then
    let pieces := chop width word.length word
    let done := if layout.current.isEmpty then layout.done else layout.done ++ [layout.current]
    ⟨done ++ pieces.dropLast, pieces.getLast?.getD []⟩
  else if layout.current.isEmpty then { layout with current := word }
  else ⟨layout.done ++ [layout.current], word⟩

def trimExcess (width : Nat) (line : List Char) : List Char :=
  let kept := trimRight line
  line.take (max kept.length (min line.length width))

def wrap (width : Nat) (text : String) : List String :=
  let layout := (words text.toList).foldl (Layout.place width) {}
  (layout.done ++ [layout.current]).map fun line => String.ofList (trimExcess width line)

end ByteMachine.Text
