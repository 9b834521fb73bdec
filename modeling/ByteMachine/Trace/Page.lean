import ByteMachine.Text.Wrap
import ByteMachine.Trace

/-!
The layout of a terminal that is as wide as a page.  Columns are filled up with blanks and stand two
blanks apart; lines of a text are broken at the margin.
-/

namespace ByteMachine.Trace

def padRight (width : Nat) (text : String) : String :=
  text ++ String.ofList (List.replicate (width - text.length) ' ')

def columnWidth (column : String × String) : Nat := max column.1.length column.2.length

def columnRow (columns : List (String × String)) (side : String × String → String) : String :=
  "  ".intercalate (columns.map fun column => padRight (columnWidth column) (side column))

def splitLines : List Char → List (List Char)
  | [] => [[]]
  | c :: rest =>
    match splitLines rest with
    | [] => [[c]]
    | line :: lines => if c = '\n' then [] :: line :: lines else (c :: line) :: lines

def pageWidth : Nat := 80

def page : Layout where
  table columns := columnRow columns Prod.fst ++ "\n" ++ columnRow columns Prod.snd ++ "\n"
  paragraph text := String.join <| (splitLines text.toList).flatMap fun line =>
    (Text.wrap pageWidth (String.ofList line)).map (· ++ "\n")

end ByteMachine.Trace
