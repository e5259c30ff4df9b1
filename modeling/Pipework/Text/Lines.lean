/-!
Lines of a text, and the indentation of code.
-/

namespace Pipework.Text

/-! ## Lines -/

/-- The lines of a text. A line feed ends a line and belongs to none; a carriage return
right before it goes with it. What follows the last line feed is a line only when it is not
empty, so a closing line feed adds no empty line. -/
def lines : List Char → List (List Char)
  | [] => []
  | '\n' :: rest => [] :: lines rest
  | '\r' :: '\n' :: rest => [] :: lines rest
  | first :: rest =>
      match lines rest with
      | [] => [[first]]
      | line :: more => (first :: line) :: more

/-- The lines of a text, as texts. -/
def linesOf (text : String) : List String :=
  (lines text.toList).map String.ofList

/-- A text of lines, each with a line feed behind it. -/
def ofLines (lines : List String) : String :=
  String.join (lines.map fun line => line ++ "\n")

/-! ## Indentation -/

/-- Puts `levels` tabs before every line that is not empty. The lines of the result stand
apart by line feeds, and no line feed closes it. -/
def indent (levels : Nat) (code : String) : String :=
  let tabs := String.ofList (List.replicate levels '\t')
  String.intercalate "\n" <|
    (linesOf code).map fun line => if line.isEmpty then "" else tabs ++ line

end Pipework.Text
