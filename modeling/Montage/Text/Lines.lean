/-!
# Lines

A text is cut into lines at each line feed and at each pair of carriage return and line
feed; a carriage return elsewhere is part of its line.  There is always at least one line,
and the last one is empty if the text ends with a line break.
-/

namespace Montage.Text

/-- The lines of a list of characters. -/
def splitLines : List Char → List (List Char)
  | [] => [[]]
  | '\r' :: '\n' :: cs => [] :: splitLines cs
  | '\n' :: cs => [] :: splitLines cs
  | c :: cs =>
    match splitLines cs with
    | [] => [[c]]
    | line :: rest => (c :: line) :: rest

/-- The lines of a text. -/
def lines (s : String) : List String :=
  (splitLines s.toList).map String.ofList

/-- Lists of characters joined by line feeds. -/
def joinLines : List (List Char) → List Char
  | [] => []
  | [line] => line
  | line :: rest => line ++ '\n' :: joinLines rest

/-- Texts joined by line feeds. -/
def unlines (ls : List String) : String :=
  String.ofList (joinLines (ls.map String.toList))

end Montage.Text
