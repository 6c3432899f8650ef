import Montage.Program.Display

/-!
# What is shown, as plain text

A terminal without styles shows the text of markup without its tags, and a table as columns
of equal width.
-/

namespace Montage.PlainText

/-- The text that markup shows: tags removed, and the backslashes before brackets resolved.
`run` is the number of backslashes just passed. -/
def withoutTags (run : Nat) : List Char → List Char
  | [] => List.replicate run '\\'
  | c :: cs =>
    if c = '\\' then withoutTags (run + 1) cs
    else if c = '[' && Text.isTag cs then
      if run % 2 = 1 then List.replicate (run / 2) '\\' ++ '[' :: withoutTags 0 cs
      else List.replicate (run / 2) '\\' ++ withoutTags 0 ((cs.dropWhile (· ≠ ']')).drop 1)
    else List.replicate run '\\' ++ c :: withoutTags 0 cs
termination_by cs => cs.length
decreasing_by
  all_goals simp only [List.length_cons, List.length_drop]
  · omega
  · omega
  · have := (List.dropWhile_sublist (l := cs) (· ≠ ']')).length_le
    omega
  · omega

/-- The text that markup shows. -/
def ofMarkup (markup : String) : String :=
  String.ofList (withoutTags 0 markup.toList)

/-- The greater of the widths at each place. -/
def widest : List Nat → List Nat → List Nat
  | a :: as, b :: bs => max a b :: widest as bs
  | [], bs => bs
  | as, [] => as

/-- A text with blanks after it up to a width. -/
def leftAligned (width : Nat) (s : String) : String :=
  String.ofList (s.toList ++ List.replicate (width - s.length) ' ')

/-- The cells of a row, each filled up to the width of its column. -/
def fill : List (String × Bool) → List Nat → List String → List String
  | (_, right) :: columns, width :: widths, cell :: cells =>
    (if right then Display.rightAligned width cell else leftAligned width cell)
      :: fill columns widths cells
  | _, _, _ => []

/-- The lines of a table: its title, the names of its columns and its rows. -/
def ofTable (t : Display.Table) : List String :=
  let header := t.columns.map (·.1)
  let rows := header :: t.rows.map fun r => r.cells.map ofMarkup
  let widths := rows.foldl (fun widths r => widest widths (r.map (·.length))) []
  t.title :: rows.map fun r => "  ".intercalate (fill t.columns widths r)

/-- The lines of something shown. -/
def ofDisplay : Display → List String
  | .log line => [line]
  | .lookup _ | .sleep _ => []
  | .print markup | .status markup => [ofMarkup markup]
  | .panel body title => [ofMarkup title, ofMarkup body]
  | .table t => ofTable t
  | .json text => [text]

end Montage.PlainText
