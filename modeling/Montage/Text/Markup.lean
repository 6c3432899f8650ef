/-!
# Text inside markup

Markup puts tags in square brackets.  A text that happens to contain a tag is shown as it is
if the bracket has a backslash in front; backslashes before the bracket are doubled, and so
is a single one at the end.
-/

namespace Montage.Text

/-- Whether a character can be the first one of a tag. -/
def startsTag (c : Char) : Bool :=
  ('a' ≤ c && c ≤ 'z') || c == '#' || c == '/' || c == '@'

/-- Whether characters after an opening bracket make up a tag: they start like one, and a
closing bracket comes before any other opening one. -/
def isTag : List Char → Bool
  | [] => false
  | c :: cs =>
    startsTag c && (cs.dropWhile fun d => d ≠ '[' && d ≠ ']').head? == some ']'

/-- Backslashes before each tag doubled, and one more added; `run` is the number of
backslashes just passed. -/
def escapeTags (run : Nat) : List Char → List Char
  | [] => []
  | c :: cs =>
    if c = '\\' then c :: escapeTags (run + 1) cs
    else if c = '[' && isTag cs then
      List.replicate (run + 1) '\\' ++ '[' :: escapeTags 0 cs
    else c :: escapeTags 0 cs

/-- Whether the last character is a backslash and the one before it is none. -/
def endsWithOne (cs : List Char) : Bool :=
  match cs.reverse with
  | '\\' :: '\\' :: _ => false
  | '\\' :: _ => true
  | _ => false

/-- A text that shows as it is inside markup. -/
def escapeMarkup (s : String) : String :=
  let cs := escapeTags 0 s.toList
  String.ofList (if endsWithOne cs then cs ++ ['\\'] else cs)

end Montage.Text
