/-!
# Texts of paths

The text of a path holds names with slashes between them.  It can say the same in several
ways: slashes may be repeated or stand at the end, and a single point is a name that leads
nowhere.  Whoever is refused something is told the path as written, so changes to files work
on texts.

A text is divided after its last slash (`divided`), and the part above is never longer than
the text: `length_divided` and `length_stripped_above_lt`.
-/

namespace Montage.PathText

/-- Characters cut at each slash. -/
def cut : List Char → List (List Char)
  | [] => [[]]
  | c :: cs =>
    if c = '/' then [] :: cut cs
    else
      match cut cs with
      | [] => [[c]]
      | name :: rest => (c :: name) :: rest

/-- The names in the text of a path. -/
def names (path : String) : List String :=
  ((cut path.toList).filter (· ≠ [])).map String.ofList

/-- The number of slashes at the front of a text. -/
def slashes (path : String) : Nat :=
  (path.toList.takeWhile (· = '/')).length

/-- Whether a slash stands at the end of a text. -/
def endsInSlash (path : String) : Bool :=
  path.toList.getLast? = some '/'

/-- Whether a text has a null character in it. -/
def hasNull (path : String) : Bool :=
  path.toList.contains '\x00'

/-- Characters without the slashes at their end, unless they are nothing but slashes. -/
def bare (cs : List Char) : List Char :=
  let kept := (cs.reverse.dropWhile (· = '/')).reverse
  if kept.isEmpty then cs else kept

/-- What stands above the last slash of a text, and what stands after it. -/
def divided (path : String) : String × String :=
  let back := path.toList.reverse
  (String.ofList (bare (back.dropWhile (· ≠ '/')).reverse),
    String.ofList (back.takeWhile (· ≠ '/')).reverse)

/-- The path above the last name of a text, and that name.  Slashes at the end do not
count. -/
def stripped (path : String) : String × String :=
  if (divided path).2 = "" then divided (divided path).1 else divided path

/-! ### Lengths -/

theorem length_bare_le (cs : List Char) :
  (bare cs).length ≤ cs.length
  := by
  have := (cs.reverse.dropWhile_sublist (· = '/')).length_le
  unfold bare
  grind

theorem length_divided (path : String) :
  (divided path).1.toList.length + (divided path).2.toList.length ≤ path.toList.length
  := by
  have whole := congrArg List.length
    (List.takeWhile_append_dropWhile (p := (· ≠ '/')) (l := path.toList.reverse))
  have := length_bare_le ((path.toList.reverse.dropWhile (· ≠ '/')).reverse)
  simp only [divided, String.toList_ofList]
  grind

/-- A name at the end of a text makes the part above shorter. -/
theorem length_stripped_above_lt {path : String} (h : (stripped path).2 ≠ "") :
  (stripped path).1.toList.length < path.toList.length
  := by
  have first := length_divided path
  have second := length_divided (divided path).1
  have : 0 < (stripped path).2.toList.length := by
    rw [List.length_pos_iff]
    exact fun e => h (String.toList_eq_nil_iff.1 e)
  unfold stripped at this ⊢
  split <;> simp_all <;> omega

end Montage.PathText
