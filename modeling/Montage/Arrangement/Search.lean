/-!
# Sorted lists

`inserted` puts a list into order by insertion: each element is put in front of those of its
followers that it does not come after.  Where the relation is a strict order, or compares by
keys that are ordered, the result is the list in order, and elements of equal keys keep
their order.

The elements at the front of a list that satisfy a condition are counted without a look at
all of them, on the understanding that no later element satisfies it.  `bisect` halves a
range of positions, and `lead` finds the range first, by steps that grow twofold.  For a
list in which the condition holds here and there the count depends on the positions looked
at, and these are fixed: of the two middles of a range of even length `bisect` takes the
upper one, unless it is asked for the lower one.
-/

namespace Montage.Arrangement

variable {α : Type}

/-! ### Insertion -/

section

variable (precedes : α → α → Bool)

/-- The list with `x` put before its first element that does not precede it. -/
def insert (x : α) : List α → List α
  | [] => [x]
  | y :: rest => if precedes y x then y :: insert x rest else x :: y :: rest

/-- The list with its elements inserted one by one, the last one first. -/
def inserted (l : List α) : List α :=
  l.foldr (insert precedes) []

end

/-! ### Search -/

variable (p : α → Bool)

/-- The number of elements that satisfy `p`, where it is at least `low` and at most `high`. -/
def bisect (lower : Bool) (l : List α) (low high : Nat) : Nat :=
  if low < high then
    let width := high - low
    let middle := low + (if lower then (width - 1) / 2 else width / 2)
    if l[middle]?.any p then bisect lower l (middle + 1) high else bisect lower l low middle
  else low
termination_by high - low
decreasing_by all_goals grind

/-- A range for the number of elements that satisfy `p`, given that the element at position
`known` does and that the one at `next` is to be looked at: the greatest position seen where
`p` holds, and the first one where it fails. -/
def widen (l : List α) (known next : Nat) : Nat × Nat :=
  if next < l.length then
    if l[next]?.any p then widen l next (2 * next + 1) else (known, next)
  else (known, l.length)
termination_by l.length - next

/-- The number of elements at the front that satisfy `p`. -/
def lead (lower : Bool) (l : List α) : Nat :=
  if l.head?.any p then
    let (known, next) := widen p l 0 1
    bisect p lower l (known + 1) next
  else 0

end Montage.Arrangement
