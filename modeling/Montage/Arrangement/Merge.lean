import Montage.Arrangement.Search

/-!
# Merging two stretches

Two lists in order are merged from the front or from the back.  As long as they take turns,
their elements are compared one by one; when one list has won often enough in a row, the
elements to take are counted by `lead` before they are taken.  How often is often enough is
the *patience*: it falls while counting pays and rises when that ends, and it goes on from
one merge to the next.

The merge ends early when one list has a single element left that is known to come last.
With a relation that is no order this is what decides the place of that element.
-/

namespace Montage.Arrangement

variable {α : Type}

/-- The rules of a merge of a left and a right list, both in the order in which they are
consumed. -/
structure Merge (α : Type) where
  /-- Whether an element of the left list is consumed before one of the right list. -/
  leftFirst : α → α → Bool
  /-- Whether it is the left list whose last element ends the merge. -/
  leftAside : Bool
  /-- Which middle of a range the searches take. -/
  lower : Bool

/-- A merge under way. -/
structure Merging (α : Type) where
  /-- The elements consumed, the latest first. -/
  taken : List α := []
  left : List α
  right : List α

namespace Merging

/-- Elements consumed from the left. -/
def takeLeft (m : Merging α) (count : Nat) : Merging α :=
  { m with taken := (m.left.take count).reverse ++ m.taken, left := m.left.drop count }

/-- Elements consumed from the right. -/
def takeRight (m : Merging α) (count : Nat) : Merging α :=
  { m with taken := (m.right.take count).reverse ++ m.taken, right := m.right.drop count }

/-- All elements in the order of their consumption, if `rest` is how it ends. -/
def finish (m : Merging α) (rest : List α) : List α :=
  m.taken.reverse ++ rest

end Merging

namespace Merge

variable (r : Merge α)

/-- What remains of the list that ends a merge by its last element and of the other one, if
nothing is left to compare. -/
def remainder? : List α → List α → Option (List α)
  | aside, [] => some aside
  | [], other => some other
  | [x], other => some (other ++ [x])
  | _, _ => none

/-- The merge itself if it is to go on, and its result otherwise. -/
def ongoing (m : Merging α) : Except (List α) (Merging α) :=
  let rest := if r.leftAside then remainder? m.left m.right else remainder? m.right m.left
  match rest with
  | some rest => .error (m.finish rest)
  | none => .ok m

/-- One element consumed after a comparison, and whether it was from the left. -/
def step (m : Merging α) : Merging α × Bool :=
  match m.left, m.right with
  | x :: _, y :: _ =>
    if r.leftFirst x y then (m.takeLeft 1, true) else (m.takeRight 1, false)
  | _, _ => (m, true)

/-- Elements counted and consumed from both lists in turn, and the greater of the two
counts. -/
def stride (m : Merging α) : Except (List α) (Merging α × Nat) := do
  let lefts :=
    match m.right with
    | y :: _ => lead (r.leftFirst · y) r.lower m.left
    | [] => 0
  let m ← r.ongoing (m.takeLeft lefts)
  let m ← r.ongoing (m.takeRight 1)
  let rights :=
    match m.left with
    | x :: _ => lead (!r.leftFirst x ·) r.lower m.right
    | [] => 0
  let m ← r.ongoing (m.takeRight rights)
  let m ← r.ongoing (m.takeLeft 1)
  return (m, max lefts rights)

/-- Counts of this size make it pay to count. -/
def worthwhile : Nat := 7

/-- How a merge proceeds. -/
inductive Pace where
  /-- By comparisons, where one side, the left one or not, has won so often in a row. -/
  | stepping (left : Bool) (wins : Nat)
  /-- By counts. -/
  | striding

/-- The pace after one more comparison. -/
def Pace.after (patience : Nat) (left won : Bool) (wins : Nat) : Pace :=
  let wins := if left = won then wins + 1 else 1
  if patience ≤ wins then striding else stepping won wins

/-- Patience that gives in, but never below one. -/
def relaxed (patience : Nat) : Nat :=
  if 1 < patience then patience - 1 else patience

/-- The result of a merge and the patience left.  `fuel` bounds the number of comparisons
and counts. -/
def run : Nat → Nat → Pace → Merging α → List α × Nat
  | 0, patience, _, m => (m.finish (m.left ++ m.right), patience)
  | fuel + 1, patience, .stepping left wins, m =>
    let (m, won) := r.step m
    match r.ongoing m with
    | .error result => (result, patience)
    | .ok m => run fuel patience (.after patience left won wins) m
  | fuel + 1, patience, .striding, m =>
    match r.stride m with
    | .error result => (result, patience)
    | .ok (m, count) =>
      if worthwhile ≤ count then run fuel (relaxed patience) .striding m
      else run fuel (patience + 1) (.stepping true 0) m

/-- The merge of two lists of which the first element of one, the one that does not end the
merge, comes first. -/
def start (patience : Nat) (left right : List α) : List α × Nat :=
  let m : Merging α := { left, right }
  let m := if r.leftAside then m.takeRight 1 else m.takeLeft 1
  match r.ongoing m with
  | .error result => (result, patience)
  | .ok m => r.run (left.length + right.length) patience (.stepping true 0) m

end Merge

/-- Two lists merged from the front. -/
def mergeFront (precedes : α → α → Bool) (patience : Nat) (a b : List α) : List α × Nat :=
  let r : Merge α :=
    { leftFirst := fun x y => !precedes y x, leftAside := true, lower := false }
  r.start patience a b

/-- Two lists merged from the back. -/
def mergeBack (precedes : α → α → Bool) (patience : Nat) (a b : List α) : List α × Nat :=
  let r : Merge α := { leftFirst := fun x y => precedes y x, leftAside := false, lower := true }
  let (result, patience) := r.start patience a.reverse b.reverse
  (result.reverse, patience)

/-- Two lists merged.  What is in its place already at both ends stays there, and what
remains is merged from the side of the shorter list. -/
def merge (precedes : α → α → Bool) (patience : Nat) (a b : List α) : List α × Nat :=
  match b, a.getLast? with
  | y :: _, some x =>
    let front := a.take (lead (fun z => !precedes y z) false a)
    let back := lead (fun z => !precedes z x) true b.reverse
    let left := a.drop front.length
    let right := b.take (b.length - back)
    let (middle, patience) :=
      if left.isEmpty || right.isEmpty then (left ++ right, patience)
      else if left.length ≤ right.length then mergeFront precedes patience left right
      else mergeBack precedes patience left right
    (front ++ middle ++ b.drop right.length, patience)
  | _, _ => (a ++ b, patience)

end Montage.Arrangement
