import Montage.Arrangement.Merge

/-!
# Putting lists into order by merging stretches

`adapted` cuts a list into stretches that are in order already, makes short ones longer by
insertion, and merges neighbouring stretches until one is left.  Which neighbours are merged
first follows the *depth* of the border between them in the balanced tree over the whole
list: a border that lies deeper is removed before one that lies less deep.

Like every stable sort it puts a list into order where there is one.  Where the relation is
no order, because some elements compare with nothing, the result depends on which elements
are compared, and it is this sequence of comparisons that decides.
-/

namespace Montage.Arrangement

variable {α : Type} (precedes : α → α → Bool)

/-! ### Stretches -/

/-- The elements at the front each of which stands in relation to the one before it, the
first to `x`, and what follows them. -/
def chain (related : α → α → Bool) (x : α) : List α → List α × List α
  | [] => ([], [])
  | y :: rest =>
    if related x y then
      let (linked, after) := chain related y rest
      (y :: linked, after)
    else ([], y :: rest)

/-- The stretch at the front of a list that is in order, or would be if it were turned around,
in its order, and what follows it. -/
def frontStretch : List α → List α × List α
  | x :: y :: rest =>
    if precedes y x then
      let (linked, after) := chain (fun a b => precedes b a) y rest
      ((x :: y :: linked).reverse, after)
    else
      let (linked, after) := chain (fun a b => !precedes b a) y rest
      (x :: y :: linked, after)
  | l => (l, [])

/-- A stretch with one more element, at the place that bisection finds. -/
def extend (l : List α) (x : α) : List α :=
  let place := bisect (fun y => !precedes x y) false l 0 l.length
  l.take place ++ x :: l.drop place

/-- The stretch at the front of a list, extended to a least length if the list is as long, and
what follows it. -/
def longStretch (least : Nat) (l : List α) : List α × List α :=
  let (stretch, after) := frontStretch precedes l
  let missing := least - stretch.length
  ((after.take missing).foldl (extend precedes) stretch, after.drop missing)

/-- The greatest power of two by which a length can be divided without getting below 32, or
one. -/
def pieces (length : Nat) : Nat :=
  if 64 ≤ length then 2 * pieces (length / 2) else 1

/-- The least length of the stretches of a list: its own length, divided by a power of two
and rounded up. -/
def leastLength (length : Nat) : Nat :=
  (length + pieces length - 1) / pieces length

/-- A list cut into long stretches. -/
def stretches (least : Nat) : Nat → List α → List (List α)
  | 0, _ => []
  | fuel + 1, l =>
    if l.isEmpty then []
    else
      let (stretch, after) := longStretch precedes least l
      stretch :: stretches least fuel after

/-! ### Borders -/

/-- The number of binary digits up to the first one in which the fractions `a / whole` and
`b / whole` differ, where `a < b < 2 * whole`. -/
def firstDifference (whole : Nat) : Nat → Nat → Nat → Nat
  | 0, _, _ => 0
  | fuel + 1, a, b =>
    if whole ≤ a then 1 + firstDifference whole fuel (2 * (a - whole)) (2 * (b - whole))
    else if whole ≤ b then 1
    else 1 + firstDifference whole fuel (2 * a) (2 * b)

/-- The depth of the border between two neighbouring stretches of a list: the first level of
the tree that halves the list again and again on which their middles are apart. -/
def depth (whole start left right : Nat) : Nat :=
  let middle := 2 * start + left
  firstDifference whole (whole + 1) middle (middle + left + right)

/-! ### Merging -/

/-- A stretch in its place, and the depth of the border behind it. -/
structure Stretch (α : Type) where
  items : List α
  /-- The number of elements before it. -/
  start : Nat
  depth : Nat := 0

/-- Two neighbouring stretches merged. -/
def Stretch.join (patience : Nat) (a b : Stretch α) : Stretch α × Nat :=
  let (items, patience) := merge precedes patience a.items b.items
  ({ a with items }, patience)

/-- The stretches so far, the last one first, where the last ones are merged as long as the
border between them lies deeper than a given depth, which becomes that of the border behind
the last one. -/
def joinDeeper (depth : Nat) : Nat → List (Stretch α) → List (Stretch α) × Nat
  | patience, b :: a :: rest =>
    if depth < a.depth then
      let (joined, patience) := Stretch.join precedes patience a b
      joinDeeper depth patience (joined :: rest)
    else ({ b with depth } :: a :: rest, patience)
  | patience, [a] => ([{ a with depth }], patience)
  | patience, [] => ([], patience)
termination_by _ l => l.length

/-- The stretches so far with the next one of a list of a given length. -/
def addStretch (whole : Nat) (sofar : List (Stretch α) × Nat) (items : List α) :
    List (Stretch α) × Nat :=
  match sofar with
  | ([], patience) => ([{ items, start := 0 }], patience)
  | (last :: rest, patience) =>
    let d := depth whole last.start last.items.length items.length
    let (joined, patience) := joinDeeper precedes d patience (last :: rest)
    ({ items, start := last.start + last.items.length } :: joined, patience)

/-- All stretches merged, from the end on; of the last three the shorter one of the outer
two is merged with the middle one. -/
def joinAll : Nat → List (Stretch α) → List α
  | patience, c :: b :: a :: rest =>
    if a.items.length < c.items.length then
      let (joined, patience) := Stretch.join precedes patience a b
      joinAll patience (c :: joined :: rest)
    else
      let (joined, patience) := Stretch.join precedes patience b c
      joinAll patience (joined :: a :: rest)
  | patience, [b, a] => (Stretch.join precedes patience a b).1.items
  | _, [a] => a.items
  | _, [] => []
termination_by _ l => l.length

/-- A list put into order. -/
def adapted (l : List α) : List α :=
  let whole := l.length
  let cut := stretches precedes (leastLength whole) whole l
  let (joined, patience) := cut.foldl (addStretch precedes whole) ([], Merge.worthwhile)
  joinAll precedes patience joined

end Montage.Arrangement
