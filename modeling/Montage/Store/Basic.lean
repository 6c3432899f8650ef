import Montage.Arrangement.Adaptive
import Montage.Segment

/-!
# The store of segments

A `Store` lists segments in order and hands out ids.  Each segment it holds has a tag, so
that a command that has listed some segments can still tell them from others after
observers have changed the store: two holdings with one tag are the same record, seen at
two moments.  Records that the store no longer lists are kept under `former` in the form
they had last.

Segments are listed by their start, and by their id where they start together.
`Segment.arranged` puts a list into this order.  A start that is not a number compares with
nothing, so a list with one has no order; what becomes of it is left to the sequence of
comparisons of `Arrangement.adapted`.  For all other lists any stable sort gives the same
result, and insertion is the plainest.
-/

namespace Montage

namespace Segment

/-- Whether one segment comes before another. -/
def precedes (a b : Segment) : Bool :=
  if a.start.equals b.start then a.id < b.id else a.start < b.start

/-- A list put into order, by the segment that each element holds. -/
def arranged {α : Type} (segment : α → Segment) (l : List α) : List α :=
  let before := fun a b => (segment a).precedes (segment b)
  if l.all fun a => (segment a).start ≠ .nan then Arrangement.inserted before l
  else Arrangement.adapted before l

end Segment

/-- A record of a store. -/
structure Held where
  tag : Nat
  segment : Segment
  deriving DecidableEq

/-- Segments in order, with the ids given out. -/
structure Store where
  /-- The records listed, in order. -/
  held : List Held := []
  /-- Records listed earlier, the latest first. -/
  former : List Held := []
  /-- The next id to give out. -/
  nextId : Int := 1
  /-- The next tag to give out. -/
  nextTag : Nat := 0

namespace Store

/-! ### Queries -/

/-- The segments listed. -/
def segments (s : Store) : List Segment :=
  s.held.map (·.segment)

/-- The number of segments listed. -/
def size (s : Store) : Nat :=
  s.held.length

/-- The first record with a given id. -/
def find? (s : Store) (id : Int) : Option Held :=
  s.held.find? (·.segment.id == id)

/-- The first segment with a given id. -/
def get? (s : Store) (id : Int) : Option Segment :=
  (s.find? id).map (·.segment)

/-- The segment under a tag as it is now, or as it was last. -/
def current? (s : Store) (tag : Nat) : Option Segment :=
  ((s.held ++ s.former).find? (·.tag == tag)).map (·.segment)

/-- The records that overlap a range. -/
def overlapping (s : Store) (start stop : Double) : List Held :=
  s.held.filter (·.segment.overlaps start stop)

/-- The first segment that contains a time. -/
def at? (s : Store) (time : Double) : Option Segment :=
  s.segments.find? (·.contains time)

/-- The first segment that a time lies strictly inside of. -/
def enclosing? (s : Store) (time : Double) : Option Segment :=
  s.segments.find? (·.encloses time)

/-- The visible segments. -/
def visible (s : Store) : List Segment :=
  s.segments.filter (·.visible)

/-- Segments laid end to end from a time on, each with the time it starts at. -/
def layOut (cursor : Double) : List Segment → List (Double × Segment)
  | [] => []
  | x :: rest => (cursor, x) :: layOut (cursor + x.duration) rest

/-- The visible segments laid end to end. -/
def assembled (s : Store) : List (Double × Segment) :=
  layOut .zero s.visible

/-- The length of the visible segments together, as a runtime adds it up. -/
def assembledDuration (s : Store) (how : Double.Summation) : Double :=
  Double.sum how (s.visible.map (·.duration))

/-! ### Changes -/

/-- Records put into order. -/
def arrange (l : List Held) : List Held :=
  Segment.arranged (·.segment) l

/-- The store with a record added under a new tag. -/
def hold (s : Store) (segment : Segment) : Store × Held :=
  let record : Held := ⟨s.nextTag, segment⟩
  ({ s with held := arrange (s.held ++ [record]), nextTag := s.nextTag + 1 }, record)

/-- The store with a clip added, under the given id or the next one to give out.  A given id
must not be taken; ids are then given out from the one after it. -/
def insert (s : Store) (clip : Clip) (id : Option Int) : Except Fault (Store × Held) :=
  match id with
  | none =>
    .ok ({ s with nextId := s.nextId + 1 }.hold ⟨clip, s.nextId⟩)
  | some id =>
    if (s.get? id).isSome then .error (.duplicateId id)
    else .ok ({ s with nextId := max s.nextId (id + 1) }.hold ⟨clip, id⟩)

/-- The store without the first record of a given id, and that record. -/
def erase (s : Store) (id : Int) : Option (Store × Held) :=
  (s.find? id).map fun record =>
    ({ s with
      held := s.held.eraseP (·.segment.id == id)
      former := record :: s.former }, record)

/-- A list with the first element that satisfies `p` replaced by `x`. -/
def replaceFirst {α : Type} (p : α → Bool) (x : α) : List α → List α
  | [] => []
  | y :: rest => if p y then x :: rest else y :: replaceFirst p x rest

/-- The store with the first record of the same id replaced by a given one; `none` if there
is no such record. -/
def replace (s : Store) (record : Held) : Option Store :=
  (s.find? record.segment.id).map fun old =>
    { s with
      held := arrange (replaceFirst (·.segment.id == record.segment.id) record s.held)
      former := old :: s.former }

/-- The store with the record under a tag changed in place.  Neither its place in the list
nor its id is looked at again. -/
def amend (s : Store) (tag : Nat) (f : Segment → Segment) : Store :=
  let change := fun (h : Held) => if h.tag == tag then { h with segment := f h.segment } else h
  { s with held := s.held.map change, former := s.former.map change }

/-- The store without segments, giving out ids from 1 again. -/
def cleared (s : Store) : Store :=
  { s with held := [], former := s.held ++ s.former, nextId := 1 }

end Store

end Montage
