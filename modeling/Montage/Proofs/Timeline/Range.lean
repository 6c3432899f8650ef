import Mathlib.Data.List.Basic
import Montage.Proofs.Timeline.Edit

/-!
# Ranges of a timeline

A range verb acts on the segments that overlap a range one after the other, each found by its
tag.  Here the single actions are added up: `Timeline.marked` changes the segments of given
ids and `Timeline.without` leaves them out, and for the ids of the segments that overlap a
range both are what `Timeline.applyRange` makes of the timeline.
-/

namespace Montage

/-- A segment with its visibility and state set. -/
def Segment.presented (visible : Bool) (state : PlayState) (x : Segment) : Segment :=
  { x with visible := visible, state := state }

theorem Segment.keepsPlace_presented (visible : Bool) (state : PlayState) :
  Store.KeepsPlace (Segment.presented visible state)
  := ⟨fun _ => rfl, fun _ => rfl, fun _ => rfl⟩

namespace Timeline

variable {t : Timeline} {visible : Bool} {state : PlayState}

/-- A timeline with visibility and state of the segments of given ids set. -/
def marked (t : Timeline) (visible : Bool) (state : PlayState) (ids : List Int) : Timeline :=
  { t with
    segments := t.segments.map fun y => if y.id ∈ ids then y.presented visible state else y }

/-- A timeline without the segments of given ids. -/
def without (t : Timeline) (ids : List Int) : Timeline :=
  { t with segments := t.segments.filter fun y => y.id ∉ ids }

theorem marked_nil :
  t.marked visible state [] = t
  := by
  simp [marked]

theorem marked_cons (id : Int) (ids : List Int) :
  (t.marked visible state [id]).marked visible state ids = t.marked visible state (id :: ids)
  := by
  simp only [marked, List.map_map, Timeline.mk.injEq, and_true]
  apply List.map_congr_left
  intro y hy
  have hid : ∀ p : Prop, [Decidable p] →
      (if p then y.presented visible state else y).id = y.id := by
    intro p _
    split <;> rfl
  simp only [Function.comp_apply, hid, List.mem_cons, List.not_mem_nil, or_false]
  by_cases h : y.id = id <;> by_cases h' : y.id ∈ ids <;> simp [h, h', Segment.presented]

theorem without_nil :
  t.without [] = t
  := by
  rw [Timeline.mk.injEq]
  constructor
  · apply List.filter_eq_self.mpr
    simp
  · rfl

theorem without_cons (id : Int) (ids : List Int) :
  (t.without [id]).without ids = t.without (id :: ids)
  := by
  simp only [without, List.filter_filter, Timeline.mk.injEq, and_true]
  apply List.filter_congr
  intro y _
  simp [Bool.and_comm]

namespace Sound

variable (ht : t.Sound) (start stop : Double)

include ht

/-- A verb that keeps the segments marks those that overlap the range. -/
theorem applyRange_marked {verb : RangeVerb}
    (hverb : ∀ x, verb.applied x = some (x.presented visible state)) :
  t.applyRange verb start stop = t.marked visible state (t.overlappingIds start stop)
  := by
  rw [Timeline.mk.injEq]
  constructor
  · rw [marked, ← List.filterMap_eq_map]
    apply List.filterMap_congr
    intro x hx
    simp only [hverb, Function.comp_apply, ht.mem_overlappingIds hx]
    split <;> rfl
  · rfl

/-- Deleting leaves out the segments that overlap the range. -/
theorem applyRange_without :
  t.applyRange .delete start stop = t.without (t.overlappingIds start stop)
  := by
  rw [Timeline.mk.injEq]
  constructor
  · rw [without, ← List.filterMap_eq_filter]
    apply List.filterMap_congr
    intro x hx
    simp only [RangeVerb.applied, Option.guard, ht.mem_overlappingIds hx]
    by_cases h : x.overlaps start stop <;> simp [h]
  · rfl

end Sound

end Timeline

namespace Store

/-- A store with visibility and state of a record set and the record put in its own place. -/
def presented (s : Store) (x : Held) (visible : Bool) (state : PlayState) : Store :=
  let amended := s.amend x.tag (Segment.presented visible state)
  { amended with former := changed (Segment.presented visible state) x :: amended.former }

variable {s : Store} {before after : List Held} {x : Held} (hs : s.Sound)
  (h : s.held = before ++ x :: after)

include hs h

theorem Sound.presented (visible : Bool) (state : PlayState) :
  (s.presented x visible state).Sound
  := (hs.amend h (Segment.keepsPlace_presented visible state)).former _

theorem Sound.timeline_presented (visible : Bool) (state : PlayState) :
  (s.presented x visible state).timeline = s.timeline.marked visible state [x.segment.id]
  := by
  rw [Timeline.mk.injEq]
  constructor
  · apply (hs.segments_amend h _).trans
    simp [Timeline.marked, Store.timeline]
  · rfl

theorem Sound.current?_presented (visible : Bool) (state : PlayState) :
  (s.presented x visible state).current? x.tag = some (x.segment.presented visible state)
  := (hs.presented h visible state).current?_eq (hs.held_amend h _)

theorem Sound.timeline_removedBetween :
  (s.removedBetween before x after).timeline = s.timeline.without [x.segment.id]
  := by
  rw [Timeline.mk.injEq]
  constructor
  · simp only [Store.timeline, segments, Timeline.without, List.filter_map, h]
    congr 1
    have hne := hs.id_ne h
    rw [List.filter_append, List.filter_cons_of_neg, List.filter_eq_self.mpr,
      List.filter_eq_self.mpr]
    · rfl
    · intro y hy
      simpa using hne y (List.mem_append_right before hy)
    · intro y hy
      simpa using hne y (List.mem_append_left after hy)
    · simp
  · rfl

end Store

end Montage
