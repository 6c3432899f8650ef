import Montage.Proofs.Store.Orderly

/-!
# Timelines

The `Timeline` of a store is what the store shows: its segments in order and the next id it
gives out.  A timeline is `Sound` if its segments lie one after the other without overlap
and have different ids that have all been given out; a store is sound if in addition its
tags tell its records apart.  The changes of a store are described here on a sound store
that is split at the place of the change.
-/

namespace Montage

/-- What a store shows. -/
structure Timeline where
  /-- The segments listed, in order. -/
  segments : List Segment := []
  /-- The next id to give out. -/
  nextId : Int := 1
  deriving DecidableEq

/-- What a store shows. -/
def Store.timeline (s : Store) : Timeline :=
  ⟨s.segments, s.nextId⟩

/-- A clip that starts at zero or later and ends after its start. -/
def Clip.Proper (c : Clip) : Prop :=
  .zero ≤ c.start ∧ c.start < c.stop

instance (c : Clip) : Decidable c.Proper :=
  inferInstanceAs (Decidable (_ ∧ _))

theorem Clip.Proper.checked {c : Clip} (h : c.Proper) :
  c.checked = .ok c
  := by
  have hstart := Double.not_lt_of_le h.1
  have hstop := Double.not_le_of_lt h.2
  simp [Clip.checked, hstart, hstop]

/-- The segments of a timeline lie one after the other, under different ids. -/
structure Timeline.Sound (t : Timeline) : Prop where
  proper : ∀ x ∈ t.segments, x.Proper
  disjoint : t.segments.Pairwise fun x y => x.stop ≤ y.start
  ids : t.segments.Pairwise fun x y => x.id ≠ y.id
  ids_lt : ∀ x ∈ t.segments, x.id < t.nextId

theorem Timeline.sound_of_empty {t : Timeline} (h : t.segments = []) :
  t.Sound
  := by
  constructor <;> simp [h]

namespace Store

/-- A store that shows a sound timeline and knows its records by their tags. -/
structure Sound (s : Store) : Prop where
  timeline : s.timeline.Sound
  tags : s.held.Pairwise fun x y => x.tag ≠ y.tag
  tags_lt : ∀ x ∈ s.held, x.tag < s.nextTag

theorem sound_of_empty {s : Store} (h : s.held = []) :
  s.Sound
  := by
  constructor
  · apply Timeline.sound_of_empty
    simp [timeline, segments, h]
  · simp [h]
  · simp [h]

theorem mem_segments {s : Store} {x : Held} (h : x ∈ s.held) :
  x.segment ∈ s.segments
  := List.mem_map_of_mem h

variable {s : Store} {before after : List Held} {x : Held}

theorem Sound.held_proper (hs : s.Sound) :
  ∀ x ∈ s.held, x.segment.Proper
  := fun _ hx => hs.timeline.proper _ (mem_segments hx)

theorem Sound.held_disjoint (hs : s.Sound) :
  s.held.Pairwise fun x y => x.segment.stop ≤ y.segment.start
  := List.pairwise_map.mp hs.timeline.disjoint

theorem Sound.held_ids (hs : s.Sound) :
  s.held.Pairwise fun x y => x.segment.id ≠ y.segment.id
  := (List.pairwise_map (f := fun x : Held => x.segment)).mp hs.timeline.ids

theorem Sound.held_ids_lt (hs : s.Sound) :
  ∀ x ∈ s.held, x.segment.id < s.nextId
  := fun _ hx => hs.timeline.ids_lt _ (mem_segments hx)

/-! ### The order of records -/

/-- Segments without overlap precede one another. -/
theorem pairwise_precedes {l : List Held}
    (hp : ∀ x ∈ l, x.segment.Proper)
    (hd : l.Pairwise fun x y => x.segment.stop ≤ y.segment.start) :
  l.Pairwise fun x y => x.segment.precedes y.segment
  := by
  apply List.Pairwise.imp_of_mem _ hd
  intro x y hx _ hxy
  apply Segment.precedes_of_start_lt
  apply Double.lt_of_lt_of_le (hp x hx).2 hxy

/-- Records without overlap are put into their order. -/
theorem arrange_disjoint {l m : List Held} (h : l.Perm m) (hp : ∀ x ∈ m, x.segment.Proper)
    (hd : m.Pairwise fun x y => x.segment.stop ≤ y.segment.start) :
  arrange l = m
  := by
  apply Segment.arranged_eq h _ (pairwise_precedes hp hd)
  intro x hx
  apply Double.ne_nan_of_lt_left (hp x hx).2

/-- A sound store is orderly. -/
theorem Sound.orderly (hs : s.Sound) :
  s.Orderly
  := by
  constructor
  · intro x hx
    apply Double.ne_nan_of_lt_left (hs.held_proper x hx).2
  · apply pairwise_precedes hs.held_proper hs.held_disjoint
  · apply hs.held_ids
  · apply hs.held_ids_lt

theorem Sound.tagged (hs : s.Sound) :
  s.Tagged
  := ⟨hs.tags, hs.tags_lt⟩

theorem Sound.regular (hs : s.Sound) :
  s.Regular
  := ⟨hs.orderly, hs.tagged⟩

/-! ### Finding records -/

theorem Sound.id_ne (hs : s.Sound) (h : s.held = before ++ x :: after) :
  ∀ y ∈ before ++ after, y.segment.id ≠ x.segment.id
  := hs.orderly.id_ne h

theorem Sound.tag_ne (hs : s.Sound) (h : s.held = before ++ x :: after) :
  ∀ y ∈ before ++ after, y.tag ≠ x.tag
  := hs.tagged.tag_ne h

/-- A record is known by its tag. -/
theorem Sound.current?_eq (hs : s.Sound) (h : s.held = before ++ x :: after) :
  s.current? x.tag = some x.segment
  := hs.tagged.current?_eq h

end Store

end Montage
