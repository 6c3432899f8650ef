import Montage.Desk.Execute
import Montage.Proofs.Timeline.Change

/-!
# Edits of a timeline

`Timeline.edit` says what an edit makes of a timeline, as a function of the timeline and of
what the lookups bring: the timeline it leads to and the ids of the segments it affected, or
the fault with which it leaves the timeline as it is.
-/

namespace Montage

/-- What the lookup of a media file brings. -/
structure Lookup where
  /-- The duration found, or why there is none. -/
  answer : Except Fault Double
  /-- Whether the running batch is to be given up when the lookup has ended. -/
  overtaken : Bool

namespace Lookup

/-- The lookup of a file in a table, while nothing else happens. -/
def undisturbed (media : String → Except Fault Double) (path : String) : Lookup :=
  ⟨media path, false⟩

/-- The duration of the file at a path, if it is to be loaded. -/
def playable (path : String) (l : Lookup) : Except Fault Double :=
  if Text.isBlankText path then .error (.script .pathMissing)
  else
    match l.answer with
    | .error f => .error (Desk.lookupFault path f)
    | .ok duration =>
      if !duration.isFinite || duration ≤ .zero then
        .error (.script (.unplayable path duration))
      else if l.overtaken then .error (.script (.overtaken path))
      else .ok duration

/-- A file that is to be loaded has a positive duration, which its lookup has found. -/
theorem of_playable {path : String} {l : Lookup} {duration : Double}
    (h : l.playable path = .ok duration) :
  l.answer = .ok duration ∧ .zero < duration
  := by
  unfold playable at h
  split at h
  · cases h
  · split at h
    · cases h
    · rename_i d hanswer
      by_cases hd : (!d.isFinite || decide (d ≤ .zero)) = true
      · rw [if_pos hd] at h
        cases h
      · rw [if_neg hd] at h
        split at h
        · cases h
        · cases h
          simp only [Bool.or_eq_true, Bool.not_eq_true', decide_eq_true_eq, not_or,
            Bool.not_eq_false] at hd
          exact ⟨hanswer, Double.zero_lt_of_not_le_zero hd.1 hd.2⟩

end Lookup

/-- The part of a clip before a time. -/
def Clip.headAt (time : Double) (c : Clip) : Clip :=
  { c with state := .stopped, stop := time }

/-- The part of a clip after a time. -/
def Clip.tailAt (time : Double) (c : Clip) : Clip :=
  { c with state := .stopped, start := time }

/-- A segment parted at a time that it encloses; its parts are given an id and the one after
it. -/
def Segment.cutAt (time : Double) (id : Int) (x : Segment) : List Segment :=
  if x.encloses time then [⟨x.headAt time, id⟩, ⟨x.tailAt time, id + 1⟩] else [x]

/-- What a verb makes of a segment that overlaps its range. -/
def RangeVerb.applied (verb : RangeVerb) (x : Segment) : Option Segment :=
  match verb with
  | hide => some { x with visible := false, state := .hidden }
  | reveal => some { x with visible := true, state := .stopped }
  | delete => none

namespace Timeline

/-- The timeline of the whole of a file. -/
def whole (path : String) (duration : Double) : Timeline where
  segments := [⟨{ start := .zero, stop := duration, path }, 1⟩]
  nextId := 2

/-- A timeline with the segment that encloses a time parted there. -/
def cutAt (t : Timeline) (time : Double) : Timeline where
  segments := t.segments.flatMap (·.cutAt time t.nextId)
  nextId := t.nextId + 2

/-- Why a timeline cannot be cut at a time that no segment encloses. -/
def cutFault (t : Timeline) (time : Double) : Fault :=
  match Timecode.stamp time with
  | .error f => f
  | .ok stamp =>
    if t.segments.any (·.contains time) then .script (.onBoundary stamp)
    else .script (.uncovered stamp)

/-- A timeline with a verb applied to the segments that overlap a range. -/
def applyRange (t : Timeline) (verb : RangeVerb) (start stop : Double) : Timeline :=
  { t with
    segments := t.segments.filterMap fun x =>
      if x.overlaps start stop then verb.applied x else some x }

/-- The ids of the segments that overlap a range. -/
def overlappingIds (t : Timeline) (start stop : Double) : List Int :=
  (t.segments.filter (·.overlaps start stop)).map (·.id)

/-- What an edit makes of a timeline, and the ids of the segments it affects. -/
def edit (look : String → Lookup) (t : Timeline) : Edit → Except Fault (Timeline × List Int)
  | .load path => ((look path).playable path).map fun duration => (whole path duration, [1])
  | .cut time =>
    if t.segments.any (·.encloses time) then .ok (t.cutAt time, [t.nextId, t.nextId + 1])
    else .error (t.cutFault time)
  | .range verb start stop =>
    .ok (t.applyRange verb start stop, t.overlappingIds start stop)

variable {look : String → Lookup} {t t' : Timeline} {ids : List Int}

/-- A load that succeeds. -/
theorem of_edit_load {path : String} (h : t.edit look (.load path) = .ok (t', ids)) :
  ∃ duration, (look path).playable path = .ok duration ∧ t' = whole path duration
  := by
  rw [edit] at h
  cases hplayable : (look path).playable path with
  | error f =>
      rw [hplayable] at h
      cases h
  | ok duration =>
      rw [hplayable] at h
      cases h
      use duration

/-- A cut that succeeds. -/
theorem of_edit_cut {time : Double} (h : t.edit look (.cut time) = .ok (t', ids)) :
  (∃ x ∈ t.segments, x.encloses time) ∧ t' = t.cutAt time
  := by
  rw [edit] at h
  split at h
  · rename_i hany
    cases h
    exact ⟨List.any_eq_true.mp hany, rfl⟩
  · cases h

/-- A range verb always succeeds. -/
theorem of_edit_range {verb : RangeVerb} {start stop : Double}
    (h : t.edit look (.range verb start stop) = .ok (t', ids)) :
  t' = t.applyRange verb start stop
  := by
  cases h
  rfl

end Timeline

/-! ### Where a sound timeline changes -/

theorem Clip.encloses_iff {c : Clip} {time : Double} :
  c.encloses time = true ↔ c.start < time ∧ time < c.stop
  := by
  simp [Clip.encloses]

theorem Clip.overlaps_iff {c : Clip} {start stop : Double} :
  c.overlaps start stop = true ↔ c.start < stop ∧ start < c.stop
  := by
  simp [Clip.overlaps]

theorem Clip.Proper.headAt {c : Clip} {time : Double} (h : c.Proper) (hc : c.encloses time) :
  (c.headAt time).Proper
  := ⟨h.1, (Clip.encloses_iff.mp hc).1⟩

theorem Clip.Proper.tailAt {c : Clip} {time : Double} (h : c.Proper) (hc : c.encloses time) :
  (c.tailAt time).Proper
  := ⟨Double.le_trans h.1 (Double.le_of_lt (Clip.encloses_iff.mp hc).1),
    (Clip.encloses_iff.mp hc).2⟩

/-- A list of segments none of which encloses a time is not parted there. -/
theorem Segment.flatMap_cutAt {time : Double} {id : Int} {l : List Segment}
    (h : ∀ y ∈ l, ¬ y.encloses time) :
  l.flatMap (·.cutAt time id) = l
  := by
  induction l with
  | nil => rfl
  | cons y rest ih =>
      rw [List.flatMap_cons, ih fun z hz => h z (List.mem_cons_of_mem y hz), Segment.cutAt,
        if_neg (h y List.mem_cons_self)]
      rfl

namespace Timeline.Sound

variable {t : Timeline} (ht : t.Sound)

include ht

/-- The segment that encloses a time is the only one. -/
theorem segments_cutAt {before after : List Segment} {x : Segment} {time : Double}
    (h : t.segments = before ++ x :: after) (hx : x.encloses time) :
  (t.cutAt time).segments = before ++ x.cutAt time t.nextId ++ after
  := by
  obtain ⟨hstart, hstop⟩ := Clip.encloses_iff.mp hx
  obtain ⟨-, hafter, hbefore⟩ := List.pairwise_append.mp (h ▸ ht.disjoint)
  obtain ⟨hafter, -⟩ := List.pairwise_cons.mp hafter
  simp only [cutAt, h, List.flatMap_append, List.flatMap_cons]
  rw [Segment.flatMap_cutAt, Segment.flatMap_cutAt, List.append_assoc]
  · intro y hy hcut
    have hle := hafter y hy
    have hlt := (Clip.encloses_iff.mp hcut).1
    apply Double.lt_asymm hlt (Double.lt_of_lt_of_le hstop hle)
  · intro y hy hcut
    have hle := hbefore y hy x List.mem_cons_self
    have hlt := (Clip.encloses_iff.mp hcut).2
    apply Double.lt_asymm hlt (Double.lt_of_le_of_lt hle hstart)

/-- Segments with the same id are the same. -/
theorem eq_of_id {x y : Segment} (hy : y ∈ t.segments) (hx : x ∈ t.segments)
    (hid : y.id = x.id) :
  y = x
  := by
  obtain ⟨before, after, hsplit⟩ := List.append_of_mem hx
  have hne := Store.ne_of_pairwise_split (f := fun x : Segment => x.id) (hsplit ▸ ht.ids)
  rw [hsplit, List.mem_append, List.mem_cons] at hy
  rcases hy with hy | rfl | hy
  · apply absurd hid (hne y (List.mem_append_left after hy))
  · rfl
  · apply absurd hid (hne y (List.mem_append_right before hy))

/-- A segment overlaps a range if its id is among those that do. -/
theorem mem_overlappingIds {x : Segment} (hx : x ∈ t.segments) {start stop : Double} :
  x.id ∈ t.overlappingIds start stop ↔ x.overlaps start stop
  := by
  constructor
  · intro h
    obtain ⟨y, hy, hid⟩ := List.mem_map.mp h
    obtain ⟨hy, hover⟩ := List.mem_filter.mp hy
    obtain rfl := ht.eq_of_id hy hx hid
    apply hover
  · intro h
    apply List.mem_map_of_mem (List.mem_filter.mpr ⟨hx, h⟩)

end Timeline.Sound

/-! ### Cutting a sound store -/

namespace Store

variable {s : Store} {before after : List Held} {x : Held} {time : Double}

/-- The record of the segment that encloses a time. -/
theorem exists_enclosing {y : Segment} (h : s.enclosing? time = some y) :
  ∃ before x after, s.held = before ++ x :: after ∧ x.segment = y ∧ y.encloses time
  := by
  obtain ⟨x, hx, rfl⟩ := List.mem_map.mp (List.mem_of_find?_eq_some h)
  obtain ⟨before, after, hsplit⟩ := List.append_of_mem hx
  use before, x, after, hsplit, rfl
  apply List.find?_some (p := fun y : Segment => y.encloses time) h

theorem enclosing?_eq_none (h : s.enclosing? time = none) :
  s.timeline.segments.any (·.encloses time) = false
  := by
  apply List.any_eq_false.mpr
  intro y hy
  apply List.find?_eq_none.mp h y hy

/-- A store in which a record has given place to the first of its parts at a time. -/
def withHead (s : Store) (before : List Held) (x : Held) (after : List Held) (time : Double) :
    Store :=
  (s.removedBetween before x after).addedBetween before (x.segment.headAt time) after

/-- A store in which a record has given place to its parts at a time. -/
def parted (s : Store) (before : List Held) (x : Held) (after : List Held) (time : Double) :
    Store :=
  (s.withHead before x after time).addedBetween
    (before ++ [s.nextRecord (x.segment.headAt time)]) (x.segment.tailAt time) after

theorem held_withHead :
  (s.withHead before x after time).held
    = (before ++ [s.nextRecord (x.segment.headAt time)]) ++ after
  := by
  rw [List.append_assoc]
  rfl

variable (hs : s.Sound) (h : s.held = before ++ x :: after) (hx : x.segment.encloses time)

include hs h

/-- A record lies between those on both of its sides. -/
theorem Sound.between :
  (∀ y ∈ before, y.segment.stop ≤ x.segment.start)
    ∧ ∀ y ∈ after, x.segment.stop ≤ y.segment.start
  := by
  obtain ⟨-, hafter, hbefore⟩ := List.pairwise_append.mp (h ▸ hs.held_disjoint)
  obtain ⟨hafter, -⟩ := List.pairwise_cons.mp hafter
  exact ⟨fun y hy => hbefore y hy x List.mem_cons_self, hafter⟩

include hx

theorem Sound.head_between :
  (∀ y ∈ before, y.segment.stop ≤ (x.segment.headAt time).start)
    ∧ ∀ y ∈ after, (x.segment.headAt time).stop ≤ y.segment.start
  := by
  obtain ⟨hbefore, hafter⟩ := hs.between h
  have hstop := Double.le_of_lt (Clip.encloses_iff.mp hx).2
  exact ⟨hbefore, fun y hy => Double.le_trans hstop (hafter y hy)⟩

theorem Sound.tail_between :
  (∀ y ∈ before ++ [s.nextRecord (x.segment.headAt time)],
      y.segment.stop ≤ (x.segment.tailAt time).start)
    ∧ ∀ y ∈ after, (x.segment.tailAt time).stop ≤ y.segment.start
  := by
  obtain ⟨hbefore, hafter⟩ := hs.between h
  have hstart := Double.le_of_lt (Clip.encloses_iff.mp hx).1
  constructor
  · intro y hy
    rcases List.mem_append.mp hy with hy | hy
    · apply Double.le_trans (hbefore y hy) hstart
    · obtain rfl := List.mem_singleton.mp hy
      apply Double.le_refl (Double.ne_nan_of_le_right hstart)
  · apply hafter

theorem Sound.withHead :
  (s.withHead before x after time).Sound
  := by
  obtain ⟨hbefore, hafter⟩ := hs.head_between h hx
  have hx' : x ∈ s.held := h ▸ List.mem_append_right before List.mem_cons_self
  apply (hs.removedBetween h).addedBetween rfl _ hbefore hafter
  apply (hs.held_proper x hx').headAt hx

theorem Sound.parted :
  (s.parted before x after time).Sound
  := by
  obtain ⟨hbefore, hafter⟩ := hs.tail_between h hx
  have hx' : x ∈ s.held := h ▸ List.mem_append_right before List.mem_cons_self
  apply (hs.withHead h hx).addedBetween held_withHead _ hbefore hafter
  apply (hs.held_proper x hx').tailAt hx

/-- The ids of the parts. -/
theorem Sound.current?_parted :
  (s.parted before x after time).current? s.nextTag
      = some ⟨x.segment.headAt time, s.nextId⟩
    ∧ (s.parted before x after time).current? (s.nextTag + 1)
      = some ⟨x.segment.tailAt time, s.nextId + 1⟩
  := by
  have hs' := hs.parted h hx
  have hhead : (s.parted before x after time).held
      = before ++ s.nextRecord (x.segment.headAt time)
        :: (s.withHead before x after time).nextRecord (x.segment.tailAt time) :: after := by
    simp [Store.parted, Store.addedBetween]
  exact ⟨hs'.current?_eq hhead, hs'.current?_eq rfl⟩

/-- Cutting a store cuts what it shows. -/
theorem Sound.timeline_parted :
  (s.parted before x after time).timeline = s.timeline.cutAt time
  := by
  have hcut := hs.timeline.segments_cutAt (segments_split h) hx
  have hnext : s.nextId + 1 + 1 = s.nextId + 2 := Int.add_assoc s.nextId 1 1
  rw [Timeline.mk.injEq, hcut]
  simp [Store.parted, Store.withHead, Store.addedBetween, Store.removedBetween, nextRecord,
    segments, Store.timeline, Segment.cutAt, hx, hnext, Timeline.cutAt]

end Store

end Montage
