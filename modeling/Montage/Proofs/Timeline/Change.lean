import Montage.Proofs.Timeline.Basic

/-!
# Changes of a sound store

Each change of a sound store that is split at the place of the change: what the store
becomes, and that it stays sound.
-/

namespace Montage.Store

variable {s : Store} {before after : List Held} {x : Held}

/-! ### Clearing -/

theorem sound_cleared (s : Store) :
  s.cleared.Sound
  := sound_of_empty rfl

theorem timeline_cleared (s : Store) :
  s.cleared.timeline = {}
  := rfl

/-! ### Adding -/

/-- The record under which a clip is added next. -/
def nextRecord (s : Store) (clip : Clip) : Held :=
  ⟨s.nextTag, ⟨clip, s.nextId⟩⟩

/-- A store with a clip added between two parts of its list. -/
def addedBetween (s : Store) (before : List Held) (clip : Clip) (after : List Held) : Store :=
  { s with
    held := before ++ s.nextRecord clip :: after
    nextId := s.nextId + 1
    nextTag := s.nextTag + 1 }

variable {clip : Clip}

theorem Sound.addedBetween (hs : s.Sound) (h : s.held = before ++ after) (hc : clip.Proper)
    (hb : ∀ y ∈ before, y.segment.stop ≤ clip.start)
    (ha : ∀ y ∈ after, clip.stop ≤ y.segment.start) :
  (s.addedBetween before clip after).Sound
  := by
  have hproper : ∀ y ∈ before ++ after, y.segment.Proper := h ▸ hs.held_proper
  have hids : ∀ y ∈ before ++ after, y.segment.id < s.nextId := h ▸ hs.held_ids_lt
  have htags : ∀ y ∈ before ++ after, y.tag < s.nextTag := h ▸ hs.tags_lt
  constructor
  · constructor
    · intro y hy
      obtain ⟨z, hz, rfl⟩ := List.mem_map.mp hy
      apply forall_mem_middle (P := fun z : Held => z.segment.Proper) hproper hc z hz
    · apply List.pairwise_map.mpr
      obtain ⟨hbefore, hafter, hacross⟩ := List.pairwise_append.mp (h ▸ hs.held_disjoint)
      apply List.pairwise_append.mpr ⟨hbefore, List.pairwise_cons.mpr ⟨ha, hafter⟩, _⟩
      intro y hy z hz
      rcases List.mem_cons.mp hz with rfl | hz
      · apply hb y hy
      · apply hacross y hy z hz
    · apply (List.pairwise_map (f := fun y : Held => y.segment)).mpr
      apply pairwise_ne_middle (f := fun y : Held => y.segment.id) (h ▸ hs.held_ids)
      intro y hy
      apply Int.ne_of_lt (hids y hy)
    · intro y hy
      obtain ⟨z, hz, rfl⟩ := List.mem_map.mp hy
      apply forall_mem_middle (P := fun z : Held => z.segment.id < s.nextId + 1) _ _ z hz
      · intro y hy
        apply Int.lt_add_one_of_le (Int.le_of_lt (hids y hy))
      · apply Int.lt_succ
  · apply pairwise_ne_middle (f := fun y : Held => y.tag) (h ▸ hs.tags)
    intro y hy
    apply Nat.ne_of_lt (htags y hy)
  · apply forall_mem_middle (P := fun y : Held => y.tag < s.nextTag + 1) _ (Nat.lt_succ_self _)
    intro y hy
    apply Nat.lt_succ_of_lt (htags y hy)

/-- A clip is added at the place where it overlaps no segment. -/
theorem Sound.insert_eq (hs : s.Sound) (h : s.held = before ++ after) (hc : clip.Proper)
    (hb : ∀ y ∈ before, y.segment.stop ≤ clip.start)
    (ha : ∀ y ∈ after, clip.stop ≤ y.segment.start) :
  s.insert clip none = .ok (s.addedBetween before clip after, s.nextRecord clip)
  := by
  have hs' := hs.addedBetween h hc hb ha
  have harrange : arrange (s.held ++ [s.nextRecord clip])
      = before ++ s.nextRecord clip :: after := by
    apply arrange_disjoint _ hs'.held_proper hs'.held_disjoint
    rw [h, List.append_assoc]
    apply List.Perm.append_left
    apply List.perm_append_singleton
  simp only [insert, hold, Store.addedBetween]
  rw [← harrange]
  rfl

/-! ### Removing -/

theorem Sound.removedBetween (hs : s.Sound) (h : s.held = before ++ x :: after) :
  (s.removedBetween before x after).Sound
  := by
  have hsub := sublist_of_split h
  constructor
  · constructor
    · intro y hy
      apply hs.timeline.proper y ((hsub.map _).subset hy)
    · apply hs.timeline.disjoint.sublist (hsub.map _)
    · apply hs.timeline.ids.sublist (hsub.map _)
    · intro y hy
      apply hs.timeline.ids_lt y ((hsub.map _).subset hy)
  · apply hs.tags.sublist hsub
  · intro y hy
    apply hs.tags_lt y (hsub.subset hy)

/-- A record is removed by its id. -/
theorem Sound.erase_eq (hs : s.Sound) (h : s.held = before ++ x :: after) :
  s.erase x.segment.id = some (s.removedBetween before x after, x)
  := hs.orderly.erase_eq h

/-- A removed record is still known. -/
theorem Sound.current?_removed (hs : s.Sound) (h : s.held = before ++ x :: after) :
  (s.removedBetween before x after).current? x.tag = some x.segment
  := current?_former (hs.tag_ne h) rfl

/-! ### Changing in place -/

/-- A change of a segment that keeps its times and its id. -/
structure KeepsPlace (f : Segment → Segment) : Prop where
  start : ∀ y, (f y).start = y.start
  stop : ∀ y, (f y).stop = y.stop
  id : ∀ y, (f y).id = y.id

variable {f : Segment → Segment}

theorem KeepsPlace.proper (hf : KeepsPlace f) {y : Segment} (hy : y.Proper) :
  (f y).Proper
  := by
  rw [Clip.Proper, hf.start, hf.stop]
  apply hy

/-- Changes that keep the place of every segment keep a timeline sound. -/
theorem KeepsPlace.sound_map (hf : KeepsPlace f) {t : Timeline} (ht : t.Sound) :
  Timeline.Sound { t with segments := t.segments.map f }
  := by
  constructor
  · intro y hy
    obtain ⟨z, hz, rfl⟩ := List.mem_map.mp hy
    apply hf.proper (ht.proper z hz)
  · apply List.pairwise_map.mpr
    simp only [hf.start, hf.stop]
    apply ht.disjoint
  · apply List.pairwise_map.mpr
    simp only [hf.id]
    apply ht.ids
  · intro y hy
    obtain ⟨z, hz, rfl⟩ := List.mem_map.mp hy
    change (f z).id < t.nextId
    rw [hf.id]
    apply ht.ids_lt z hz

/-- A record with its segment changed. -/
def changed (f : Segment → Segment) (x : Held) : Held :=
  { x with segment := f x.segment }

/-- The record under a tag is changed in place. -/
theorem Tagged.held_amend (hs : s.Tagged) (h : s.held = before ++ x :: after)
    (f : Segment → Segment) :
  (s.amend x.tag f).held = before ++ changed f x :: after
  := by
  change s.held.map (fun y => if y.tag == x.tag then changed f y else y) = _
  rw [h]
  apply map_split (p := fun y : Held => y.tag == x.tag)
  · simp
  · intro y hy
    simpa using hs.tag_ne h y hy

theorem Sound.held_amend (hs : s.Sound) (h : s.held = before ++ x :: after)
    (f : Segment → Segment) :
  (s.amend x.tag f).held = before ++ changed f x :: after
  := hs.tagged.held_amend h f

/-- A change that keeps the place of every segment keeps a store regular. -/
theorem Regular.amend (hs : s.Regular) (hf : KeepsPlace f) (tag : Nat) :
  (s.amend tag f).Regular
  := by
  have hheld : (s.amend tag f).held
      = s.held.map fun y => if y.tag == tag then changed f y else y := rfl
  apply hs.map _ hheld rfl rfl
  intro y
  split
  · exact ⟨hf.start _, hf.id _, rfl⟩
  · exact ⟨rfl, rfl, rfl⟩

theorem Sound.segments_amend (hs : s.Sound) (h : s.held = before ++ x :: after)
    (f : Segment → Segment) :
  (s.amend x.tag f).segments
    = s.segments.map fun y => if y.id == x.segment.id then f y else y
  := by
  rw [segments, hs.held_amend h, segments_split h, List.map_append, List.map_cons]
  symm
  apply map_split (p := fun y : Segment => y.id == x.segment.id)
  · simp
  · intro y hy
    rw [← List.map_append] at hy
    obtain ⟨z, hz, rfl⟩ := List.mem_map.mp hy
    simpa using hs.id_ne h z hz

theorem Sound.amend (hs : s.Sound) (h : s.held = before ++ x :: after) (hf : KeepsPlace f) :
  (s.amend x.tag f).Sound
  := by
  have hif : KeepsPlace fun y => if y.id == x.segment.id then f y else y := by
    constructor <;> intro y <;> split <;> simp [hf.start, hf.stop, hf.id]
  constructor
  · have h' := hif.sound_map hs.timeline
    rw [Store.timeline, hs.segments_amend h]
    apply h'
  · apply List.pairwise_map.mpr
    apply hs.tags.imp
    intro y z hne
    split <;> split <;> apply hne
  · intro y hy
    obtain ⟨z, hz, rfl⟩ := List.mem_map.mp hy
    have hlt := hs.tags_lt z hz
    split <;> apply hlt

/-! ### Replacing -/

/-- A record is put in its own place. -/
theorem Sound.replace_eq (hs : s.Sound) (h : s.held = before ++ x :: after) :
  s.replace x = some { s with former := x :: s.former }
  := hs.orderly.replace_self h

theorem Sound.former (hs : s.Sound) (l : List Held) :
  Store.Sound { s with former := l }
  := ⟨hs.timeline, hs.tags, hs.tags_lt⟩

end Montage.Store
