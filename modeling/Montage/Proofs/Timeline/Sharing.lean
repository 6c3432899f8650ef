import Mathlib.Data.List.Basic
import Montage.Proofs.Command.Canonical
import Montage.Proofs.Timeline.Announced

/-!
# Instants that a range shares with segments

A clip lasts from its start up to its end, which is not part of it, and so does a range.  The
test `Clip.overlaps` compares the start of either with the end of the other.  Of a range that
ends after it starts this tells whether the two share an instant.  A range that ends where it
starts, or before that, has no instants to share, and still passes the test at every segment
that starts before the end of the range and ends after its start: `Clip.Surrounds`.
`Timeline.RangesOver` says what a range does in either case.
-/

namespace Montage

namespace Clip

/-- A clip and a range share an instant. -/
def Shares (start stop : Double) (c : Clip) : Prop :=
  ∃ instant, (c.start ≤ instant ∧ instant < c.stop) ∧ (start ≤ instant ∧ instant < stop)

/-- A clip starts before the end of a range without instants and ends after its start. -/
def Surrounds (start stop : Double) (c : Clip) : Prop :=
  c.start < stop ∧ stop ≤ start ∧ start < c.stop

variable {start stop : Double} {c : Clip}

/-- Where both have instants, they share one if they overlap: the later of the two starts. -/
theorem shares_iff :
  c.Shares start stop ↔ (c.start < c.stop ∧ start < stop) ∧ c.overlaps start stop = true
  := by
  rw [overlaps_iff]
  constructor
  · rintro ⟨instant, ⟨hstart, hstop⟩, ⟨hstart', hstop'⟩⟩
    exact ⟨⟨Double.lt_of_le_of_lt hstart hstop, Double.lt_of_le_of_lt hstart' hstop'⟩,
      Double.lt_of_le_of_lt hstart hstop', Double.lt_of_le_of_lt hstart' hstop⟩
  · rintro ⟨⟨hclip, hrange⟩, hbefore, hafter⟩
    have hnumber := Double.ne_nan_of_lt_left hclip
    have hnumber' := Double.ne_nan_of_lt_left hrange
    by_cases hle : c.start ≤ start
    · exact ⟨start, ⟨hle, hafter⟩, Double.le_refl hnumber', hrange⟩
    · have hlt := Double.lt_of_not_le hnumber hnumber' hle
      exact ⟨c.start, ⟨Double.le_refl hnumber, hclip⟩, Double.le_of_lt hlt, hbefore⟩

instance : DecidablePred (Shares start stop) :=
  fun _ => decidable_of_iff _ shares_iff.symm

instance : DecidablePred (Surrounds start stop) :=
  fun _ => inferInstanceAs (Decidable (_ ∧ _))

theorem not_shares_of_empty (h : ¬ start < stop) :
  ¬ c.Shares start stop
  := fun hshares => h (shares_iff.mp hshares).1.2

/-- A range that has instants is surrounded by no clip. -/
theorem not_surrounds_of_lt (h : start < stop) :
  ¬ c.Surrounds start stop
  := fun hsurrounds => Double.not_le_of_lt h hsurrounds.2.1

/-- A proper clip overlaps a range from number to number if they share an instant or the clip
surrounds the range. -/
theorem Proper.overlaps_iff_shares (hc : c.Proper) (hstart : start ≠ .nan) (hstop : stop ≠ .nan) :
  c.overlaps start stop = true ↔ c.Shares start stop ∨ c.Surrounds start stop
  := by
  by_cases h : start < stop
  · rw [shares_iff, and_iff_right ⟨hc.2, h⟩, or_iff_left (not_surrounds_of_lt h)]
  · have hle : stop ≤ start := by
      by_contra hnot
      exact h (Double.lt_of_not_le hstop hstart hnot)
    rw [or_iff_right (not_shares_of_empty h), overlaps_iff, Surrounds, and_iff_right hle]

end Clip

/-- The time of a timecode is a number. -/
theorem Edit.IsTime.ne_nan {time : Double} (h : IsTime time) :
  time ≠ .nan
  := by
  rintro rfl
  obtain ⟨s, hs, -⟩ := h.stamp
  cases hs

namespace Timeline

variable {verb : RangeVerb} {P Q : Clip → Prop} [DecidablePred P] [DecidablePred Q]
  {t t' : Timeline} {ids : List Int} {events : List Event} {start stop : Double}

/-- A verb is applied to the segments with a given property and to no others.  Their ids are
affected, and each of them makes one event, in order. -/
structure ActsOn (verb : RangeVerb) (P : Clip → Prop) [DecidablePred P] (t t' : Timeline)
    (ids : List Int) (events : List Event) : Prop where
  timeline : t' = { t with
    segments := t.segments.filterMap fun x => if P x.toClip then verb.applied x else some x }
  ids : ids = (t.segments.filter (P ·.toClip)).map (·.id)
  events : events = (t.segments.filter (P ·.toClip)).map verb.announced

/-- What a verb does over a range. -/
structure RangesOver (verb : RangeVerb) (start stop : Double) (t t' : Timeline) (ids : List Int)
    (events : List Event) : Prop where
  /-- A range that ends after it starts acts on the segments that share an instant with it. -/
  proper : start < stop → t.ActsOn verb (Clip.Shares start stop) t' ids events
  /-- Any other range shares no instant, and acts on the segments that surround it. -/
  empty : ¬ start < stop → (∀ x ∈ t.segments, ¬ x.Shares start stop)
    ∧ t.ActsOn verb (Clip.Surrounds start stop) t' ids events
  /-- It is the segments that share an instant which are acted on, unless one surrounds the
  range. -/
  shared : t.ActsOn verb (Clip.Shares start stop) t' ids events
    ↔ start < stop ∨ ∀ x ∈ t.segments, ¬ x.Surrounds start stop

theorem ActsOn.congr (h : t.ActsOn verb P t' ids events)
    (hiff : ∀ x ∈ t.segments, P x.toClip ↔ Q x.toClip) :
  t.ActsOn verb Q t' ids events
  := by
  have hfilter : t.segments.filter (P ·.toClip) = t.segments.filter (Q ·.toClip) := by
    apply List.filter_congr
    intro x hx
    rw [decide_eq_decide]
    apply hiff x hx
  constructor
  · rw [h.timeline, Timeline.mk.injEq]
    constructor
    · apply List.filterMap_congr
      intro x hx
      simp only [hiff x hx]
    · rfl
  · rw [h.ids, hfilter]
  · rw [h.events, hfilter]

/-- What is acted on can be told from the ids that are affected. -/
theorem Sound.acts_on (ht : t.Sound) (h : t.ActsOn verb P t' ids events) {x : Segment}
    (hx : x ∈ t.segments) :
  x.id ∈ ids ↔ P x.toClip
  := by
  rw [h.ids, List.mem_map]
  constructor
  · rintro ⟨y, hy, hid⟩
    obtain ⟨hy, hP⟩ := List.mem_filter.mp hy
    obtain rfl := ht.eq_of_id hy hx hid
    apply of_decide_eq_true hP
  · intro hP
    exact ⟨x, List.mem_filter.mpr ⟨hx, decide_eq_true hP⟩, rfl⟩

/-- A range acts on the segments that the test finds. -/
theorem actsOn_overlaps (look : String → Lookup) :
  t.ActsOn verb (·.overlaps start stop = true) (t.applyRange verb start stop)
    (t.overlappingIds start stop) (t.announced look (.range verb start stop))
  := by
  constructor
  · rfl
  · simp only [Bool.decide_eq_true]
    rfl
  · simp only [Bool.decide_eq_true]
    rfl

/-- What a range from number to number does to a sound timeline. -/
theorem Sound.rangesOver (ht : t.Sound) (hstart : start ≠ .nan) (hstop : stop ≠ .nan)
    (verb : RangeVerb) (look : String → Lookup) :
  t.RangesOver verb start stop (t.applyRange verb start stop) (t.overlappingIds start stop)
    (t.announced look (.range verb start stop))
  := by
  have hacts : t.ActsOn verb (fun c => c.Shares start stop ∨ c.Surrounds start stop)
      (t.applyRange verb start stop) (t.overlappingIds start stop)
      (t.announced look (.range verb start stop)) := by
    apply (actsOn_overlaps look).congr
    intro x hx
    apply (ht.proper x hx).overlaps_iff_shares hstart hstop
  constructor
  case proper =>
      intro h
      apply hacts.congr fun x _ => or_iff_left (Clip.not_surrounds_of_lt h)
  case empty =>
      intro h
      refine ⟨fun x _ => Clip.not_shares_of_empty h, ?_⟩
      apply hacts.congr fun x _ => or_iff_right (Clip.not_shares_of_empty h)
  case shared =>
      constructor
      · intro hshares
        rw [or_iff_not_imp_left]
        intro h x hx hsurrounds
        have hmem := (ht.acts_on hacts hx).mpr (Or.inr hsurrounds)
        apply Clip.not_shares_of_empty h ((ht.acts_on hshares hx).mp hmem)
      · intro h
        apply hacts.congr fun x hx => or_iff_left ?_
        rcases h with h | h
        · apply Clip.not_surrounds_of_lt h
        · apply h x hx

end Timeline

end Montage
