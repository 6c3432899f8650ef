import Montage.Proofs.Timeline.Edit

/-!
# What edits announce

The events that an edit of a timeline makes, each with the segment that it is about.  An edit
that fails makes none.
-/

namespace Montage

/-- What a verb makes known of a segment that overlaps its range. -/
def RangeVerb.announced (verb : RangeVerb) (x : Segment) : Event :=
  match verb.applied x with
  | some y => ⟨.updated, some y⟩
  | none => ⟨.removed, some x⟩

namespace Timeline

/-- The events of an edit of a timeline. -/
def announced (look : String → Lookup) (t : Timeline) : Edit → List Event
  | .load path =>
    match (look path).playable path with
    | .ok duration => ⟨.cleared, none⟩ :: (whole path duration).segments.map (⟨.added, some ·⟩)
    | .error _ => []
  | .cut time =>
    match t.segments.find? (·.encloses time) with
    | some x => ⟨.removed, some x⟩ :: (x.cutAt time t.nextId).map (⟨.added, some ·⟩)
    | none => []
  | .range verb start stop => (t.segments.filter (·.overlaps start stop)).map verb.announced

variable {look : String → Lookup} {t : Timeline}

/-- An edit that fails announces nothing. -/
theorem announced_of_error {e : Edit} {f : Fault} (h : t.edit look e = .error f) :
  t.announced look e = []
  := by
  cases e with
  | load path =>
      rw [edit] at h
      rw [announced]
      cases hplayable : (look path).playable path with
      | ok duration =>
          rw [hplayable] at h
          cases h
      | error f => rfl
  | cut time =>
      rw [edit] at h
      split at h
      · cases h
      · rename_i hany
        have hnone : t.segments.find? (·.encloses time) = none := by
          apply List.find?_eq_none.mpr
          intro x hx hcut
          apply hany
          apply List.any_eq_true.mpr ⟨x, hx, hcut⟩
        rw [announced, hnone]
  | range verb start stop => cases h

end Timeline

end Montage
