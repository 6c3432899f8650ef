import Montage.Proofs.Timeline.Edit

/-!
# What a timeline withholds

A timeline `Conceals` a range of times if no visible segment overlaps it, and `Lacks` it if
no segment does.  Ids do not matter: a cut puts new segments in the place of old ones, and
what persists is that every segment lies within one that was there before.
-/

namespace Montage.Timeline

/-- No visible segment overlaps a range. -/
def Conceals (t : Timeline) (start stop : Double) : Prop :=
  ∀ x ∈ t.segments, x.visible = true → ¬ (x.start < stop ∧ start < x.stop)

/-- No segment overlaps a range. -/
def Lacks (t : Timeline) (start stop : Double) : Prop :=
  ∀ x ∈ t.segments, ¬ (x.start < stop ∧ start < x.stop)

/-- A segment lies within another: it overlaps no range that the other does not. -/
def Within (y x : Segment) : Prop :=
  ∀ start stop, y.start < stop ∧ start < y.stop → x.start < stop ∧ start < x.stop

theorem Within.refl (x : Segment) :
  Within x x
  := fun _ _ h => h

theorem within_cutAt {time : Double} {id : Int} {x y : Segment} (h : y ∈ x.cutAt time id) :
  Within y x ∧ y.visible = x.visible
  := by
  rw [Segment.cutAt] at h
  split at h
  · rename_i hx
    obtain ⟨hstart, hstop⟩ := Clip.encloses_iff.mp hx
    rcases List.mem_cons.mp h with rfl | h
    · refine ⟨?_, rfl⟩
      rintro a b ⟨hb, ha⟩
      exact ⟨hb, Double.lt_trans ha hstop⟩
    · obtain rfl := List.mem_singleton.mp h
      refine ⟨?_, rfl⟩
      rintro a b ⟨hb, ha⟩
      exact ⟨Double.lt_trans hstart hb, ha⟩
  · obtain rfl := List.mem_singleton.mp h
    exact ⟨Within.refl y, rfl⟩

variable {t t' : Timeline} {start stop : Double}

theorem within_applyRange {verb : RangeVerb} {y : Segment}
    (hy : y ∈ (t.applyRange verb start stop).segments) :
  ∃ x ∈ t.segments, Within y x ∧ (verb ≠ .reveal → y.visible = true → x.visible = true)
  := by
  obtain ⟨x, hx, hxy⟩ := List.mem_filterMap.mp hy
  use x, hx
  split at hxy
  · cases verb with
    | hide =>
        cases hxy
        exact ⟨Within.refl x, fun _ => nofun⟩
    | reveal =>
        cases hxy
        exact ⟨Within.refl x, fun hverb => (hverb rfl).elim⟩
    | delete => cases hxy
  · cases hxy
    exact ⟨Within.refl y, fun _ => id⟩

/-- An edit other than a load leaves only segments that lie within earlier ones, and what is
visible then was so before unless the edit shows a range. -/
theorem within_edit {look : String → Lookup} {e : Edit} {ids : List Int}
    (hedit : t.edit look e = .ok (t', ids)) (hload : ∀ path, e ≠ .load path) {y : Segment}
    (hy : y ∈ t'.segments) :
  ∃ x ∈ t.segments, Within y x
    ∧ ((∀ a b, e ≠ .range .reveal a b) → y.visible = true → x.visible = true)
  := by
  cases e with
  | load path => apply (hload path rfl).elim
  | cut time =>
      obtain ⟨-, rfl⟩ := of_edit_cut hedit
      obtain ⟨x, hx, hy⟩ := List.mem_flatMap.mp hy
      obtain ⟨hwithin, hvisible⟩ := within_cutAt hy
      use x, hx, hwithin
      intro _ h
      rw [← hvisible]
      apply h
  | range verb a b =>
      cases hedit
      obtain ⟨x, hx, hwithin, hvisible⟩ := within_applyRange hy
      use x, hx, hwithin
      intro hreveal
      apply hvisible
      rintro rfl
      apply hreveal a b rfl

/-! ### Withholding a range -/

theorem conceals_hide (t : Timeline) (start stop : Double) :
  (t.applyRange .hide start stop).Conceals start stop
  := by
  intro y hy hvisible
  obtain ⟨x, hx, hxy⟩ := List.mem_filterMap.mp hy
  split at hxy
  · cases hxy
    cases hvisible
  · rename_i hover
    cases hxy
    rwa [Clip.overlaps_iff] at hover

theorem lacks_delete (t : Timeline) (start stop : Double) :
  (t.applyRange .delete start stop).Lacks start stop
  := by
  intro y hy
  obtain ⟨x, hx, hxy⟩ := List.mem_filterMap.mp hy
  split at hxy
  · cases hxy
  · rename_i hover
    cases hxy
    rwa [Clip.overlaps_iff] at hover

variable {look : String → Lookup} {e : Edit} {ids : List Int}

/-- Only a load or a show brings concealed footage back. -/
theorem Conceals.edit (h : t.Conceals start stop) (hedit : t.edit look e = .ok (t', ids))
    (hload : ∀ path, e ≠ .load path) (hreveal : ∀ a b, e ≠ .range .reveal a b) :
  t'.Conceals start stop
  := by
  intro y hy hvisible hover
  obtain ⟨x, hx, hwithin, hkept⟩ := within_edit hedit hload hy
  apply h x hx (hkept hreveal hvisible) (hwithin _ _ hover)

/-- Only a load brings deleted footage back. -/
theorem Lacks.edit (h : t.Lacks start stop) (hedit : t.edit look e = .ok (t', ids))
    (hload : ∀ path, e ≠ .load path) :
  t'.Lacks start stop
  := by
  intro y hy hover
  obtain ⟨x, hx, hwithin, -⟩ := within_edit hedit hload hy
  apply h x hx (hwithin _ _ hover)

end Montage.Timeline
