import Montage.Desk.Announce
import Montage.Proofs.Store.Orderly

/-!
# Announced changes

Whatever a store becomes under one announcement is a `Change` of it.  A change of a regular
store leaves a regular store, and it gives out ids from the same one on or a later one unless
the store is cleared.  The announcement tells all there is to know: a copy of the segments
that follows the event is a copy of the segments of the new store, as `Change.follow` says.
-/

namespace Montage

/-- What becomes of a copy of the segments of a store that follows an event. -/
def Event.follow (event : Event) (copy : List Segment) : List Segment :=
  match event.kind, event.segment with
  | .added, some x => x :: copy
  | .removed, some x => copy.filter fun y => y.id != x.id
  | .updated, some x => copy.map fun y => if y.id == x.id then x else y
  | .cleared, _ => []
  | _, none => copy

namespace Store

/-- What a store becomes under an announcement, with the kind of the event and the tag that it
names. -/
inductive Change (s s' : Store) : EventKind → Option Nat → Prop where
  | added {x : Held} (htag : x.tag = s.nextTag) (hnum : x.segment.start ≠ .nan)
    (hnew : ∀ y ∈ s.held, y.segment.id ≠ x.segment.id) (hlt : x.segment.id < s'.nextId)
    (hheld : s'.held = arrange (s.held ++ [x])) (hnextId : s.nextId ≤ s'.nextId)
    (hnextTag : s'.nextTag = s.nextTag + 1) : Change s s' .added (some x.tag)
  | removed {before after rest : List Held} {x : Held} (h : s.held = before ++ x :: after)
    (hheld : s'.held = before ++ after) (hformer : s'.former = x :: rest)
    (hnextId : s'.nextId = s.nextId) (hnextTag : s'.nextTag = s.nextTag) :
    Change s s' .removed (some x.tag)
  | updated {before after : List Held} {x z : Held} (h : s.held = before ++ x :: after)
    (hid : z.segment.id = x.segment.id) (hnum : z.segment.start ≠ .nan)
    (hne : ∀ y ∈ before ++ after, y.tag ≠ z.tag) (hlt : z.tag < s'.nextTag)
    (hheld : s'.held = arrange (before ++ z :: after)) (hnextId : s'.nextId = s.nextId)
    (hnextTag : s.nextTag ≤ s'.nextTag) : Change s s' .updated (some z.tag)
  | cleared (hheld : s'.held = []) (hnextTag : s.nextTag ≤ s'.nextTag) :
    Change s s' .cleared none

variable {s s' : Store} {kind : EventKind} {tag : Option Nat}

namespace Change

theorem nextId_le (h : Change s s' kind tag) (hkind : kind ≠ .cleared) :
  s.nextId ≤ s'.nextId
  := by
  cases h with
  | added _ _ _ _ _ hnextId _ => apply hnextId
  | removed _ _ _ hnextId _ => exact Int.le_of_eq hnextId.symm
  | updated _ _ _ _ _ _ hnextId _ => exact Int.le_of_eq hnextId.symm
  | cleared _ _ => contradiction

/-- A segment is put in the place of another one all the same if tags were given out before. -/
theorem of_retagged {nextTag : Nat} (hle : s.nextTag ≤ nextTag)
    (h : Change { s with nextTag := nextTag } s' .updated tag) :
  Change s s' .updated tag
  := by
  cases h with
  | updated h hid hnum hne hlt hheld hnextId hnextTag =>
      exact updated h hid hnum hne hlt hheld hnextId (Nat.le_trans hle hnextTag)

/-- A change of a regular store leaves a regular store. -/
theorem regular (h : Change s s' kind tag) (hs : s.Regular) :
  s'.Regular
  := by
  cases h with
  | added htag hnum hnew hlt hheld hnextId hnextTag =>
      have hsub : (s.held ++ []).Sublist s.held := by simp
      apply hs.arranged hsub hheld hnum (by simpa) hlt hnextId
      · simpa [htag] using fun y hy => Nat.ne_of_lt (hs.tags_lt y hy)
      · omega
      · omega
  | removed h hheld hformer hnextId hnextTag =>
      apply hs.sublist _ hnextId (Nat.le_of_eq hnextTag.symm)
      rw [hheld]
      apply sublist_of_split h
  | updated h hid hnum hne hlt hheld hnextId hnextTag =>
      rename_i before after x z
      have hx := hs.ids_lt x (h ▸ List.mem_append_right before List.mem_cons_self)
      apply hs.arranged (sublist_of_split h) hheld hnum _ _ _ hne hlt hnextTag
      · rw [hid]
        apply hs.id_ne h
      · omega
      · omega
  | cleared hheld _ => apply regular_of_empty hheld

/-- A copy of the segments of a regular store that follows the event of a change is a copy of
the segments of the new store. -/
theorem follow (h : Change s s' kind tag) (hs : s.Regular) {copy : List Segment}
    (hcopy : copy.Perm s.segments) :
  ((⟨kind, tag.bind s'.current?⟩ : Event).follow copy).Perm s'.segments
  := by
  have hs' := h.regular hs
  cases h with
  | added htag hnum hnew hlt hheld hnextId hnextTag =>
      rename_i x
      have hperm : s'.held.Perm (x :: s.held) := by
        rw [hheld]
        apply (arrange_perm _).trans (List.perm_append_singleton x s.held)
        apply forall_mem_middle (P := fun y : Held => y.segment.start ≠ .nan) _ hnum
        simpa using hs.numeric
      rw [Option.bind_some, hs'.current?_of_mem (hperm.mem_iff.mpr List.mem_cons_self)]
      apply ((hcopy.cons x.segment).trans _)
      apply (hperm.map _).symm
  | removed h hheld hformer hnextId hnextTag =>
      rename_i before after rest x
      -- The event still shows the segment, which is looked up among those removed before.
      have hcurrent : s'.current? x.tag = some x.segment := by
        apply current?_former _ hformer
        rw [hheld]
        apply hs.tag_ne h
      rw [Option.bind_some, hcurrent]
      apply (hcopy.filter _).trans
      rw [segments, segments, h, hheld, List.filter_map]
      apply List.Perm.map
      have hkept : (before ++ after).filter (fun y => y.segment.id != x.segment.id)
          = before ++ after := by
        apply List.filter_eq_self.mpr
        intro y hy
        simpa using hs.id_ne h y hy
      apply (List.perm_middle.filter _).trans
      rw [List.filter_cons_of_neg (by simp)]
      apply List.Perm.of_eq hkept
  | updated h hid hnum hne hlt hheld hnextId hnextTag =>
      rename_i before after x z
      have hperm : s'.held.Perm (before ++ z :: after) := by
        rw [hheld]
        apply arrange_perm
        apply forall_mem_middle (P := fun y : Held => y.segment.start ≠ .nan) _ hnum
        intro y hy
        apply hs.numeric y ((sublist_of_split h).subset hy)
      have hz : z ∈ s'.held := hperm.mem_iff.mpr (List.mem_append_right _ List.mem_cons_self)
      rw [Option.bind_some, hs'.current?_of_mem hz]
      have hmap : s.segments.map (fun y => if y.id == z.segment.id then z.segment else y)
          = (before ++ z :: after).map (·.segment) := by
        rw [segments_split h, map_split (p := fun y : Segment => y.id == z.segment.id)]
        · simp
        · simp [hid]
        · intro y hy
          rw [← List.map_append] at hy
          obtain ⟨w, hw, rfl⟩ := List.mem_map.mp hy
          simpa [hid] using hs.id_ne h w hw
      apply (hcopy.map _).trans
      rw [hmap]
      apply (hperm.map _).symm
  | cleared hheld _ =>
      rw [segments, hheld]
      rfl

end Change

end Store

end Montage
