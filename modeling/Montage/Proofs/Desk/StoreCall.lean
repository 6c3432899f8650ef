import Montage.Proofs.Desk.Outcome
import Montage.Proofs.Store.Change

/-!
# Calls of the store

An operation on the store of a desk leaves the store alone, or makes one change of it and
announces that change, and this is all it does.  The rules below say so of each operation on
a regular store: what is to be shown of the operation has to be shown of the announcement,
once the changed store is in place.
-/

namespace Montage

/-- A clip whose bounds are numbers. -/
def Clip.Numeric (c : Clip) : Prop :=
  c.start ≠ .nan ∧ c.stop ≠ .nan

instance (c : Clip) : Decidable c.Numeric :=
  inferInstanceAs (Decidable (_ ∧ _))

namespace Store

/-- A call of an operation on a store. -/
inductive Call where
  | add (clip : Clip) (id : Option Int)
  | remove (id : Int)
  /-- Puts a new segment in the place of the one with its id. -/
  | update (segment : Segment)
  /-- Puts the segment with an id in its own place. -/
  | touch (id : Int)
  | clear

namespace Call

/-- A call that brings no bounds that are not numbers. -/
def Numeric : Call → Prop
  | add clip _ => clip.Numeric
  | update segment => segment.Numeric
  | _ => True

/-- The operation that is called, on the store of a desk; the record that it added, if it did. -/
def run {ε : Type} (host : Surroundings ε) : Call → Run ε (Option Held)
  | add clip id => some <$> Desk.add host clip id
  | remove id => (fun _ => none) <$> Desk.remove host id
  | update segment => (fun _ => none) <$> Desk.update host segment
  | touch id => (fun _ => none) <$> Desk.touch host id
  | clear => (fun _ => none) <$> Desk.clear host

end Call

end Store

namespace Desk

open Store (Change)

variable {ε : Type} {host : Surroundings ε} {d : Desk ε} {E : Fault → Desk ε → Prop}

/-! ### Calls that change nothing -/

/-- A clip cannot be added under an id that is taken. -/
theorem add_taken {clip : Clip} {id : Int} (h : (d.store.get? id).isSome) :
  add host clip (some id) d = .error (.duplicateId id) d
  := by
  apply Meets.eq_error
  rw [add, meets_bind, meets_get, Store.insert, if_pos h, meets_bind, meets_ofExcept_error]
  exact ⟨rfl, rfl⟩

theorem put_absent {record : Held} (h : d.store.find? record.segment.id = none) :
  put host record d = .ok () d
  := by
  apply Meets.eq_ok
  rw [put, meets_bind, meets_get, Store.replace, h]
  exact (meets_pure _).mpr ⟨rfl, rfl⟩

variable {id : Int} (hnone : d.store.find? id = none)

include hnone

theorem remove_absent :
  remove host id d = .ok () d
  := by
  apply Meets.eq_ok
  rw [remove, meets_bind, meets_get, Store.erase, hnone]
  exact (meets_pure _).mpr ⟨rfl, rfl⟩

theorem touch_absent :
  touch host id d = .ok () d
  := by
  apply Meets.eq_ok
  rw [touch, meets_bind, meets_get, hnone]
  exact (meets_pure _).mpr ⟨rfl, rfl⟩

/-- A segment whose id is absent uses up a tag, and nothing else happens. -/
theorem update_absent {segment : Segment} (hid : segment.id = id) :
  update host segment d
    = .ok () { d with store := { d.store with nextTag := d.store.nextTag + 1 } }
  := by
  subst hid
  apply Meets.eq_ok
  rw [update, meets_bind, meets_get, meets_bind, meets_set, meets_of_ok]
  · exact ⟨rfl, rfl⟩
  · apply put_absent hnone

omit hnone

/-! ### Calls that change the store -/

/-- A store without segments. -/
theorem Meets.clear {Q : Unit → Desk ε → Prop}
    (hchange : ∀ s', Change d.store s' .cleared none →
      Meets (announce host .cleared none) { d with store := s' } Q E) :
  Meets (clear host) d Q E
  := by
  rw [Desk.clear, meets_bind, modifyStore, meets_modify]
  apply hchange
  exact Change.cleared rfl (Nat.le_refl _)

variable (hs : d.store.Regular)

include hs

/-- A clip is added, unless its id is taken. -/
theorem Meets.add {Q : Held → Desk ε → Prop} {clip : Clip} (hnum : clip.start ≠ .nan)
    (id : Option Int)
    (hrefused : ∀ taken, id = some taken → (d.store.get? taken).isSome →
      E (.duplicateId taken) d)
    (hchange : ∀ record s', Change d.store s' .added (some record.tag) →
      Meets (announce host .added (some record.tag)) { d with store := s' }
        (fun _ => Q record) E) :
  Meets (add host clip id) d Q E
  := by
  cases id with
  | none =>
      rw [meets_add_of_insert rfl]
      apply hchange
      apply Change.added rfl hnum
      · intro y hy
        apply Int.ne_of_lt (hs.ids_lt y hy)
      · apply Int.lt_succ
      · rfl
      · apply Int.le_of_lt (Int.lt_succ _)
      · rfl
  | some id =>
      by_cases htaken : (d.store.get? id).isSome
      · rw [meets_of_error (add_taken htaken)]
        apply hrefused id rfl htaken
      · have hinsert : d.store.insert clip (some id)
            = .ok ({ d.store with nextId := max d.store.nextId (id + 1) }.hold ⟨clip, id⟩) :=
          if_neg htaken
        rw [meets_add_of_insert hinsert]
        apply hchange
        apply Change.added rfl hnum
        · have hfree : d.store.find? id = none := by
            simpa [Store.get?] using htaken
          exact Store.find?_eq_none_iff.mp hfree
        · apply Int.lt_of_lt_of_le (Int.lt_succ id) (Int.le_max_right _ _)
        · rfl
        · apply Int.le_max_left
        · rfl

/-- The segment with an id is removed, if there is one. -/
theorem Meets.remove {Q : Unit → Desk ε → Prop} (id : Int) (hkept : Q () d)
    (hchange : ∀ (x : Held) s', Change d.store s' .removed (some x.tag) →
      Meets (announce host .removed (some x.tag)) { d with store := s' } Q E) :
  Meets (remove host id) d Q E
  := by
  cases hfind : d.store.find? id with
  | none =>
      rw [meets_of_ok (remove_absent hfind)]
      apply hkept
  | some x =>
      obtain ⟨before, after, h, rfl⟩ := Store.exists_split_of_find? hfind
      rw [meets_remove_of_erase (hs.erase_eq h)]
      apply hchange
      exact Change.removed h rfl rfl rfl rfl

/-- A record is put in the place of the one with its id, if there is one.  Its tag may be that
of the record whose place it takes. -/
theorem Meets.put {Q : Unit → Desk ε → Prop} {record : Held}
    (hnum : record.segment.start ≠ .nan) (htag : record.tag < d.store.nextTag)
    (hown : ∀ y ∈ d.store.held, y.tag = record.tag → y.segment.id = record.segment.id)
    (hkept : Q () d)
    (hchange : ∀ s', Change d.store s' .updated (some record.tag) →
      Meets (announce host .updated (some record.tag)) { d with store := s' } Q E) :
  Meets (put host record) d Q E
  := by
  cases hfind : d.store.find? record.segment.id with
  | none =>
      rw [meets_of_ok (put_absent hfind)]
      apply hkept
  | some x =>
      obtain ⟨before, after, h, hid⟩ := Store.exists_split_of_find? hfind
      rw [meets_put_of_replace (hs.replace_eq h hid.symm)]
      -- Another record with this tag would have the id of `record`, which is that of `x`.
      have hne : ∀ y ∈ before ++ after, y.tag ≠ record.tag := by
        intro y hy hsame
        apply hs.id_ne h y hy
        rw [hid]
        apply hown y ((Store.sublist_of_split h).subset hy) hsame
      apply hchange
      exact Change.updated h hid.symm hnum hne htag rfl rfl (Nat.le_refl _)

/-- The segment with an id is put in its own place, if there is one. -/
theorem Meets.touch {Q : Unit → Desk ε → Prop} (id : Int) (hkept : Q () d)
    (hchange : ∀ (x : Held) s', Change d.store s' .updated (some x.tag) →
      Meets (announce host .updated (some x.tag)) { d with store := s' } Q E) :
  Meets (touch host id) d Q E
  := by
  cases hfind : d.store.find? id with
  | none =>
      rw [meets_of_ok (touch_absent hfind)]
      apply hkept
  | some x =>
      rw [Desk.touch, meets_bind, meets_get, hfind]
      have hmem := List.mem_of_find?_eq_some hfind
      apply Meets.put hs (hs.numeric x hmem) (hs.tags_lt x hmem) _ hkept (hchange x)
      intro y hy hsame
      have hcurrent := hs.current?_of_mem hy
      rw [hsame, hs.current?_of_mem hmem] at hcurrent
      rw [Option.some.inj hcurrent]

/-- A segment is put in the place of the one with its id, if there is one.  A new tag is given
out in either case. -/
theorem Meets.update {Q : Unit → Desk ε → Prop} {segment : Segment}
    (hnum : segment.start ≠ .nan)
    (hkept : Q () { d with store := { d.store with nextTag := d.store.nextTag + 1 } })
    (hchange : ∀ s', Change d.store s' .updated (some d.store.nextTag) →
      Meets (announce host .updated (some d.store.nextTag)) { d with store := s' } Q E) :
  Meets (update host segment) d Q E
  := by
  rw [Desk.update, meets_bind, meets_get]
  simp only [meets_bind, meets_set]
  have hs' := hs.retagged (Nat.le_succ d.store.nextTag)
  apply Meets.put hs' hnum (Nat.lt_succ_self _) _ hkept
  · intro s' h
    apply hchange
    apply h.of_retagged (Nat.le_succ _)
  · intro y hy hsame
    apply absurd hsame (Nat.ne_of_lt (hs.tags_lt y hy))

/-- What holds of a desk after a call: it has to hold if the call leaves the store alone, save
for the tags that it gives out, and once each change has been announced. -/
theorem meets_run {I : Desk ε → Prop} {c : Store.Call} (hnum : c.Numeric)
    (hkept : ∀ n, d.store.nextTag ≤ n → I { d with store := { d.store with nextTag := n } })
    (hchange : ∀ kind tag s', Change d.store s' kind tag → (kind = .cleared → c = .clear) →
      Meets (announce host kind tag) { d with store := s' } (fun _ => I) (fun _ => I)) :
  Meets (c.run host) d (fun _ => I) (fun _ => I)
  := by
  have hsame : I d := hkept _ (Nat.le_refl _)
  cases c with
  | add clip id =>
      rw [Store.Call.run, meets_map]
      apply Meets.add hs hnum.1 id fun _ _ _ => hsame
      intro record s' h
      apply hchange _ _ _ h (nofun)
  | remove id =>
      rw [Store.Call.run, meets_map]
      apply Meets.remove hs id hsame
      intro x s' h
      apply hchange _ _ _ h (nofun)
  | update segment =>
      rw [Store.Call.run, meets_map]
      apply Meets.update hs hnum.1 (hkept _ (Nat.le_succ _))
      intro s' h
      apply hchange _ _ _ h (nofun)
  | touch id =>
      rw [Store.Call.run, meets_map]
      apply Meets.touch hs id hsame
      intro x s' h
      apply hchange _ _ _ h (nofun)
  | clear =>
      rw [Store.Call.run, meets_map]
      apply Meets.clear
      intro s' h
      apply hchange _ _ _ h fun _ => rfl

end Desk

end Montage
