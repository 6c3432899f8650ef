import Montage.Proofs.Desk.Edits
import Montage.Proofs.Timeline.Range

/-!
# Hiding, showing and deleting under a conduct

A range verb lists the records that overlap its range and then acts on them one by one.  The
induction on the list holds on to what is known of the records still to come: they differ in
their tags from those acted on, so they are still in the store as they were listed.
-/

namespace Montage

namespace Store

variable {s : Store} {r : Held}

/-- A record stays in place when another is shown or hidden. -/
theorem mem_presented (h : r ∈ s.held) {x : Held} (hne : x.tag ≠ r.tag) (visible : Bool)
    (state : PlayState) :
  r ∈ (s.presented x visible state).held
  := by
  apply List.mem_map.mpr ⟨r, h, _⟩
  rw [if_neg]
  simpa using Ne.symm hne

/-- A record stays in place when another is removed. -/
theorem mem_removedBetween (h : r ∈ s.held) {before after : List Held} {x : Held}
    (hsplit : s.held = before ++ x :: after) (hne : x.tag ≠ r.tag) :
  r ∈ (s.removedBetween before x after).held
  := by
  rw [hsplit] at h
  rcases List.mem_cons.mp (List.perm_middle.mem_iff.mp h) with rfl | h
  · apply absurd rfl hne
  · apply h

end Store

namespace Desk

variable {ε : Type} {host : Surroundings ε}

/-- Records are shown or hidden one by one. -/
theorem showAll_cons (visible : Bool) (state : PlayState) (r : Held) (rest : List Held) :
  showAll host visible state (r :: rest) = (do
    (do
      modifyStore (·.amend r.tag fun s => { s with visible := visible, state := state })
      put host { r with segment := ← refreshed r })
    let id := (← refreshed r).id
    let ids ← showAll host visible state rest
    return id :: ids)
  := by
  simp only [showAll, bind_assoc]

/-- A record that is shown or hidden is changed in place and then put in its own place. -/
theorem meets_presenting {d : Desk ε} {Q : Unit → Desk ε → Prop} {E : Fault → Desk ε → Prop}
    (hs : d.store.Regular) {before after : List Held} {x r : Held}
    (h : d.store.held = before ++ x :: after) (htag : x.tag = r.tag) (visible : Bool)
    (state : PlayState) :
  Meets (do
      modifyStore (·.amend r.tag fun s => { s with visible := visible, state := state })
      put host { r with segment := ← refreshed r }) d Q E
    ↔ Meets (put host (Store.changed (Segment.presented visible state) x))
        { d with store := d.store.amend x.tag (Segment.presented visible state) } Q E
  := by
  have hs' := hs.amend (Segment.keepsPlace_presented visible state) x.tag
  have hcurrent : (d.store.amend x.tag (Segment.presented visible state)).current? x.tag
      = some (x.segment.presented visible state) :=
    hs'.current?_eq (hs.held_amend h (Segment.presented visible state))
  rw [meets_bind, modifyStore, meets_modify, meets_bind, meets_refreshed, ← htag]
  change Meets (put host { x with
    segment := ((d.store.amend x.tag (Segment.presented visible state)).current? x.tag).getD _ })
    _ _ _ ↔ _
  rw [hcurrent]
  rfl

variable {H : Hearing ε} (hH : H.Governs host) {d : Desk ε} (hd : H.Holds d)
  (hs : d.store.Sound)

include hH hd hs

/-- Visibility and state of a record are set. -/
theorem meets_present {before after : List Held} {x : Held}
    (h : d.store.held = before ++ x :: after) (visible : Bool) (state : PlayState) :
  Meets (do
      modifyStore (·.amend x.tag fun s => { s with visible := visible, state := state })
      put host { x with segment := ← refreshed x }) d
    (fun _ => H.Learns d (d.store.presented x visible state)
      [⟨.updated, some (x.segment.presented visible state)⟩])
    (H.Breaks d)
  := by
  have hs' := hs.amend h (Segment.keepsPlace_presented visible state)
  have hheld := hs.held_amend h (Segment.presented visible state)
  have hset := Hearing.Learns.set (H := H) d
    (d.store.amend x.tag (Segment.presented visible state))
  have hput := meets_put hH (hset.holds hd) rfl hs' hheld
  rw [meets_presenting hs.regular h rfl]
  apply hput.mono
  · intro _ d' h'
    apply hset.append h'
  · intro f d' h'
    apply Conduct.Follows.breaks ⟨h'.1, hset.follows.trans h'.2⟩ (hs.presented h visible state)

/-- Visibility and state of given records are set. -/
theorem meets_showAll (visible : Bool) (state : PlayState) (records : List Held)
    (hmem : ∀ r ∈ records, r ∈ d.store.held) (htags : records.Pairwise fun x y => x.tag ≠ y.tag) :
  Meets (showAll host visible state records) d
    (fun ids d' => ids = records.map (·.segment.id)
      ∧ H.Attains d (d.store.timeline.marked visible state ids)
        (records.map fun r => ⟨.updated, some (r.segment.presented visible state)⟩) d')
    (H.Breaks d)
  := by
  induction records generalizing d with
  | nil =>
      rw [showAll, meets_pure, Timeline.marked_nil]
      exact ⟨rfl, Hearing.Attains.of_hears hs (H.nothing d)⟩
  | cons x rest ih =>
      obtain ⟨hne, htags⟩ := List.pairwise_cons.mp htags
      obtain ⟨hx, hrest⟩ := List.forall_mem_cons.mp hmem
      obtain ⟨before, after, h⟩ := List.append_of_mem hx
      have hs' := hs.presented h visible state
      rw [showAll_cons, meets_bind]
      apply (meets_present hH hd hs h visible state).imp
      intro _ d₁ h₁
      have hr₁ := h₁.attains hs'
      rw [hs.timeline_presented h] at hr₁
      have hrest₁ : ∀ r ∈ rest, r ∈ d₁.store.held := by
        intro r hr
        rw [h₁.store]
        apply Store.mem_presented (hrest r hr) (hne r hr)
      rw [meets_bind, meets_refreshed, h₁.store, hs.current?_presented h, meets_bind]
      apply (ih (hr₁.holds hd) hr₁.sound hrest₁ htags).mono
      · rintro ids d₂ ⟨rfl, h₂⟩
        rw [hr₁.timeline, Timeline.marked_cons] at h₂
        rw [meets_pure]
        exact ⟨rfl, hr₁.append h₂⟩
      · intro f d₂ h₂
        apply hr₁.reaches.breaks h₂

/-- Given records are removed. -/
theorem meets_removeAll (records : List Held) (hmem : ∀ r ∈ records, r ∈ d.store.held)
    (htags : records.Pairwise fun x y => x.tag ≠ y.tag) :
  Meets (removeAll host records) d
    (fun ids d' => ids = records.map (·.segment.id)
      ∧ H.Attains d (d.store.timeline.without ids)
        (records.map fun r => ⟨.removed, some r.segment⟩) d')
    (H.Breaks d)
  := by
  induction records generalizing d with
  | nil =>
      rw [removeAll, meets_pure, Timeline.without_nil]
      exact ⟨rfl, Hearing.Attains.of_hears hs (H.nothing d)⟩
  | cons x rest ih =>
      obtain ⟨hne, htags⟩ := List.pairwise_cons.mp htags
      obtain ⟨hx, hrest⟩ := List.forall_mem_cons.mp hmem
      obtain ⟨before, after, h⟩ := List.append_of_mem hx
      have hs' := hs.removedBetween h
      rw [removeAll, meets_bind, meets_refreshed, hs.current?_eq h, meets_bind]
      apply (meets_remove hH hd rfl hs h).mono
      · intro _ d₁ h₁
        have hr₁ := h₁.attains hs'
        rw [hs.timeline_removedBetween h] at hr₁
        have hrest₁ : ∀ r ∈ rest, r ∈ d₁.store.held := by
          intro r hr
          rw [h₁.store]
          apply Store.mem_removedBetween (hrest r hr) h (hne r hr)
        rw [meets_bind, meets_refreshed, h₁.store, hs.current?_removed h, meets_bind]
        apply (ih (hr₁.holds hd) hr₁.sound hrest₁ htags).mono
        · rintro ids d₂ ⟨rfl, h₂⟩
          rw [hr₁.timeline, Timeline.without_cons] at h₂
          rw [meets_pure]
          exact ⟨rfl, hr₁.append h₂⟩
        · intro f d₂ h₂
          apply hr₁.reaches.breaks h₂
      · intro f d₁ h₁
        apply Conduct.Follows.breaks h₁ hs'

end Desk

end Montage
