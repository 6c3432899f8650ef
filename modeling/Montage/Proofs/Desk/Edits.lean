import Montage.Proofs.Desk.Lookup
import Montage.Proofs.Timeline.Announced

/-!
# Edits of a desk under a conduct

On a desk with a sound store, and with surroundings that keep to a conduct, an edit makes of
the timeline what `Timeline.edit` says, and what is heard of it is what `Timeline.announced`
says.
-/

namespace Montage

namespace Hearing

variable {ε : Type} (H : Hearing ε)

/-- An edit has succeeded: its events were heard, and the desk shows the timeline it leads
to. -/
def Performs (look : String → Lookup) (d : Desk ε) (e : Edit) (ids : List Int)
    (d' : Desk ε) : Prop :=
  ∃ t, d.store.timeline.edit look e = .ok (t, ids)
    ∧ H.Attains d t (d.store.timeline.announced look e) d'

/-- An edit has failed: it was refused without a sound and the desk shows the timeline it did,
or the surroundings have ended it. -/
def Refuses (look : String → Lookup) (d : Desk ε) (e : Edit) (f : Fault) (d' : Desk ε) : Prop :=
  H.Breaks d f d'
    ∨ (d.store.timeline.edit look e = .error f ∧ H.Attains d d.store.timeline [] d')

end Hearing

namespace Desk

variable {ε : Type} {host : Surroundings ε} {H : Hearing ε} {d : Desk ε}

@[simp]
theorem meets_refreshed {Q : Segment → Desk ε → Prop} {E : Fault → Desk ε → Prop}
    (record : Held) :
  Meets (refreshed record) d Q E
    ↔ Q ((d.store.current? record.tag).getD record.segment) d
  := by
  rw [refreshed, meets_bind, meets_get, meets_pure]

variable (hH : H.Governs host) (hd : H.Holds d) (hs : d.store.Sound)

include hH hd

/-- A file that is to be loaded takes the place of whatever the store was made of. -/
theorem meets_load_anew (path : String) :
  Meets (load host path) d
    (fun ids d' => ∃ duration, (lookupAt host d path).playable path = .ok duration ∧ ids = [1]
      ∧ H.Attains d (.whole path duration)
        [⟨.cleared, none⟩, ⟨.added, some ⟨{ start := .zero, stop := duration, path }, 1⟩⟩] d')
    (fun f d' => H.Breaks d f d'
      ∨ (lookupAt host d path).playable path = .error f ∧ H.Hears d [] d')
  := by
  rw [load, meets_bind]
  apply (meets_playableDuration hH hd path).mono
  · rintro duration d₁ ⟨hplayable, h₁⟩
    have hlearns₁ := Hearing.Learns.of_hears h₁
    have hd₁ := hlearns₁.holds hd
    have hs₂ := Store.sound_cleared d₁.store
    have hproper : Clip.Proper { start := .zero, stop := duration, path } :=
      ⟨Double.zero_le_zero, (Lookup.of_playable hplayable).2⟩
    have hheld : d₁.store.cleared.held = [] ++ [] := rfl
    have hs₃ := hs₂.addedBetween hheld hproper (by simp) (by simp)
    rw [meets_bind]
    apply (meets_clear hH hd₁ rfl).mono
    · intro _ d₂ h₂
      have hlearns₂ := hlearns₁.append h₂
      have hd₂ := hlearns₂.holds hd
      rw [meets_bind]
      apply (meets_add hH hd₂ h₂.store hs₂ hheld hproper
        (by simp) (by simp)).mono
      · rintro record d₃ ⟨rfl, h₃⟩
        have hlearns := hlearns₂.append h₃
        rw [meets_bind]
        apply (meets_log hH (hlearns.holds hd) _).imp
        intro _ d₄ h₄
        have h := hlearns.silently h₄
        rw [meets_bind, meets_refreshed, meets_pure, h.store, hs₃.current?_eq rfl]
        exact ⟨duration, hplayable, rfl, h.attains hs₃⟩
      · rintro f d₃ ⟨hf, h₃⟩
        left
        apply Conduct.Follows.breaks ⟨hf, hlearns₂.follows.trans h₃⟩ hs₃
    · rintro f d₂ ⟨hf, h₂⟩
      left
      apply Conduct.Follows.breaks ⟨hf, hlearns₁.follows.trans h₂⟩ hs₂
  · rintro f d₁ h₁
    right
    apply h₁

include hs

/-- A file is loaded. -/
theorem meets_load (path : String) :
  Meets (load host path) d (H.Performs (lookupAt host d) d (.load path))
    (H.Refuses (lookupAt host d) d (.load path))
  := by
  apply (meets_load_anew hH hd path).mono
  · rintro ids d' ⟨duration, hplayable, rfl, h⟩
    use Timeline.whole path duration
    constructor
    · simp only [Timeline.edit, hplayable]
      rfl
    · simp only [Timeline.announced, hplayable]
      apply h
  · rintro f d' (hbreaks | ⟨hplayable, h⟩)
    · left
      apply hbreaks
    · right
      constructor
      · simp only [Timeline.edit, hplayable]
        rfl
      · apply Hearing.Attains.of_hears hs h

/-- A segment that encloses a time is replaced by its parts. -/
theorem meets_part {before after : List Held} {x : Held}
    (h : d.store.held = before ++ x :: after) {time : Double} (hx : x.segment.encloses time) :
  Meets (do
      remove host x.segment.id
      let head ← add host (x.segment.headAt time) none
      let tail ← add host (x.segment.tailAt time) none
      return [(← refreshed head).id, (← refreshed tail).id]) d
    (fun ids d' => ids = [d.store.nextId, d.store.nextId + 1]
      ∧ H.Learns d (d.store.parted before x after time)
        [⟨.removed, some x.segment⟩, ⟨.added, some ⟨x.segment.headAt time, d.store.nextId⟩⟩,
          ⟨.added, some ⟨x.segment.tailAt time, d.store.nextId + 1⟩⟩] d')
    (H.Breaks d)
  := by
  have hproper := hs.held_proper x (h ▸ List.mem_append_right before List.mem_cons_self)
  have hs₁ := hs.removedBetween h
  have hs₂ := hs.withHead h hx
  have hs₃ := hs.parted h hx
  have hparts := hs.current?_parted h hx
  obtain ⟨hb₁, ha₁⟩ := hs.head_between h hx
  obtain ⟨hb₂, ha₂⟩ := hs.tail_between h hx
  rw [meets_bind]
  apply (meets_remove hH hd rfl hs h).mono
  · intro _ d₁ h₁
    have hd₁ := h₁.holds hd
    rw [meets_bind]
    apply (meets_add hH hd₁ h₁.store hs₁ rfl (hproper.headAt hx) hb₁ ha₁).mono
    · rintro record d₂ ⟨rfl, h₂⟩
      have hd₂ := h₂.holds hd₁
      rw [meets_bind]
      apply (meets_add hH hd₂ h₂.store hs₂ Store.held_withHead (hproper.tailAt hx) hb₂
        ha₂).mono
      · rintro record d₃ ⟨rfl, h₃⟩
        have h := (h₁.append h₂).append h₃
        rw [meets_bind, meets_refreshed, meets_bind, meets_refreshed, meets_pure, h.store]
        constructor
        · apply congrArg₂ (fun x y : Option Segment => [(x.getD _).id, (y.getD _).id])
            hparts.1 hparts.2
        · apply h
      · intro f d₃ h₃
        apply ((h₁.append h₂).follows.reaches hs₂).breaks (Conduct.Follows.breaks h₃ hs₃)
    · intro f d₂ h₂
      apply (h₁.follows.reaches hs₁).breaks (Conduct.Follows.breaks h₂ hs₂)
  · intro f d₁ h₁
    apply Conduct.Follows.breaks h₁ hs₁

omit hH hd in
/-- A time that no segment encloses cuts nothing. -/
theorem meets_cut_outside (look : String → Lookup) {time : Double}
    (henclosing : d.store.enclosing? time = none) :
  Meets (cut host time) d (H.Performs look d (.cut time)) (H.Refuses look d (.cut time))
  := by
  have hnone := Store.enclosing?_eq_none henclosing
  have hrefuses : ∀ f, d.store.timeline.cutFault time = f →
      H.Refuses look d (.cut time) f d := by
    rintro f rfl
    right
    constructor
    · simp [Timeline.edit, hnone]
    · apply Hearing.Attains.of_hears hs (H.nothing d)
  have hany : d.store.timeline.segments.any (·.contains time)
      = (d.store.at? time).isSome := List.isSome_find?.symm
  rw [cut, meets_bind, meets_get, henclosing]
  dsimp only
  unfold Timeline.cutFault at hrefuses
  rw [hany] at hrefuses
  cases hstamp : Timecode.stamp time with
  | error f =>
      rw [hstamp] at hrefuses
      rw [meets_bind, meets_ofExcept_error]
      apply hrefuses f rfl
  | ok stamp =>
      rw [hstamp] at hrefuses
      cases hat : d.store.at? time with
      | none =>
          rw [hat] at hrefuses
          rw [meets_bind, meets_ofExcept_ok, meets_throw]
          apply hrefuses _ rfl
      | some y =>
          rw [hat] at hrefuses
          rw [meets_bind, meets_ofExcept_ok, meets_throw]
          apply hrefuses _ rfl

/-- A time cuts the segment that encloses it. -/
theorem meets_cut (look : String → Lookup) (time : Double) :
  Meets (cut host time) d (H.Performs look d (.cut time)) (H.Refuses look d (.cut time))
  := by
  cases henclosing : d.store.enclosing? time with
  | none => apply meets_cut_outside hs look henclosing
  | some target =>
      obtain ⟨before, x, after, h, rfl, hx⟩ := Store.exists_enclosing henclosing
      have hmem : x ∈ d.store.held := h ▸ List.mem_append_right before List.mem_cons_self
      have hproper := hs.held_proper x hmem
      have hhead := (hproper.headAt hx).checked
      have htail := (hproper.tailAt hx).checked
      have hany : d.store.timeline.segments.any (·.encloses time) = true :=
        List.any_eq_true.mpr ⟨x.segment, Store.mem_segments hmem, hx⟩
      have hfind : d.store.timeline.segments.find? (·.encloses time) = some x.segment :=
        henclosing
      rw [cut, meets_bind, meets_get, henclosing]
      simp only [Clip.headAt, Clip.tailAt] at hhead htail
      dsimp only
      rw [hhead, htail, meets_bind, meets_ofExcept_ok, meets_bind, meets_ofExcept_ok]
      apply (meets_part hH hd hs h hx).mono
      · rintro ids d' ⟨rfl, h'⟩
        use d.store.timeline.cutAt time
        constructor
        · rw [Timeline.edit, if_pos hany]
          rfl
        · rw [← hs.timeline_parted h hx, Timeline.announced, hfind]
          simp only [Segment.cutAt, if_pos hx]
          apply h'.attains (hs.parted h hx)
      · intro f d' h'
        left
        apply h'

end Desk

end Montage
