import Montage.Proofs.Desk.Incremental
import Montage.Proofs.Desk.Unchanged

/-!
# Direct cuts and what is remembered

A direct cut removes a segment and adds its two parts, and each of these changes is announced.
As long as the listeners raise nothing, a cut leaves the segments as they were or makes the
desk forget its fingerprint, whatever else the listeners do.  A listener that raises breaks
the cut off halfway: the segment is gone, and the fingerprint is still remembered.
-/

namespace Montage

variable {ε : Type}

namespace Surroundings

/-- The listeners to the store raise nothing; otherwise they do what they like. -/
def Silent (host : Surroundings ε) : Prop :=
  ∀ listener event d, Desk.Meets (host.onEvent listener event) d (fun _ _ => True)
    (fun _ _ => False)

/-- The listeners to the store pass a busy desk by; they may raise anything. -/
def PassBy (host : Surroundings ε) : Prop :=
  ∀ listener event (d : Desk ε), d.Busy → Desk.Meets (host.onEvent listener event) d
    (fun _ => (Manner.free ε).Passes d) (fun _ => (Manner.free ε).Passes d)

end Surroundings

namespace Store

/-- A store lists no record under the id of a given one. -/
def Misses (s : Store) (x : Held) : Prop :=
  ∀ y ∈ s.held, y.segment.id ≠ x.segment.id

variable {s : Store} {before after : List Held} {x : Held}

/-- What is added gets a new id. -/
theorem Misses.addedBetween {clip : Clip} (h : s.Misses x) (hsplit : s.held = before ++ after)
    (hid : x.segment.id < s.nextId) :
  (s.addedBetween before clip after).Misses x
  := by
  have hperm : (before ++ s.nextRecord clip :: after).Perm (s.nextRecord clip :: s.held) :=
    hsplit ▸ List.perm_middle
  intro y hy
  rcases List.mem_cons.mp (hperm.mem_iff.mp hy) with rfl | hy
  · apply Ne.symm (Int.ne_of_lt hid)
  · apply h y hy

theorem Misses.segments_ne {s' : Store} (h : s'.Misses x) (hx : x ∈ s.held) :
  s'.segments ≠ s.segments
  := by
  intro hsame
  obtain ⟨y, hy, hyx⟩ := List.mem_map.mp (hsame ▸ mem_segments hx)
  apply h y hy
  rw [hyx]

end Store

namespace Desk

/-- The segments are as they were, or no fingerprint is remembered. -/
def Forgets (d d' : Desk ε) : Prop :=
  d'.store.segments = d.store.segments ∨ d'.fingerprint = none

/-- A direct cut at a desk succeeds. -/
def CutSucceeds (host : Surroundings ε) (time : Double) (d : Desk ε) : Prop :=
  ∃ r d', insertCut host time d = .ok (some r) d' ∧ r.success = true

variable {host : Surroundings ε} {d : Desk ε}

/-! ### Commands that fail -/

/-- The failure of a command leaves everything but the surroundings as it is. -/
theorem meets_failed_logged (c : Command) (f : Fault) :
  Meets (failed host c f) d
    (fun r d' => r.success = false ∧ ∃ line, d' = logged host line d) (fun _ d' => d' = d)
  := by
  unfold failed
  split
  · rename_i cause
    rw [meets_bind]
    cases Text.writeInteger c.line with
    | error f => rw [meets_ofExcept_error]
    | ok line =>
        rw [meets_ofExcept_ok, meets_bind]
        cases c.text with
        | error f => rw [meets_ofExcept_error]
        | ok text =>
            rw [meets_ofExcept_ok, meets_bind, log, meets_modify, meets_pure]
            exact ⟨rfl, _, rfl⟩
  · rw [meets_throw]

/-- A time that no segment encloses is refused before anything has changed. -/
theorem meets_cut_refused {time : Double} (h : d.store.enclosing? time = none) :
  Meets (cut host time) d (fun _ _ => False) (fun _ d' => d' = d)
  := by
  rw [cut, meets_bind, meets_get, h]
  dsimp only
  rw [meets_bind]
  cases Timecode.stamp time with
  | error f => rw [meets_ofExcept_error]
  | ok stamp =>
      rw [meets_ofExcept_ok]
      split
      · rw [meets_throw]
      · rw [meets_throw]

/-! ### Listeners that raise nothing -/

section Silent

variable (hsilent : host.Silent)

include hsilent

theorem meets_announce_silent (kind : EventKind) (tag : Option Nat) :
  Meets (announce host kind tag) d (fun _ _ => True) (fun _ _ => False)
  := by
  rw [announce, meets_bind, meets_get]
  generalize d.listeners = listeners
  induction listeners generalizing d with
  | nil =>
      rw [tell, meets_pure]
      trivial
  | cons listener rest ih =>
      rw [tell, meets_bind, meets_get, meets_bind]
      apply (hsilent listener _ d).imp
      intro _ d' _
      apply ih

theorem meets_remove_silent (id : Int) :
  Meets (remove host id) d (fun _ _ => True) (fun _ _ => False)
  := by
  rw [remove, meets_bind, meets_get]
  split
  · rw [meets_pure]
    trivial
  · rw [meets_bind, meets_set]
    apply meets_announce_silent hsilent

/-- A clip is added under a new id. -/
theorem meets_add_silent (clip : Clip) :
  Meets (add host clip none) d (fun _ _ => True) (fun _ _ => False)
  := by
  rw [meets_add_of_insert rfl]
  apply meets_announce_silent hsilent

/-- A cut succeeds, or is refused before anything has changed. -/
theorem meets_cut_silent (time : Double) :
  Meets (cut host time) d (fun _ _ => True) (fun _ d' => d' = d)
  := by
  cases henclosing : d.store.enclosing? time with
  | none => apply (meets_cut_refused henclosing).imp fun _ _ h => h.elim
  | some target =>
      have hparts : ∀ head tail d₀, Meets (do
          remove host target.id
          let head ← add host head none
          let tail ← add host tail none
          return [(← refreshed head).id, (← refreshed tail).id]) d₀
          (fun _ _ => True) (fun _ _ => False) := by
        intro head tail d₀
        rw [meets_bind]
        apply (meets_remove_silent hsilent _).imp
        intro _ d₁ _
        rw [meets_bind]
        apply (meets_add_silent hsilent _).imp
        intro _ d₂ _
        rw [meets_bind]
        apply (meets_add_silent hsilent _).imp
        intro _ d₃ _
        rw [meets_bind, meets_refreshed, meets_bind, meets_refreshed, meets_pure]
        trivial
      rw [cut, meets_bind, meets_get, henclosing]
      dsimp only
      rw [meets_bind]
      generalize Clip.checked _ = head
      cases head with
      | error f => rw [meets_ofExcept_error]
      | ok head =>
          rw [meets_ofExcept_ok, meets_bind]
          generalize Clip.checked _ = tail
          cases tail with
          | error f => rw [meets_ofExcept_error]
          | ok tail =>
              rw [meets_ofExcept_ok]
              apply (hparts head tail d).mono (fun _ _ h => h) fun _ _ h => h.elim

theorem meets_executeOne_cut_silent (time : Double) :
  Meets (executeOne host ⟨.cut time, 0⟩) d
    (fun r d' => r.success = true ∨ d'.store = d.store) (fun _ d' => d'.store = d.store)
  := by
  rw [executeOne, meets_tryCatch, meets_bind, applyEdit]
  apply (meets_cut_silent hsilent time).mono
  · intro ids d' _
    rw [meets_pure]
    left
    rfl
  · rintro f d' rfl
    apply (meets_failed_logged _ f).mono
    · rintro r d' ⟨-, line, rfl⟩
      right
      rfl
    · rintro f' d' rfl
      rfl

theorem forgets_insertCut_silent (time : Double) :
  Forgets d (after (insertCut host time) d)
  := by
  apply Meets.after
  by_cases hphase : d.phase = .parsing
  · rw [meets_insertCut_parsing time hphase]
    left
    rfl
  · rw [meets_insertCut time hphase]
    apply (meets_executeOne_cut_silent hsilent time).mono
    · rintro r d' (hr | hstore)
      · right
        exact if_pos hr
      · left
        exact congrArg Store.segments hstore
    · intro f d' hstore
      left
      exact congrArg Store.segments hstore

end Silent

/-! ### Listeners that may raise -/

/-- A desk that an interrupted cut leaves: all is as it was but the store, from which a record
is missing. -/
def Halfway (d : Desk ε) (x : Held) (d' : Desk ε) : Prop :=
  ∃ s, (Conduct.passing ε).Follows d s d' ∧ s.Misses x

section PassBy

variable (hpass : host.PassBy) (hd : d.Busy)

include hpass hd

/-- An announcement that is made or broken off, once a store is in place. -/
theorem meets_announce_passBy (s : Store) (kind : EventKind) (tag : Option Nat) :
  Meets (announce host kind tag) { d with store := s } (fun _ => (Conduct.passing ε).Follows d s)
    (fun _ => (Conduct.passing ε).Follows d s)
  := by
  unfold Conduct.Follows
  rw [announce, meets_bind, meets_get]
  generalize hd₀ : ({ d with store := s } : Desk ε) = d₀
  have hbusy : d₀.Busy := hd₀ ▸ ⟨hd.parsing, hd.poll⟩
  clear hd₀
  generalize d₀.listeners = listeners
  induction listeners generalizing d₀ with
  | nil =>
      rw [tell, meets_pure]
      apply Manner.Passes.refl
  | cons listener rest ih =>
      rw [tell, meets_bind, meets_get]
      apply Meets.bind_trans (fun h h' => h.trans h') (fun h h' => h.trans h')
        (hpass listener _ d₀ hbusy)
      intro _ d' h
      apply ih d' (h.busy hbusy)

section Store

variable {s : Store} (hstore : d.store = s) (hs : s.Sound) {before after : List Held}

include hstore hs

theorem meets_remove_passBy {x : Held} (h : s.held = before ++ x :: after) :
  Meets (remove host x.segment.id) d
    (fun _ => (Conduct.passing ε).Follows d (s.removedBetween before x after))
    (fun _ => (Conduct.passing ε).Follows d (s.removedBetween before x after))
  := by
  subst hstore
  rw [meets_remove_of_erase (hs.erase_eq h)]
  apply meets_announce_passBy hpass hd

theorem meets_add_passBy (h : s.held = before ++ after) {clip : Clip} (hclip : clip.Proper)
    (hb : ∀ y ∈ before, y.segment.stop ≤ clip.start)
    (ha : ∀ y ∈ after, clip.stop ≤ y.segment.start) :
  Meets (add host clip none) d
    (fun _ => (Conduct.passing ε).Follows d (s.addedBetween before clip after))
    (fun _ => (Conduct.passing ε).Follows d (s.addedBetween before clip after))
  := by
  subst hstore
  rw [meets_add_of_insert (hs.insert_eq h hclip hb ha)]
  apply meets_announce_passBy hpass hd

end Store

variable (hs : d.store.Sound)

include hs

/-- A cut of a segment that is not carried out to the end leaves the desk without it. -/
theorem meets_cut_passBy {time : Double} {target : Segment}
    (henclosing : d.store.enclosing? time = some target) :
  Meets (cut host time) d (fun _ _ => True)
    (fun _ d' => ∃ x ∈ d.store.held, Halfway d x d')
  := by
  obtain ⟨before, x, after, h, rfl, hx⟩ := Store.exists_enclosing henclosing
  have hmem : x ∈ d.store.held := h ▸ List.mem_append_right before List.mem_cons_self
  have hproper := hs.held_proper x hmem
  have hid := hs.held_ids_lt x hmem
  have hhead := (hproper.headAt hx).checked
  have htail := (hproper.tailAt hx).checked
  have hs₁ := hs.removedBetween h
  have hs₂ := hs.withHead h hx
  obtain ⟨hb₁, ha₁⟩ := hs.head_between h hx
  obtain ⟨hb₂, ha₂⟩ := hs.tail_between h hx
  -- The record is missing from the moment it is removed, since its parts get new ids.
  have hmiss₁ : (d.store.removedBetween before x after).Misses x := hs.id_ne h
  have hmiss₂ : (d.store.withHead before x after time).Misses x := hmiss₁.addedBetween rfl hid
  have hmiss₃ : (d.store.parted before x after time).Misses x :=
    hmiss₂.addedBetween Store.held_withHead (Int.lt_add_one_of_le (Int.le_of_lt hid))
  simp only [Clip.headAt, Clip.tailAt] at hhead htail
  rw [cut, meets_bind, meets_get, henclosing]
  dsimp only
  rw [hhead, htail, meets_bind, meets_ofExcept_ok, meets_bind, meets_ofExcept_ok, meets_bind]
  apply (meets_remove_passBy hpass hd rfl hs h).mono
  · intro _ d₁ h₁
    have hd₁ := h₁.holds hd
    rw [meets_bind]
    apply (meets_add_passBy hpass hd₁ h₁.store hs₁ rfl (hproper.headAt hx) hb₁ ha₁).mono
    · intro head d₂ h₂
      have hd₂ := h₂.holds hd₁
      rw [meets_bind]
      apply (meets_add_passBy hpass hd₂ h₂.store hs₂ Store.held_withHead (hproper.tailAt hx)
        hb₂ ha₂).mono
      · intro tail d₃ _
        rw [meets_bind, meets_refreshed, meets_bind, meets_refreshed, meets_pure]
        trivial
      · intro f d₃ h₃
        exact ⟨x, hmem, _, (h₁.trans h₂).trans h₃, hmiss₃⟩
    · intro f d₂ h₂
      exact ⟨x, hmem, _, h₁.trans h₂, hmiss₂⟩
  · intro f d₁ h₁
    exact ⟨x, hmem, _, h₁, hmiss₁⟩

/-- How a direct cut of a segment ends that is not carried out to the end: the fingerprint is
still remembered, and the segments are others. -/
def Disturbs (d d' : Desk ε) : Prop :=
  d'.fingerprint = d.fingerprint ∧ d'.store.segments ≠ d.store.segments

omit hpass hd hs in
theorem Halfway.disturbs {x : Held} {d' : Desk ε} (h : Halfway d x d') (hx : x ∈ d.store.held) :
  Disturbs d d'
  := by
  obtain ⟨s, hfollows, hmiss⟩ := h
  obtain rfl := hfollows.store
  refine ⟨?_, hmiss.segments_ne hx⟩
  rw [hfollows.rest]

theorem meets_executeOne_cut_passBy {time : Double} {target : Segment}
    (henclosing : d.store.enclosing? time = some target) :
  Meets (executeOne host ⟨.cut time, 0⟩) d (fun r d' => r.success = true
      ∨ (r.success = false ∧ Disturbs d d'))
    (fun _ d' => Disturbs d d')
  := by
  rw [executeOne, meets_tryCatch, meets_bind, applyEdit]
  apply (meets_cut_passBy hpass hd hs henclosing).mono
  · intro ids d' _
    rw [meets_pure]
    left
    rfl
  · rintro f d' ⟨x, hx, hhalfway⟩
    have hdisturbs := hhalfway.disturbs hx
    apply (meets_failed_logged _ f).mono
    · rintro r d'' ⟨hr, line, rfl⟩
      right
      exact ⟨hr, hdisturbs⟩
    · rintro f' d'' rfl
      apply hdisturbs

end PassBy

/-- A direct cut at a desk that is free, among listeners that pass it by, but may raise
anything. -/
theorem forgets_insertCut_iff (hpass : host.PassBy) (hd : d.Free) (time : Double) :
  Forgets d (after (insertCut host time) d)
    ↔ d.fingerprint = none ∨ (∀ x ∈ d.store.segments, x.encloses time = false)
      ∨ CutSucceeds host time d
  := by
  cases henclosing : d.store.enclosing? time with
  | none =>
      have houtside : ∀ x ∈ d.store.segments, x.encloses time = false := by
        intro x hx
        simpa using List.find?_eq_none.mp henclosing x hx
      have hkept : Forgets d (after (insertCut host time) d) := by
        apply Meets.after
        rw [meets_insertCut time hd.not_parsing, executeOne, meets_tryCatch, meets_bind, applyEdit]
        apply (meets_cut_refused (d := { d with phase := .parsing }) henclosing).mono
        · intro _ _ h
          apply h.elim
        · rintro f d' rfl
          apply (meets_failed_logged _ f).mono
          · rintro r d' ⟨-, line, rfl⟩
            left
            rfl
          · rintro f' d' rfl
            left
            rfl
      exact iff_of_true hkept (Or.inr (Or.inl houtside))
  | some target =>
      have hinside : ¬ ∀ x ∈ d.store.segments, x.encloses time = false := by
        intro h
        have hencloses := List.find?_some (p := fun x : Segment => x.encloses time) henclosing
        rw [h target (List.mem_of_find?_eq_some henclosing)] at hencloses
        cases hencloses
      have hdisturbed : ∀ d', Disturbs d d' → (Forgets d d' ↔ d.fingerprint = none) := by
        rintro d' ⟨hfingerprint, hsegments⟩
        rw [Forgets, hfingerprint]
        apply or_iff_right hsegments
      have hmeets : Meets (insertCut host time) d
          (fun r d' => (∃ r', r = some r' ∧ r'.success = true ∧ d'.fingerprint = none)
            ∨ ((∀ r', r = some r' → r'.success = false) ∧ Disturbs d d'))
          (fun _ d' => Disturbs d d') := by
        rw [meets_insertCut time hd.not_parsing]
        apply (meets_executeOne_cut_passBy hpass hd.entered hd.sound henclosing).mono
        · rintro r d' (hr | ⟨hr, hdisturbs⟩)
          · left
            exact ⟨r, rfl, hr, if_pos hr⟩
          · right
            constructor
            · rintro r' ⟨⟩
              apply hr
            · rw [Disturbs, hr]
              apply hdisturbs
        · intro f d' hdisturbs
          apply hdisturbs
      rw [or_iff_right hinside, CutSucceeds, after]
      cases hrun : insertCut host time d with
      | error f d' =>
          have hdisturbs := (meets_of_error hrun).mp hmeets
          rw [hdisturbed d' hdisturbs]
          simp
      | ok r d' =>
          rcases (meets_of_ok hrun).mp hmeets with ⟨r', rfl, hr', hnone⟩ | ⟨hfailed, hdisturbs⟩
          · exact iff_of_true (Or.inr hnone) (Or.inr ⟨r', d', rfl, hr'⟩)
          · rw [hdisturbed d' hdisturbs, or_iff_left]
            rintro ⟨r', d'', hsame, hr'⟩
            cases hsame
            rw [hfailed r' rfl] at hr'
            cases hr'

/-- A direct cut never leaves a stale fingerprint behind as long as the listeners raise
nothing, whatever else they do: the segments are as they were, or nothing is remembered, and
then the next text that is evaluated runs its commands.  Where the listeners raise and leave
the desk alone otherwise, this fails in exactly one case: a cut that should part a segment was
not carried out to the end, and a fingerprint was remembered. -/
theorem insertCut_forgets (host : Surroundings ε) (d : Desk ε) (time : Double) :
  (host.Silent → Forgets d (after (insertCut host time) d))
    ∧ (host.PassBy → d.Free → (Forgets d (after (insertCut host time) d)
      ↔ d.fingerprint = none ∨ (∀ x ∈ d.store.segments, x.encloses time = false)
        ∨ CutSucceeds host time d))
    ∧ ((after (insertCut host time) d).fingerprint = none → ∀ (next : Surroundings ε) text pass d',
      submit next text (after (insertCut host time) d) = .ok (some pass) d' →
      pass.executed = true)
  := by
  refine ⟨?_, ?_, ?_⟩
  · intro hsilent
    apply forgets_insertCut_silent hsilent
  · intro hpass hd
    apply forgets_insertCut_iff hpass hd
  · intro hnone next text pass d' hsubmit
    obtain ⟨fp, -, hexecuted⟩ := executed_of_submit hsubmit
    rw [hnone] at hexecuted
    simpa using hexecuted

/-! ### A listener that fails when a segment is removed -/

/-- A script that loads a file. -/
def oneFile : String :=
  "LOAD a.mp4"

/-- A listener that fails when it learns that a segment is removed. -/
def startled : Surroundings Unit :=
  { Surroundings.alone everyTenSeconds with
    onEvent := fun _ event =>
      if event.kind = .removed then throw (.foreign "RuntimeError" .runtime "boom")
      else pure () }

/-- The desk after the script has been submitted. -/
def fileLoaded : Desk Unit :=
  movedBy [.submit startled oneFile] followed

theorem reentrant_startled (listener : Nat) (event : Event) :
  Reentrant (startled.onEvent listener event)
  := by
  rw [startled]
  dsimp only
  split
  · apply Reentrant.throw
  · apply Reentrant.pure

theorem startled_reenters :
  startled.Reenters everyTenSeconds
  := by
  obtain ⟨-, hpass, herror, hlookup⟩ := Surroundings.reenters_alone everyTenSeconds
  exact ⟨reentrant_startled, hpass, herror, hlookup⟩

theorem free_fileLoaded :
  fileLoaded.Free
  := by
  have hfair : ∀ m ∈ [Move.submit startled oneFile], m.Fair everyTenSeconds := by
    intro m hm
    obtain rfl := List.mem_singleton.mp hm
    refine ⟨startled_reenters, ?_⟩
    intro listener event d _
    rw [startled]
    dsimp only
    split
    · rw [meets_throw]
      intro cause h
      cases h
    · rw [meets_pure]
      trivial
  have hfree : followed.Free := ⟨rfl, rfl, Store.sound_of_empty rfl⟩
  have hcoherent : Memo.Coherent everyTenSeconds [] followed := Or.inl rfl
  apply (coherent_movedBy hfair hfree hcoherent).1

/-- The pass that submitting the script again publishes, if it publishes one, and the segments
after it. -/
def submittedAgain (d : Desk Unit) : Option (Bool × List Segment) :=
  match submit startled oneFile d with
  | .ok (some pass) d' => some (pass.executed, d'.store.segments)
  | _ => none

theorem of_submittedAgain {d : Desk Unit} {executed : Bool} {segments : List Segment}
    (h : submittedAgain d = some (executed, segments)) :
  ∃ pass d', submit startled oneFile d = .ok (some pass) d'
    ∧ pass.executed = executed ∧ d'.store.segments = segments
  := by
  rw [submittedAgain] at h
  split at h
  · rename_i pass d' hsubmit
    cases h
    exact ⟨pass, d', hsubmit, rfl, rfl⟩
  · cases h

theorem insertCut_forgets_atEnd :
  (Surroundings.alone everyTenSeconds).Silent
    ∧ Forgets fileLoaded (after (insertCut (.alone everyTenSeconds) (.ofInt 5)) fileLoaded)
    ∧ (∃ pass d', submit startled oneFile
        (after (insertCut (.alone everyTenSeconds) (.ofInt 5)) fileLoaded) = .ok (some pass) d'
      ∧ pass.executed = true)
    ∧ startled.PassBy ∧ fileLoaded.Free
    ∧ Forgets fileLoaded (after (insertCut startled (.ofInt 10)) fileLoaded)
  := by
  have hsilent : (Surroundings.alone everyTenSeconds).Silent := by
    intro listener event d
    change Meets (pure ()) d _ _
    rw [meets_pure]
    trivial
  have hpass : startled.PassBy := by
    intro listener event d hd
    apply (reentrant_startled listener event).passes hd
  have hoff : ∀ x ∈ fileLoaded.store.segments, x.encloses (.ofInt 10) = false := by
    decide +kernel
  have hnone : (after (insertCut (.alone everyTenSeconds) (.ofInt 5)) fileLoaded).fingerprint
      = none := by
    decide +kernel
  have hagain : (submittedAgain (after (insertCut (.alone everyTenSeconds) (.ofInt 5))
      fileLoaded)).isSome = true := by
    decide +kernel
  obtain ⟨⟨executed, segments⟩, hsome⟩ := Option.isSome_iff_exists.mp hagain
  obtain ⟨pass, d', hsubmit, -, -⟩ := of_submittedAgain hsome
  obtain ⟨hkept, -, hnext⟩ := insertCut_forgets (.alone everyTenSeconds) fileLoaded (.ofInt 5)
  obtain ⟨-, hiff, -⟩ := insertCut_forgets startled fileLoaded (.ofInt 10)
  refine ⟨hsilent, hkept hsilent, ?_, hpass, free_fileLoaded, ?_⟩
  · exact ⟨pass, d', hsubmit, hnext hnone startled oneFile pass d' hsubmit⟩
  · exact (hiff hpass free_fileLoaded).mpr (Or.inr (Or.inl hoff))

/-- A listener that raises when a segment is removed breaks off the cut of the segment.  The
segment is then gone, the fingerprint of the script is remembered all the same, and the script
is not run when it is submitted again. -/
theorem startled_insertCut_remembers :
  ¬ Forgets fileLoaded (after (insertCut startled (.ofInt 5)) fileLoaded)
    ∧ ∃ pass d', submit startled oneFile (after (insertCut startled (.ofInt 5)) fileLoaded)
        = .ok (some pass) d'
      ∧ pass.executed = false ∧ d'.store.segments = []
  := by
  constructor
  · unfold Forgets
    decide +kernel
  · apply of_submittedAgain
    decide +kernel

end Desk

end Montage
