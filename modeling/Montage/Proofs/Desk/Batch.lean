import Montage.Proofs.Desk.Execute
import Montage.Proofs.Desk.Recorder
import Montage.Proofs.Timeline.Succeeded

/-!
# Batches that nothing disturbs

Where every file that is loaded is what a table says, a batch that is not given up comes to
what `Timeline.follow` says, and what is heard of it is what `Timeline.told` says:
`Desk.meets_batch`.  If in addition nobody raises anything, this is what running a batch
comes to at a desk, and what recorders are told of it: `Desk.meets_execute_told`.  The same is
said of single commands and of cuts, which do not look anything up.
-/

namespace Montage

/-- What recorders have been told on the way to a desk. -/
theorem Hearing.Attains.tells {ε : Type} {C : Conduct ε} {host : Surroundings ε} {d d' : Desk ε}
    {t : Timeline} {events : List Event} (h : (C.recorded host).Attains d t events d') :
  d'.store.timeline = t ∧ host.Tells events d d'
  := ⟨h.timeline, h.learns.2.congr rfl rfl rfl rfl⟩

namespace Desk

variable {ε : Type} {host : Surroundings ε} {media : String → Except Fault Double} {d : Desk ε}

section Heard

variable {H : Hearing ε} (hH : H.Governs host) {late : Prop}

include hH

/-- A command that is not overtaken comes to what it does undisturbed, and what it announces is
heard.  It may be overtaken only if it can be `late`. -/
theorem meets_executeOne_answered (hd : H.Holds d) (hs : d.store.Sound) {c : Command}
    (hlook : ∀ path, c.edit = .load path →
      (lookupAt host d path).answer = media path ∧ ((lookupAt host d path).overtaken = true → late)) :
  Meets (executeOne host c) d
    (fun r d' => (late ∧ r.isCancelled = true)
      ∨ ∃ t, d.store.timeline.execute (Lookup.undisturbed media) c = .ok (t, r)
        ∧ H.Attains d t (d.store.timeline.announced (Lookup.undisturbed media) c.edit) d')
    (fun f d' => H.Breaks d f d'
      ∨ d.store.timeline.execute (Lookup.undisturbed media) c = .error f
      ∨ late ∧ c.mention = .error f)
  := by
  have hone := meets_executeOne_heard hH hd hs c
  by_cases hover : ∃ path, c.edit = .load path ∧ (lookupAt host d path).Overtaken path
  · obtain ⟨path, hload, hover⟩ := hover
    have hlate := (hlook path hload).2 hover.overtaken
    apply hone.mono
    · rintro r d' ⟨t, hexecute, -⟩
      left
      exact ⟨hlate, Timeline.isCancelled_of_overtaken hload hover hexecute⟩
    · rintro f d' (hbreaks | ⟨hexecute, -⟩)
      · left
        apply hbreaks
      · right
        right
        exact ⟨hlate, Timeline.mention_of_overtaken hload hover hexecute⟩
  · have hplayable : ∀ path, c.edit = .load path →
        (lookupAt host d path).playable path = (Lookup.undisturbed media path).playable path := by
      intro path hload
      apply (Lookup.playable_cases (hlook path hload).1).resolve_left
      intro hpath
      apply hover ⟨path, hload, hpath⟩
    obtain ⟨hexecutes, hannounces⟩ := Timeline.execute_congr_look hplayable d.store.timeline
    rw [← hexecutes, ← hannounces]
    apply hone.mono
    · intro r d' h
      right
      apply h
    · rintro f d' (hbreaks | ⟨hexecute, -⟩)
      · left
        apply hbreaks
      · right
        left
        apply hexecute

/-- A batch that is not given up comes to what following its commands comes to, and what they
announce is heard.  It may be given up only if a lookup can be overtaken, that is, if it can
be `late`. -/
theorem meets_batch (commands : List Command)
    (hlook : ∀ c ∈ commands, ∀ path, c.edit = .load path → ∀ d, H.Holds d →
      (lookupAt host d path).answer = media path ∧ ((lookupAt host d path).overtaken = true → late))
    (hd : H.Holds d) (hs : d.store.Sound) :
  Meets (executeAll host commands) d
    (fun report d' => (late ∧ report.cancelled = true)
      ∨ ∃ t, d.store.timeline.follow media commands = .ok (t, report)
        ∧ H.Attains d t (d.store.timeline.told media commands) d')
    (fun f d' => H.Breaks d f d' ∨ d.store.timeline.follow media commands = .error f
      ∨ late ∧ ∃ c ∈ commands, c.mention = .error f)
  := by
  induction commands generalizing d with
  | nil =>
      rw [executeAll, meets_pure]
      right
      exact ⟨_, rfl, Hearing.Attains.of_hears hs (H.nothing d)⟩
  | cons c rest ih =>
      obtain ⟨hc, hrest⟩ := List.forall_mem_cons.mp hlook
      rw [executeAll, meets_bind, Timeline.follow, Timeline.told]
      apply (meets_executeOne_answered hH hd hs fun path hload => hc path hload d hd).mono
      · rintro r d₁ (⟨hlate, hr⟩ | ⟨t₁, hexecute, h₁⟩)
        · rw [if_pos hr, meets_pure]
          left
          exact ⟨hlate, rfl⟩
        · rw [hexecute]
          dsimp only
          split
          · rw [meets_pure, List.append_nil]
            right
            exact ⟨t₁, rfl, h₁⟩
          · rw [meets_bind]
            apply (ih hrest (h₁.holds hd) h₁.sound).mono
            · rintro report d₂ (hgiven | ⟨t₂, hfollow, h₂⟩)
              · rw [meets_pure]
                left
                apply hgiven
              · rw [h₁.timeline] at hfollow h₂
                rw [meets_pure, hfollow]
                right
                exact ⟨t₂, rfl, h₁.append h₂⟩
            · rintro f d₂ (hbreaks | hfollow | ⟨hlate, c', hc', hmention⟩)
              · left
                apply h₁.reaches.breaks hbreaks
              · right
                left
                rw [h₁.timeline] at hfollow
                rw [hfollow]
                rfl
              · right
                right
                exact ⟨hlate, c', List.mem_cons_of_mem c hc', hmention⟩
      · rintro f d₁ (hbreaks | hexecute | ⟨hlate, hmention⟩)
        · left
          apply hbreaks
        · right
          left
          rw [hexecute]
        · right
          right
          exact ⟨hlate, c, List.mem_cons_self, hmention⟩

end Heard

/-! ### Where nobody raises anything -/

section Known

variable {α : Type} {x : Run ε α} {known : Except Fault (Timeline × α)} {P : Desk ε → Prop}
  {E : Fault → Desk ε → Prop}
  (h : Meets x d (fun a d' => known = .ok (d'.store.timeline, a) ∧ P d') E)
  (hE : ∀ f d', E f d' → known = .error f)

include h hE

/-- An operation that comes to what is known succeeds if this is a success. -/
theorem Meets.ok_of_eq {t : Timeline} {a : α} (hknown : known = .ok (t, a)) :
  ∃ d', x d = .ok a d' ∧ d'.store.timeline = t ∧ P d'
  := by
  subst hknown
  cases hx : x d with
  | ok a' d' =>
      obtain ⟨hsame, hd'⟩ := (meets_of_ok hx).mp h
      obtain ⟨rfl, rfl⟩ := Prod.mk.inj (Except.ok.inj hsame)
      exact ⟨d', rfl, rfl, hd'⟩
  | error f d' => cases hE f d' ((meets_of_error hx).mp h)

/-- An operation that comes to what is known fails if this is a failure. -/
theorem Meets.error_of_eq {f : Fault} (hknown : known = .error f) :
  ∃ d', x d = .error f d' ∧ E f d'
  := by
  subst hknown
  cases hx : x d with
  | ok a' d' => cases ((meets_of_ok hx).mp h).1
  | error f' d' =>
      have hd' := (meets_of_error hx).mp h
      cases hE f' d' hd'
      exact ⟨d', rfl, hd'⟩

end Known

variable {C : Conduct ε} (hC : C.Binds host) (hraises : ∀ f, ¬ C.Raises f)

include hC hraises

/-- What a cut comes to, and what recorders are told. -/
theorem meets_cut_told (look : String → Lookup) (time : Double) (hd : C.Holds d)
    (hs : d.store.Sound) :
  Meets (cut host time) d
    (fun ids d' => d.store.timeline.edit look (.cut time) = .ok (d'.store.timeline, ids)
      ∧ host.Tells (d.store.timeline.announced look (.cut time)) d d')
    (fun f d' => d.store.timeline.edit look (.cut time) = .error f
      ∧ d'.store.timeline = d.store.timeline ∧ host.Tells [] d d')
  := by
  apply (meets_cut hC.recorded hd hs look time).mono
  · rintro ids d' ⟨t, hedit, h⟩
    obtain ⟨rfl, htells⟩ := h.tells
    exact ⟨hedit, htells⟩
  · rintro f d' (⟨hf, -⟩ | ⟨hedit, h⟩)
    · apply (hraises f hf).elim
    · exact ⟨hedit, h.tells⟩

/-- What a command comes to, and what recorders are told. -/
theorem meets_executeOne_told (c : Command) (hd : C.Holds d) (hs : d.store.Sound) :
  Meets (executeOne host c) d
    (fun r d' => d.store.timeline.execute (lookupAt host d) c = .ok (d'.store.timeline, r)
      ∧ host.Tells (d.store.timeline.announced (lookupAt host d) c.edit) d d')
    (fun f d' => d.store.timeline.execute (lookupAt host d) c = .error f
      ∧ d'.store.timeline = d.store.timeline ∧ host.Tells [] d d')
  := by
  apply (meets_executeOne_heard hC.recorded hd hs c).mono
  · rintro r d' ⟨t, hexecute, h⟩
    obtain ⟨rfl, htells⟩ := h.tells
    exact ⟨hexecute, htells⟩
  · rintro f d' (⟨hf, -⟩ | ⟨hexecute, h⟩)
    · apply (hraises f hf).elim
    · exact ⟨hexecute, h.tells⟩

/-- What running a batch comes to if it is not given up, and what recorders are told. -/
theorem meets_execute_told {late : Prop} (commands : List Command) (poll : Poll)
    (hlook : ∀ c ∈ commands, ∀ path, c.edit = .load path → ∀ d, C.Holds d →
      (lookupAt host d path).answer = media path ∧ ((lookupAt host d path).overtaken = true → late))
    (hd : C.Holds { d with poll := poll }) (hs : d.store.Sound) :
  Meets (execute host commands poll) d
    (fun report d' => (late ∧ report.cancelled = true)
      ∨ d.store.timeline.follow media commands = .ok (d'.store.timeline, report)
        ∧ host.Tells (d.store.timeline.told media commands) d d')
    (fun f _ => d.store.timeline.follow media commands = .error f
      ∨ late ∧ ∃ c ∈ commands, c.mention = .error f)
  := by
  rw [execute, meets_bind, setPoll, meets_modify, setPoll, meets_finally]
  apply (meets_batch hC.recorded commands hlook hd hs).mono
  · rintro report d' (hgiven | ⟨t, hfollow, h⟩)
    · left
      apply hgiven
    · obtain ⟨rfl, htells⟩ := h.tells
      right
      exact ⟨hfollow, htells.congr rfl rfl rfl rfl⟩
  · rintro f d' (⟨hf, -⟩ | hfollow)
    · apply (hraises f hf).elim
    · apply hfollow

/-- What running a batch comes to if no lookup can be overtaken. -/
theorem meets_execute_undisturbed (commands : List Command) (poll : Poll)
    (hlook : ∀ c ∈ commands, ∀ path, c.edit = .load path → ∀ d, C.Holds d →
      lookupAt host d path = Lookup.undisturbed media path)
    (hd : C.Holds { d with poll := poll }) (hs : d.store.Sound) :
  Meets (execute host commands poll) d
    (fun report d' =>
      d.store.timeline.follow media commands = .ok (d'.store.timeline, report)
        ∧ host.Tells (d.store.timeline.told media commands) d d')
    (fun f _ => d.store.timeline.follow media commands = .error f)
  := by
  have hnever : ∀ c ∈ commands, ∀ path, c.edit = .load path → ∀ d, C.Holds d →
      (lookupAt host d path).answer = media path
        ∧ ((lookupAt host d path).overtaken = true → False) := by
    intro c hc path hload d' hd'
    rw [hlook c hc path hload d' hd']
    exact ⟨rfl, Bool.false_ne_true⟩
  apply (meets_execute_told hC hraises commands poll hnever hd hs).mono
  · rintro report d' (⟨hlate, -⟩ | hfollow)
    · apply hlate.elim
    · apply hfollow
  · rintro f d' (hfollow | ⟨hlate, -⟩)
    · apply hfollow
    · apply hlate.elim

/-- What running a batch that loads nothing comes to, whatever the files are. -/
theorem meets_execute_unloaded (media : String → Except Fault Double) {commands : List Command}
    (hcommands : ∀ c ∈ commands, ∀ path, c.edit ≠ .load path) (poll : Poll)
    (hd : C.Holds { d with poll := poll }) (hs : d.store.Sound) :
  Meets (execute host commands poll) d
    (fun report d' =>
      d.store.timeline.follow media commands = .ok (d'.store.timeline, report)
        ∧ host.Tells (d.store.timeline.told media commands) d d')
    (fun f _ => d.store.timeline.follow media commands = .error f)
  := by
  apply meets_execute_undisturbed hC hraises commands poll _ hd hs
  intro c hc path hload
  apply absurd hload (hcommands c hc path)

end Desk

end Montage
