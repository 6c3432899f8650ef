import Montage.Proofs.Desk.Execute
import Montage.Proofs.Timeline.Follow

/-!
# Batches among busy surroundings

A `Manner` is a conduct for the time in which a text is evaluated: those who surround the
desk may note changes of the document and change their own state, in a way that a relation
describes, and leave everything else alone.  A batch that is carried out among them either
comes to what `Timeline.follow` says or is given up, and it is given up only after a change
of the document: `Desk.meets_follow`.
-/

namespace Montage

/-- How often the document has changed, and the state of the surroundings. -/
def Desk.around {ε : Type} (d : Desk ε) : Nat × ε :=
  (d.revision, d.surroundings)

/-- What surroundings that leave the rest of the desk alone may do to their own state. -/
structure Manner (ε : Type) where
  Rel : Nat × ε → Nat × ε → Prop
  refl (p : Nat × ε) : Rel p p
  trans {p q r : Nat × ε} : Rel p q → Rel q r → Rel p r
  le {p q : Nat × ε} : Rel p q → p.1 ≤ q.1

/-- A desk at which a text is evaluated: it asks whether the document has changed, if it asks
at all. -/
structure Desk.Busy {ε : Type} (d : Desk ε) : Prop where
  parsing : d.phase = .parsing
  poll : d.poll = .never ∨ ∃ revision, d.poll = .changedSince revision ∧ revision ≤ d.revision

/-- Asking whether the document has changed leaves such a desk as it is. -/
theorem Desk.Busy.asked {ε : Type} {d : Desk ε} (h : d.Busy) :
  d.asked = d
  := by
  unfold Desk.asked
  rcases h.poll with hpoll | ⟨revision, hpoll, -⟩ <;> rw [hpoll]

namespace Manner

variable {ε : Type} (M : Manner ε)

/-- A desk on which nothing has changed but what is around it and who follows it. -/
structure Passes (d d' : Desk ε) : Prop where
  rest : d' = { d with
    listeners := d'.listeners
    passListeners := d'.passListeners
    errorListeners := d'.errorListeners
    revision := d'.revision
    surroundings := d'.surroundings }
  rel : M.Rel d.around d'.around

variable {M} {d d' d'' : Desk ε}

theorem Passes.refl (d : Desk ε) :
  M.Passes d d
  := ⟨rfl, M.refl _⟩

theorem Passes.trans (h : M.Passes d d') (h' : M.Passes d' d'') :
  M.Passes d d''
  := by
  refine ⟨?_, M.trans h.rel h'.rel⟩
  rw [h'.rest, h.rest]

theorem Passes.store (h : M.Passes d d') :
  d'.store = d.store
  := by
  rw [h.rest]

theorem Passes.busy (hd : d.Busy) (h : M.Passes d d') :
  d'.Busy
  := by
  constructor
  · rw [h.rest]
    apply hd.parsing
  · rcases hd.poll with hpoll | ⟨revision, hpoll, hle⟩
    · left
      rw [h.rest]
      apply hpoll
    · right
      refine ⟨revision, ?_, Nat.le_trans hle (M.le h.rel)⟩
      rw [h.rest]
      apply hpoll

/-- The conduct of surroundings with a manner that raise given faults. -/
def conduct (M : Manner ε) (R : Fault → Prop) (hR : ∀ cause, ¬ R (.script cause)) :
    Conduct ε where
  Holds := Desk.Busy
  Allows := M.Passes
  Raises := R
  refl := Passes.refl
  trans := Passes.trans
  store := Passes.store
  withStore {d d'} h s := by
    refine ⟨?_, h.rel⟩
    rw [h.rest]
  holds := Passes.busy
  holds_withStore h _ := ⟨h.parsing, h.poll⟩
  asked {d} h := by
    rw [h.asked]
    apply Passes.refl
  not_script := hR _

/-- The document has not changed if it has not changed later. -/
theorem Passes.pollAnswer_eq_false (hd : d.Busy) (h : M.Passes d d')
    (hd' : Desk.pollAnswer d' = false) :
  Desk.pollAnswer d = false
  := by
  have hpoll' : d'.poll = d.poll := by rw [h.rest]
  have hle : d.revision ≤ d'.revision := M.le h.rel
  rcases hd.poll with hpoll | ⟨revision, hpoll, hrevision⟩
  · simp [Desk.pollAnswer, hpoll]
  · simp only [Desk.pollAnswer, hpoll', hpoll, bne_eq_false_iff_eq] at hd' ⊢
    omega

end Manner

/-- A file looked up once a hook has been called, which raises nothing and passes the desk
by, is what a table says. -/
theorem Desk.lookup_of_hook {ε : Type} {M : Manner ε} {host : Surroundings ε}
    {media : String → Except Fault Double} {d : Desk ε} {path : String} {hook : Run ε Unit}
    (hhook : Meets hook d (fun _ => M.Passes d) (fun _ _ => False))
    (hlookup : host.lookup path = do hook; ofExcept (media path)) :
  (lookupAt host d path).answer = media path
    ∧ Meets (host.lookup path) d (fun _ => M.Passes d) (fun _ => M.Passes d)
  := by
  cases hrun : hook d with
  | error f d' => exact ((meets_of_error hrun).mp hhook).elim
  | ok u d' =>
      have hpasses := (meets_of_ok hrun).mp hhook
      have hsame : host.lookup path d = (ofExcept (media path) : Run ε Double) d' := by
        rw [hlookup]
        change EStateM.bind hook _ d = _
        simp only [EStateM.bind, hrun]
      cases hmedia : media path with
      | ok duration =>
          rw [hmedia] at hsame
          change host.lookup path d = .ok duration d' at hsame
          rw [lookupAt_ok hsame, meets_of_ok hsame]
          exact ⟨rfl, hpasses⟩
      | error f =>
          rw [hmedia] at hsame
          change host.lookup path d = .error f d' at hsame
          rw [lookupAt_error hsame, meets_of_error hsame]
          exact ⟨rfl, hpasses⟩

namespace Desk

variable {ε : Type} {M : Manner ε} {R : Fault → Prop} {hR : ∀ cause, ¬ R (.script cause)}
  {host : Surroundings ε} (hC : (M.conduct R hR).Binds host) {d : Desk ε}

include hC

/-- A load that is overtaken ends after the document has changed. -/
theorem meets_overtaken (hd : d.Busy) {c : Command} {path : String} (hload : c.edit = .load path)
    (hover : (lookupAt host d path).Overtaken path) :
  Meets (executeOne host c) d (fun _ d' => pollAnswer d' = true)
    (fun _ d' => pollAnswer d' = true)
  := by
  obtain ⟨duration, hanswer, hduration⟩ := hover.found
  have hlate := hover.overtaken
  have hfailed : ∀ d', M.Passes d d' → pollAnswer d' = true →
      Meets (failed host c (.script (.overtaken path))) d' (fun _ d'' => pollAnswer d'' = true)
        (fun _ d'' => pollAnswer d'' = true) := by
    intro d' hpasses hd'
    apply (meets_failed hC.unheard (hpasses.busy hd) c (.overtaken path)).mono
    · rintro r d'' ⟨-, -, h''⟩
      have hkept := Manner.Passes.pollAnswer_eq_false (hpasses.busy hd) h''
      rw [hd'] at hkept
      simpa using hkept
    · rintro f d'' ⟨-, rfl⟩
      apply hd'
  rw [executeOne, hload, meets_tryCatch, meets_bind, applyEdit, load, meets_bind,
    playableDuration]
  simp only [hover.named, Bool.false_eq_true, if_false, meets_bind, meets_tryCatch]
  have hlook := hC.lookup hd path
  cases hl : host.lookup path d with
  | error f d' =>
      rw [lookupAt_error hl] at hanswer
      cases hanswer
  | ok found d' =>
      rw [lookupAt_ok hl] at hanswer hlate
      cases hanswer
      have hpasses : M.Passes d d' := (meets_of_ok hl).mp hlook
      rw [meets_of_ok hl]
      dsimp only at hlate
      simp only [hduration, Bool.false_eq_true, if_false, meets_bind, meets_poll?, hlate, if_true,
        meets_throw, (hpasses.busy hd).asked]
      apply hfailed d' hpasses hlate

variable {media : String → Except Fault Double}
  (hanswers : ∀ d : Desk ε, d.Busy → ∀ path, (lookupAt host d path).answer = media path)

include hanswers

/-- What one command comes to among busy surroundings: what it comes to undisturbed, if it was
not given up, or if the document has not changed. -/
theorem meets_undisturbed (c : Command) (hd : d.Busy) (hs : d.store.Sound) :
  Meets (executeOne host c) d
    (fun r d' => ∃ t, (M.conduct R hR).Reaches d t d'
      ∧ (r.isCancelled = false ∨ pollAnswer d' = false →
        d.store.timeline.execute (Lookup.undisturbed media) c = .ok (t, r)))
    (fun f d' => ∃ t, (M.conduct R hR).Reaches d t d'
      ∧ (R f ∨ (pollAnswer d' = false →
        d.store.timeline.execute (Lookup.undisturbed media) c = .error f)))
  := by
  have hone := meets_executeOne hC hd hs c
  rcases Timeline.execute_cases (t := d.store.timeline) (hanswers d hd) c with
    ⟨path, hload, hover⟩ | hsame
  · apply (hone.and (meets_overtaken hC hd hload hover)).mono
    · rintro r d' ⟨⟨t, hexecute, hreaches⟩, hlate⟩
      have hr := Timeline.isCancelled_of_overtaken hload hover hexecute
      refine ⟨t, hreaches, ?_⟩
      rw [hr, hlate]
      rintro (h | h) <;> cases h
    · rintro f d' ⟨⟨hf, t, hreaches⟩ | ⟨-, hreaches⟩, hlate⟩
      · exact ⟨t, hreaches, Or.inl hf⟩
      · refine ⟨_, hreaches, Or.inr ?_⟩
        rw [hlate]
        exact nofun
  · apply hone.mono
    · rintro r d' ⟨t, hexecute, hreaches⟩
      exact ⟨t, hreaches, fun _ => hsame ▸ hexecute⟩
    · rintro f d' (⟨hf, t, hreaches⟩ | ⟨hexecute, hreaches⟩)
      · exact ⟨t, hreaches, Or.inl hf⟩
      · exact ⟨_, hreaches, Or.inr fun _ => hsame ▸ hexecute⟩

/-- What a batch comes to among busy surroundings: what following its commands comes to, if it
was not given up, or if the document has not changed. -/
theorem meets_follow (commands : List Command) (hd : d.Busy) (hs : d.store.Sound) :
  Meets (executeAll host commands) d
    (fun report d' => ∃ t, (M.conduct R hR).Reaches d t d'
      ∧ (report.cancelled = false ∨ pollAnswer d' = false →
        d.store.timeline.follow media commands = .ok (t, report)))
    (fun f d' => ∃ t, (M.conduct R hR).Reaches d t d'
      ∧ (R f ∨ (pollAnswer d' = false → d.store.timeline.follow media commands = .error f)))
  := by
  induction commands generalizing d with
  | nil =>
      rw [executeAll, meets_pure]
      exact ⟨_, Conduct.Reaches.of_allows hs (Manner.Passes.refl d), fun _ => rfl⟩
  | cons c rest ih =>
      rw [executeAll, meets_bind]
      apply (meets_undisturbed hC hanswers c hd hs).mono
      · rintro r d₁ ⟨t₁, h₁, hexecute⟩
        split
        · rename_i hcancelled
          rw [meets_pure]
          refine ⟨t₁, h₁, ?_⟩
          rintro (h | h)
          · cases h
          · rw [Timeline.follow, hexecute (Or.inr h)]
            simp only [hcancelled, if_true]
        · rename_i hcancelled
          have hexecute := hexecute (Or.inl (by simpa using hcancelled))
          have hd₁ : d₁.Busy := h₁.holds hd
          rw [meets_bind]
          apply (ih hd₁ h₁.sound).mono
          · rintro report d₂ ⟨t₂, h₂, hfollow⟩
            rw [meets_pure]
            refine ⟨t₂, h₁.trans h₂, ?_⟩
            intro h
            rw [Timeline.follow, hexecute]
            rw [h₁.timeline] at hfollow
            simp only [if_neg hcancelled, hfollow h]
            rfl
          · rintro f d₂ ⟨t₂, h₂, hfollow⟩
            refine ⟨t₂, h₁.trans h₂, ?_⟩
            rcases hfollow with hf | hfollow
            · left
              apply hf
            · right
              intro h
              rw [Timeline.follow, hexecute]
              rw [h₁.timeline] at hfollow
              simp only [if_neg hcancelled, hfollow h]
              rfl
      · rintro f d₁ ⟨t₁, h₁, hexecute⟩
        refine ⟨t₁, h₁, ?_⟩
        rcases hexecute with hf | hexecute
        · left
          apply hf
        · right
          intro h
          rw [Timeline.follow, hexecute h]

end Desk

end Montage
