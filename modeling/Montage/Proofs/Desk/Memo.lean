import Montage.Proofs.Desk.Evaluate

/-!
# Texts and cuts at a desk that is free

Called while a text is evaluated, `submit` and `insertCut` pass a desk by.  Called when it is
free they leave it free again, whether they succeed or fail, and they keep the relation
between the store and the fingerprint that is remembered: a text remembers its own commands or
none, and a direct cut that changes the store forgets.
-/

namespace Montage

variable {ε : Type}

/-- A desk with a sound store at which nothing is under way. -/
structure Desk.Free (d : Desk ε) : Prop where
  phase : d.phase = .idle
  poll : d.poll = .never
  sound : d.store.Sound

variable {M : Manner ε} {media : String → Except Fault Double} {text : String} {pass : Pass}
  {E : Fault → Prop} {f : Fault} {d d' d'' : Desk ε}

theorem Desk.Free.entered (h : d.Free) :
  Desk.Busy { d with phase := .parsing }
  := ⟨rfl, Or.inl h.poll⟩

theorem Desk.Free.not_parsing (h : d.Free) :
  d.phase ≠ .parsing
  := by
  rw [h.phase]
  exact nofun

namespace Manner.Keeps

theorem free (hd : d.Free) (h : M.Keeps d d') :
  d'.Free
  := ⟨h.phase.trans hd.phase, h.poll, h.sound⟩

/-- The phase is entered and left. -/
theorem idle (hd : d.Free) (h : M.Keeps { d with phase := .parsing } d') :
  M.Keeps d { d' with phase := .idle }
  := ⟨hd.phase.symm, h.poll, h.sound, h.rel⟩

end Manner.Keeps

namespace Desk

theorem Evaluates.idle (hd : d.Free)
    (h : Evaluates M media text { d with phase := .parsing } pass d') :
  Evaluates M media text d pass { d' with phase := .idle }
  := ⟨h.keeps.idle hd, h.steps, h.script, h.readable, h.fingerprint, h.remembered,
    h.undisturbed⟩

theorem Miscarries.idle (hd : d.Free)
    (h : Miscarries M E media text { d with phase := .parsing } f d') :
  Miscarries M E media text d f { d' with phase := .idle }
  := ⟨h.keeps.idle hd, h.steps, h.cause⟩

theorem Miscarries.passes (h : Miscarries M E media text d f d') (h' : M.Passes d' d'') :
  Miscarries M E media text d f d''
  := by
  refine ⟨h.keeps.passes h', h.steps.passes h', ?_⟩
  rcases h.cause with hf | hf | hf | hf
  · exact Or.inl hf
  · exact Or.inr (Or.inl hf)
  · exact Or.inr (Or.inr (Or.inl hf))
  · refine Or.inr (Or.inr (Or.inr fun hrevision => hf ?_))
    have hle : d.revision ≤ d'.revision := M.le h.keeps.rel
    have hle' : d'.revision ≤ d''.revision := M.le h'.rel
    omega

variable {R P : Fault → Prop} {hR : ∀ cause, ¬ R (.script cause)} {host : Surroundings ε}
  (hM : M.Binds R P hR media host)

include hM

/-! ### Texts -/

/-- Reporting that an evaluation has failed. -/
theorem meets_evaluationFailed (hd : d'.Busy) (h : Miscarries M E media text d f d') :
  Meets (evaluationFailed host f) d'
    (fun result d'' => result = none ∧ Miscarries M E media text d f d'')
    (fun f' d'' => P f' ∧ Miscarries M E media text d f d'')
  := by
  rw [evaluationFailed, meets_bind]
  apply (meets_log_busy hM hd _).imp
  intro _ d₁ h₁
  rw [meets_bind, meets_get, meets_bind]
  apply (meets_complain hM (h₁.busy hd) _ _).mono
  · intro _ d₂ h₂
    rw [meets_pure]
    exact ⟨rfl, (h.passes h₁).passes h₂⟩
  · rintro f' d₂ ⟨hf', h₂⟩
    exact ⟨hf', (h.passes h₁).passes h₂⟩

/-- What comes of a text at a desk that is free: a pass, or a failure of the evaluation. -/
theorem meets_submit_free (hd : d.Free) (text : String) :
  Meets (submit host text) d
    (fun result d' => (∃ pass, result = some pass ∧ Evaluates M media text d pass d')
      ∨ (result = none ∧ ∃ f, Miscarries M (fun f => R f ∨ P f) media text d f d'))
    (fun f' d' => P f' ∧ ∃ f, Miscarries M (fun f => R f ∨ P f) media text d f d')
  := by
  rw [meets_submit text hd.not_parsing]
  apply (meets_evaluate hM hd.entered hd.poll hd.sound text).mono
  · intro pass d₁ h₁
    left
    exact ⟨pass, rfl, h₁.idle hd⟩
  · intro f d₁ h₁
    apply (meets_evaluationFailed hM (h₁.keeps.busy rfl) h₁).mono
    · rintro result d₂ ⟨rfl, h₂⟩
      right
      exact ⟨rfl, f, h₂.idle hd⟩
    · rintro f' d₂ ⟨hf', h₂⟩
      exact ⟨hf', f, h₂.idle hd⟩

omit hM

/-! ### Direct cuts -/

/-- What comes of a direct cut at a desk that is free, among listeners that raise nothing: the
fingerprint is forgotten, or nothing has changed. -/
theorem meets_insertCut_free {hR : ScriptFault → ¬ False}
    (hC : (M.conduct (fun _ => False) hR).Binds host) (hd : d.Free) (time : Double) :
  Meets (insertCut host time) d
    (fun _ d' => M.Keeps d d' ∧ (d'.fingerprint = none
      ∨ (d'.fingerprint = d.fingerprint ∧ d'.store.timeline = d.store.timeline)))
    (fun _ d' => M.Keeps d d' ∧ d'.fingerprint = d.fingerprint
      ∧ d'.store.timeline = d.store.timeline)
  := by
  -- The desk that the cut leaves, before the phase is left.
  have hleft : ∀ t d', (M.conduct (fun _ => False) hR).Reaches { d with phase := .parsing } t d' →
      M.Keeps { d with phase := .parsing } d' ∧ d'.fingerprint = d.fingerprint := by
    rintro t d' ⟨hsound, -, hrest, hrel⟩
    refine ⟨⟨?_, ?_, hsound, hrel⟩, ?_⟩
    · rw [hrest]
    · rw [hrest]
      apply hd.poll
    · rw [hrest]
  rw [meets_insertCut time hd.not_parsing]
  apply (meets_executeOne hC hd.entered hd.sound ⟨.cut time, 0⟩).mono
  · rintro r d' ⟨t, hexecute, h⟩
    obtain ⟨hkeeps, hfingerprint⟩ := hleft t d' h
    refine ⟨⟨hd.phase.symm, hkeeps.poll, hkeeps.sound, hkeeps.rel⟩, ?_⟩
    rcases Timeline.of_execute hexecute with ⟨ids, rfl, -⟩ | ⟨cause, rfl, rfl, -⟩
    · left
      rfl
    · right
      exact ⟨hfingerprint, h.timeline⟩
  · rintro f d' (⟨hraises, -⟩ | ⟨-, h⟩)
    · apply hraises.elim
    · obtain ⟨hkeeps, hfingerprint⟩ := hleft _ d' h
      exact ⟨hkeeps.idle hd, hfingerprint, h.timeline⟩

end Desk

end Montage
