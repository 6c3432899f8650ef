import Montage.Proofs.Desk.Outcome

/-!
# Taking turns

One evaluation or direct cut is under way at a desk at a time.  Called in the meantime both
only note a line; otherwise they enter the phase `parsing`, do their work, and leave it again
whatever happens.
-/

namespace Montage.Desk

variable {ε : Type} {host : Surroundings ε} {d : Desk ε} {E : Fault → Desk ε → Prop}

/-- A desk with a line noted. -/
def logged (host : Surroundings ε) (line : String) (d : Desk ε) : Desk ε :=
  { d with surroundings := host.log line d.surroundings }

/-- The pass that submitting a text publishes, if it publishes one. -/
def published? (host : Surroundings ε) (text : String) (d : Desk ε) : Option Pass :=
  match submit host text d with
  | .ok pass? _ => pass?
  | .error _ _ => none

theorem of_published? {text : String} {pass : Pass} (h : published? host text d = some pass) :
  ∃ d', submit host text d = .ok (some pass) d'
  := by
  rw [published?] at h
  split at h
  · rename_i pass? d' hsubmit
    exact ⟨d', hsubmit.trans (congrArg (EStateM.Result.ok · d') h)⟩
  · cases h

section Cut

variable {Q : Option Result → Desk ε → Prop} (time : Double)

theorem meets_insertCut_parsing (h : d.phase = .parsing) :
  Meets (insertCut host time) d Q E
    ↔ Q none (logged host "[pipeline] Pass running, cut ignored" d)
  := by
  rw [insertCut, meets_bind, meets_get, if_pos h, meets_bind, log, meets_modify, meets_pure]
  rfl

theorem meets_insertCut (h : d.phase ≠ .parsing) :
  Meets (insertCut host time) d Q E
    ↔ Meets (executeOne host ⟨.cut time, 0⟩) { d with phase := .parsing }
        (fun r d' => Q (some r) { d' with
          fingerprint := if r.success then none else d'.fingerprint
          phase := .idle })
        (fun f d' => E f { d' with phase := .idle })
  := by
  rw [insertCut, meets_bind, meets_get, if_neg h, meets_bind, enter, meets_modify, meets_bind]
  unfold enter
  rw [meets_finally, meets_bind]
  apply iff_of_eq
  congr 1
  funext r d'
  apply propext
  by_cases hr : r.success
  · simp [hr, remember, EarlyReturn.runK]
  · simp [hr, EarlyReturn.runK]

end Cut

section Submit

variable {Q : Option Pass → Desk ε → Prop} (text : String)

theorem meets_submit_parsing (h : d.phase = .parsing) :
  Meets (submit host text) d Q E
    ↔ Q none (logged host "[pipeline] Pass already running, snapshot ignored" d)
  := by
  rw [submit, meets_bind, meets_get, if_pos h, meets_bind, log, meets_modify, meets_pure]
  rfl

theorem meets_submit (h : d.phase ≠ .parsing) :
  Meets (submit host text) d Q E
    ↔ Meets (evaluate host text) { d with phase := .parsing }
        (fun pass d' => Q (some pass) { d' with phase := .idle })
        (fun f d' => Meets (evaluationFailed host f) d'
          (fun result d'' => Q result { d'' with phase := .idle })
          (fun f d'' => E f { d'' with phase := .idle }))
  := by
  rw [submit, meets_bind, meets_get, if_neg h, meets_bind, enter, meets_modify]
  unfold enter
  rw [meets_finally, meets_tryCatch, meets_map]

/-- What holds of the pass of every evaluation of a text holds of the pass of a text that was
submitted. -/
theorem of_submit {text : String} {pass : Pass} {d' : Desk ε} {P : Pass → Prop}
    (h : submit host text d = .ok (some pass) d')
    (hevaluate : Meets (evaluate host text) { d with phase := .parsing } (fun pass _ => P pass)
      (fun _ _ => True)) :
  P pass
  := by
  have hmeets : Meets (submit host text) d (fun result _ => ∀ pass, result = some pass → P pass)
      (fun _ _ => True) := by
    by_cases hphase : d.phase = .parsing
    · rw [meets_submit_parsing text hphase]
      intro pass hnone
      cases hnone
    · rw [meets_submit text hphase]
      apply hevaluate.mono
      · rintro pass d₁ hpass _ ⟨⟩
        apply hpass
      · intro f d₁ _
        rw [evaluationFailed, meets_bind]
        apply (meets_trivial _ _).imp
        intro _ d₂ _
        rw [meets_bind, meets_get, meets_bind]
        apply (meets_trivial _ _).imp
        intro _ d₃ _
        rw [meets_pure]
        intro pass hnone
        cases hnone
  exact (meets_of_ok h).mp hmeets pass rfl

end Submit

end Montage.Desk
