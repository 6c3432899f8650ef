import Montage.Proofs.Desk.Incremental
import Montage.Proofs.Timeline.Complete
import Montage.Proofs.Watch.Drift

/-!
# No text is lost

An evaluation may be given up because a text was pushed meanwhile, and then the store shows
the outcome of no text at all.  But the text that was pushed is still to be evaluated, and
the evaluation of the last text of all is not given up.  `Watch.Kept` is the invariant that
says so: once no text is pending and none is waiting, the last evaluation was of the text
that was pushed last, it ran to its end, and the desk remembers it.
-/

namespace Montage

variable {σ : Type} {media : String → Except Fault Double}

/-! ### Evaluations during which the document does not change -/

namespace Desk

variable {ε : Type} {M : Manner ε} {E : Fault → Prop} {text : String} {pass : Pass} {f : Fault}
  {d d' : Desk ε}

theorem Evaluates.complete (hmedia : Lookup.Answering media)
    (h : Evaluates M media text d pass d') (hrevision : d'.revision = d.revision)
    (hlength : text.length < 2 ^ 63) :
  ∀ report, pass.report = some report → report.cancelled = false
  := by
  intro report hreport
  obtain ⟨t, report', hfollow, hcomplete⟩ := Timeline.follow_complete hmedia
    (Command.readable_ofText text) (Command.writable_ofText hlength) {}
  obtain ⟨-, rfl⟩ := Prod.mk.inj
    (Except.ok.inj ((h.undisturbed hrevision report hreport).symm.trans hfollow))
  apply hcomplete

/-- Only the surroundings can make such an evaluation fail. -/
theorem Miscarries.of_undisturbed (hmedia : Lookup.Answering media)
    (h : Miscarries M E media text d f d') (hrevision : d'.revision = d.revision)
    (hlength : text.length < 2 ^ 63) :
  E f
  := by
  obtain ⟨lines, hlines⟩ := Scene.skipped_ofText hlength
  obtain ⟨fp, hfp⟩ := (Command.readable_ofText text).fingerprint_ok
  obtain ⟨t, report, hfollow, -⟩ := Timeline.follow_complete hmedia
    (Command.readable_ofText text) (Command.writable_ofText hlength) {}
  rcases h.cause with hf | hf | hf | hf
  · apply hf
  · cases hf.symm.trans hlines
  · cases hf.symm.trans hfp
  · cases (hf hrevision).symm.trans hfollow

end Desk

namespace Watch

/-! ### The invariant -/

/-- The last evaluation was of a given text and ran to its end, and the desk remembers it. -/
def UpToDate (text : String) (d : Desk (Watch σ)) : Prop :=
  ∃ pass, d.surroundings.evaluated.getLast? = some (text, some pass)
    ∧ pass.script = Script.ofText text
    ∧ Command.fingerprint (Script.ofText text).commands = .ok pass.fingerprint
    ∧ (∀ report, pass.report = some report → report.cancelled = false)
    ∧ d.fingerprint = some pass.fingerprint

/-- A watch as it is between evaluations. -/
structure Kept (media : String → Except Fault Double) (d : Desk (Watch σ)) : Prop where
  free : d.Free
  counted : Counted d.around
  taken : d.surroundings.taken ≤ d.surroundings.released.length
  evaluated : d.surroundings.evaluated.map Prod.fst
    = d.surroundings.released.take d.surroundings.taken
  coherent : Memo.Coherent media (d.surroundings.evaluated.map Prod.fst) d
  upToDate : d.surroundings.waiting = [] → d.surroundings.coalescer.pending = none →
    ∀ text, d.surroundings.pushed.getLast? = some text → text.length < 2 ^ 63 →
      UpToDate text d

variable {d d₁ d₂ : Desk (Watch σ)} {text : String} {rest : List String}

/-- Nothing waits if and only if every text that was let through was taken up. -/
theorem waiting_eq_nil {w : Watch σ} :
  w.waiting = [] ↔ w.released.length ≤ w.taken
  := by
  rw [waiting, List.drop_eq_nil_iff]

/-- The worker takes up the first text that waits. -/
theorem taken_of_waiting {w : Watch σ} (h : w.waiting = text :: rest) :
  w.taken < w.released.length
    ∧ w.released.take (w.taken + 1) = w.released.take w.taken ++ [text]
  := by
  rw [waiting] at h
  have hlt : w.taken < w.released.length := by
    apply Nat.lt_of_not_le
    intro hle
    rw [List.drop_eq_nil_of_le hle] at h
    cases h
  refine ⟨hlt, ?_⟩
  rw [List.drop_eq_getElem_cons hlt] at h
  rw [List.take_succ_eq_append_getElem hlt, (List.cons.inj h).1]

theorem take_of_prefix {released released' : List String} {n : Nat}
    (h : released <+: released') (hn : n ≤ released.length) :
  released'.take n = released.take n
  := by
  obtain ⟨more, rfl⟩ := h
  rw [List.take_append_of_le_length hn]

/-- Whatever happens between evaluations keeps the invariant. -/
theorem Kept.drifted (h : Kept media d) (h' : Nudge.Drifted d d₁) :
  Kept media d₁
  := by
  obtain ⟨hrest, hdrifts⟩ := h'
  have htaken : d₁.surroundings.taken = d.surroundings.taken := hdrifts.taken h.counted
  have hevaluated : d₁.surroundings.evaluated = d.surroundings.evaluated :=
    hdrifts.evaluated h.counted
  have hreleased : d.surroundings.released <+: d₁.surroundings.released :=
    hdrifts.released h.counted
  have hfingerprint : d₁.fingerprint = d.fingerprint := by rw [hrest]
  constructor
  · rw [hrest]
    exact ⟨h.free.phase, h.free.poll, h.free.sound⟩
  · apply hdrifts.counted h.counted
  · rw [htaken]
    apply Nat.le_trans h.taken hreleased.length_le
  · rw [hevaluated, htaken, take_of_prefix hreleased h.taken, h.evaluated]
  · rw [hevaluated]
    apply h.coherent.kept hfingerprint
    rw [hrest]
  · intro hwaiting hpending text htext hlength
    rw [waiting_eq_nil, htaken] at hwaiting
    obtain ⟨hsame, hpending', hpushed, -⟩ := hdrifts.undisturbed h.counted hpending
      (Nat.le_trans hwaiting h.taken)
    dsimp only [Desk.around] at hsame hpending' hpushed
    rw [hsame] at hwaiting
    rw [UpToDate, hevaluated, hfingerprint]
    apply h.upToDate (waiting_eq_nil.mpr hwaiting) hpending' text _ hlength
    exact hpushed ▸ htext

/-- An evaluation of the first text that waits keeps the invariant, if it succeeds whenever
the document does not change meanwhile. -/
theorem Kept.evaluatedWith (h : Kept media d) (hwaiting : d.surroundings.waiting = text :: rest)
    {plan : List (List Nudge)} {result : Option Pass}
    (hkeeps : (manner σ).Keeps { d with surroundings := { d.surroundings with
      taken := d.surroundings.taken + 1, plan := plan } } d₂)
    (hsteps : Memo.Steps media (Script.ofText text).commands d d₂)
    (hcomplete : d₂.revision = d.revision → text.length < 2 ^ 63 → ∃ pass, result = some pass
      ∧ pass.script = Script.ofText text
      ∧ Command.fingerprint (Script.ofText text).commands = .ok pass.fingerprint
      ∧ (∀ report, pass.report = some report → report.cancelled = false)
      ∧ d₂.fingerprint = some pass.fingerprint) :
  Kept media { d₂ with surroundings := { d₂.surroundings with
    evaluated := d₂.surroundings.evaluated ++ [(text, result)], plan := [] } }
  := by
  obtain ⟨hlt, htake⟩ := taken_of_waiting hwaiting
  obtain ⟨hdrifts, -⟩ := hkeeps.rel
  have hcounted := h.counted
  have htaken : d₂.surroundings.taken = d.surroundings.taken + 1 := hdrifts.taken hcounted
  have hevaluated : d₂.surroundings.evaluated = d.surroundings.evaluated :=
    hdrifts.evaluated hcounted
  have hreleased : d.surroundings.released <+: d₂.surroundings.released :=
    hdrifts.released hcounted
  have hcounted₂ := hdrifts.counted hcounted
  have htexts : (d.surroundings.evaluated ++ [(text, result)]).map Prod.fst
      = d.surroundings.released.take (d.surroundings.taken + 1) := by
    rw [List.map_append, h.evaluated, htake]
    rfl
  constructor
  · exact ⟨hkeeps.phase.trans h.free.phase, hkeeps.poll, hkeeps.sound⟩
  · apply hcounted₂
  · dsimp only
    rw [htaken]
    apply Nat.le_trans hlt hreleased.length_le
  · dsimp only
    rw [hevaluated, htexts, htaken, take_of_prefix hreleased hlt]
  · dsimp only
    rw [hevaluated, List.map_append]
    apply h.coherent.steps hsteps
  · intro hwaiting' hpending text' htext' hlength
    rw [waiting_eq_nil] at hwaiting'
    dsimp only at hwaiting' hpending htext'
    rw [htaken] at hwaiting'
    obtain ⟨hsame, -, -, hrevision⟩ := hdrifts.undisturbed hcounted hpending
      (Nat.le_trans hwaiting' hlt)
    dsimp only [Desk.around] at hsame hrevision
    -- The last text let through is both the last one pushed and the one just evaluated.
    have hlast := Coalescer.Orderly.released_of_pending hcounted₂.1 hpending
    have hall : d.surroundings.released
        = d.surroundings.released.take d.surroundings.taken ++ [text] := by
      rw [← htake, List.take_of_length_le (hsame ▸ hwaiting')]
    obtain rfl : text = text' := by
      dsimp only [Desk.around] at hlast
      rw [htext', hsame, hall, List.getLast?_concat] at hlast
      exact Option.some.inj hlast
    obtain ⟨pass, rfl, hscript, hfingerprint, hreport, hremembered⟩ := hcomplete hrevision hlength
    refine ⟨pass, ?_, hscript, hfingerprint, hreport, hremembered⟩
    dsimp only
    rw [List.getLast?_concat]

/-! ### Steps -/

variable (a : Audience σ)

/-- Evaluating a text keeps the invariant, whatever happens during the lookups. -/
theorem Kept.served (h : Kept media d) (hmedia : Lookup.Answering media)
    (plan : List (List Nudge)) :
  Desk.Meets (serve a media plan) d (fun _ => Kept media) (fun _ _ => False)
  := by
  rw [serve, Desk.meets_bind, Desk.meets_get]
  split
  · rw [Desk.meets_pure]
    apply h
  · rename_i text rest hwaiting
    have hfree : Desk.Free { d with surroundings := { d.surroundings with
        taken := d.surroundings.taken + 1, plan := plan } } :=
      ⟨h.free.phase, h.free.poll, h.free.sound⟩
    rw [Desk.meets_bind, meets_change, Desk.meets_bind]
    apply (Desk.meets_submit_free binds_surroundings hfree text).mono
    · rintro result d₂ (⟨pass, rfl, hpass⟩ | ⟨rfl, f, hfailed⟩)
      · rw [meets_change]
        apply h.evaluatedWith hwaiting hpass.keeps hpass.steps
        intro hrevision hlength
        have hcomplete := hpass.complete hmedia hrevision hlength
        exact ⟨pass, rfl, hpass.script, hpass.fingerprint, hcomplete, hpass.remembered hcomplete⟩
      · rw [meets_change]
        apply h.evaluatedWith hwaiting hfailed.keeps hfailed.steps
        intro hrevision hlength
        rcases hfailed.of_undisturbed hmedia hrevision hlength with hfalse | hfalse
        · apply hfalse.elim
        · apply hfalse.elim
    · rintro f' d₂ ⟨hfalse, -⟩
      apply hfalse

/-- Every step of a watch keeps the invariant. -/
theorem Kept.act (h : Kept media d) (hmedia : Lookup.Answering media) (step : Step) :
  Kept media (Desk.after (step.act a media) d)
  := by
  cases step with
  | nudge n =>
      apply Desk.Meets.after_of_never
      apply (Nudge.meets_perform n).imp
      intro _ d₁ h₁
      apply h.drifted h₁
  | serve plan =>
      apply Desk.Meets.after_of_never
      apply h.served a hmedia plan

/-- A watch keeps the invariant as long as it goes on. -/
theorem Kept.after (h : Kept media d) (hmedia : Lookup.Answering media) (steps : List Step) :
  Kept media (Watch.after a media steps d)
  := by
  induction steps generalizing d with
  | nil => apply h
  | cons step rest ih => apply ih (h.act a hmedia step)

end Watch

end Montage
