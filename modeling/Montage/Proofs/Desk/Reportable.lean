import Mathlib.Algebra.Ring.Int.Defs
import Montage.Proofs.Desk.Batch
import Montage.Proofs.Desk.Reachable
import Montage.Proofs.Desk.Turn
import Montage.Proofs.Timeline.Reportable

/-!
# Results of all commands

Among quiet surroundings whose lookups fail only of what is reported, a command comes to a
result, and so does each command of a batch until one is given up.  The one exception is a
command that is refused although its failure cannot be reported.  A command that fails, with a
result or without, leaves the timeline as it is, and nobody is told of anything:
`commands_come_to_results`.
-/

namespace Montage

/-- Lookups that fail only of what is reported as the failure of a command. -/
def Surroundings.Reporting {ε : Type} (host : Surroundings ε) : Prop :=
  ∀ path d f d', host.lookup path d = .error f d' →
    (∃ cause, f = .script cause) ∨ f.family ≠ .other

/-- One result for each command of a batch, in order, up to one that was given up. -/
structure Report.Covers (report : Report) (cs : List Command) : Prop where
  complete : report.cancelled = false →
    report.results.map (·.command) = cs ∧ ∀ r ∈ report.results, r.isCancelled = false
  givenUp : report.cancelled = true →
    report.results.map (·.command) <+: cs ∧ ∃ before last, report.results = before ++ [last]
      ∧ (∀ r ∈ before, r.isCancelled = false) ∧ last.isCancelled = true

namespace Report.Covers

variable {r : Result} {report : Report} {cs : List Command}

theorem nil :
  Covers {} []
  := ⟨fun _ => ⟨rfl, fun _ hr => absurd hr List.not_mem_nil⟩, fun h => absurd h Bool.false_ne_true⟩

theorem of_cancelled (h : r.isCancelled = true) (cs : List Command) :
  Covers ⟨[r], true⟩ (r.command :: cs)
  := by
  refine ⟨fun hfalse => absurd hfalse.symm Bool.false_ne_true, fun _ => ?_⟩
  exact ⟨⟨cs, rfl⟩, [], r, rfl, fun _ hr => absurd hr List.not_mem_nil, h⟩

theorem cons (hr : r.isCancelled = false) (h : report.Covers cs) :
  Covers ⟨r :: report.results, report.cancelled⟩ (r.command :: cs)
  := by
  constructor
  · intro hcancelled
    obtain ⟨hcommands, hresults⟩ := h.complete hcancelled
    exact ⟨congrArg (r.command :: ·) hcommands, List.forall_mem_cons.mpr ⟨hr, hresults⟩⟩
  · intro hcancelled
    obtain ⟨hcommands, before, last, hsplit, hbefore, hlast⟩ := h.givenUp hcancelled
    refine ⟨(List.prefix_cons_inj r.command).mpr hcommands, r :: before, last, ?_,
      List.forall_mem_cons.mpr ⟨hr, hbefore⟩, hlast⟩
    rw [hsplit, List.cons_append]

end Report.Covers

namespace Desk

variable {ε : Type} {host : Surroundings ε} {d d' d'' : Desk ε}

/-- A desk with the timeline of another, on the way to which nobody was told of anything. -/
def Untouched (host : Surroundings ε) (d d' : Desk ε) : Prop :=
  d'.store.timeline = d.store.timeline ∧ host.Tells [] d d'

/-- A command that comes to no result: it is refused, and this cannot be reported. -/
def Baffles (host : Surroundings ε) (d : Desk ε) (c : Command) : Prop :=
  d.store.timeline.Refuses (lookupAt host d) c.edit ∧ ¬ c.Reportable

/-- A batch of which the results end before a command that comes to none, at the desk that the
commands before it have left. -/
def BreaksOff (host : Surroundings ε) (d : Desk ε) (cs : List Command) : Prop :=
  ∃ before c after report d', cs = before ++ c :: after
    ∧ executeAll host before d = .ok report d' ∧ report.cancelled = false ∧ Baffles host d' c

theorem reporting_lookupAt (h : host.Reporting) (d : Desk ε) :
  Lookup.Reporting fun path => (lookupAt host d path).answer
  := by
  intro path f hf
  dsimp only at hf
  cases hl : host.lookup path d with
  | ok duration d' =>
      rw [lookupAt_ok hl] at hf
      cases hf
  | error f' d' =>
      rw [lookupAt_error hl] at hf
      cases hf
      exact h path d f d' hl

/-- An operation that succeeds exactly under a condition, and what it comes to. -/
theorem Meets.ok_iff {α : Type} {x : Run ε α} {P : Prop} {Q : α → Desk ε → Prop}
    {E : Fault → Desk ε → Prop}
    (h : Meets x d (fun a d' => P ∧ Q a d') (fun f d' => ¬ P ∧ E f d')) :
  ((∃ a d', x d = .ok a d') ↔ P) ∧ (∀ a d', x d = .ok a d' → Q a d')
    ∧ ∀ f d', x d = .error f d' → E f d'
  := by
  cases hx : x d with
  | ok a d' =>
      obtain ⟨hP, hQ⟩ := (meets_of_ok hx).mp h
      refine ⟨iff_of_true ⟨a, d', rfl⟩ hP, ?_, ?_⟩
      · rintro _ _ ⟨⟩
        exact hQ
      · rintro _ _ ⟨⟩
  | error f d' =>
      obtain ⟨hP, hE⟩ := (meets_of_error hx).mp h
      refine ⟨iff_of_false ?_ hP, ?_, ?_⟩
      · rintro ⟨_, _, ⟨⟩⟩
      · rintro _ _ ⟨⟩
      · rintro _ _ ⟨⟩
        exact hE

/-- A batch goes on after a command that was not given up. -/
theorem executeAll_cons {c : Command} {rest : List Command} {r : Result} {report : Report}
    (hone : executeOne host c d = .ok r d') (hr : r.isCancelled = false)
    (hrest : executeAll host rest d' = .ok report d'') :
  executeAll host (c :: rest) d = .ok ⟨r :: report.results, report.cancelled⟩ d''
  := by
  apply Meets.eq_ok
  rw [executeAll, meets_bind, meets_of_ok hone, hr, if_neg Bool.false_ne_true, meets_bind,
    meets_of_ok hrest, meets_pure]
  exact ⟨rfl, rfl⟩

section

variable (hC : (Conduct.quiet ε).Binds host) (hlookup : host.Reporting) (hs : d.store.Sound)

include hC hlookup hs

/-- A command comes to a result exactly if it does not baffle, and leaves nothing behind unless it
succeeds. -/
theorem meets_executeOne_reported (c : Command) :
  Meets (executeOne host c) d
    (fun r d' => ¬ Baffles host d c ∧ r.command = c ∧ d'.store.Sound
      ∧ (r.success = false → Untouched host d d'))
    (fun _ d' => ¬ ¬ Baffles host d c ∧ Untouched host d d')
  := by
  have hlook := reporting_lookupAt hlookup d
  have hbaffles : (∃ p, d.store.timeline.execute (lookupAt host d) c = .ok p)
      ↔ ¬ Baffles host d c := by
    rw [Timeline.execute_ok_iff hlook, Baffles, not_and_not_right]
  have htold := meets_executeOne_told hC (fun _ => id) c trivial hs
  apply (htold.and (meets_executeOne hC trivial hs c)).mono
  · rintro r d' ⟨⟨hexecute, htells⟩, t, -, hreaches⟩
    refine ⟨hbaffles.mp ⟨_, hexecute⟩, ?_⟩
    rcases Timeline.of_execute hexecute with ⟨ids, rfl, -⟩ | ⟨cause, rfl, htimeline, hedit⟩
    · exact ⟨rfl, hreaches.sound, nofun⟩
    · rw [Timeline.announced_of_error hedit] at htells
      exact ⟨rfl, hreaches.sound, fun _ => ⟨htimeline, htells⟩⟩
  · rintro f d' ⟨⟨hexecute, huntouched⟩, -⟩
    refine ⟨?_, huntouched⟩
    rw [← hbaffles, hexecute]
    rintro ⟨p, hp⟩
    cases hp

/-- A batch has a result for each command, up to one that is given up, or breaks off. -/
theorem meets_executeAll_reported (cs : List Command) :
  Meets (executeAll host cs) d (fun report _ => report.Covers cs)
    (fun _ _ => BreaksOff host d cs)
  := by
  induction cs generalizing d with
  | nil =>
      rw [executeAll, meets_pure]
      exact .nil
  | cons c rest ih =>
      have hone := meets_executeOne_reported hC hlookup hs c
      rw [executeAll, meets_bind]
      apply ((meets_self (executeOne host c) d).and hone).mono
      · rintro r d₁ ⟨hone, -, rfl, hs₁, -⟩
        by_cases hr : r.isCancelled = true
        · rw [if_pos hr, meets_pure]
          exact .of_cancelled hr rest
        · rw [if_neg hr, meets_bind]
          rw [Bool.not_eq_true] at hr
          apply (ih hs₁).mono
          · intro report d₂ hcovers
            rw [meets_pure]
            exact hcovers.cons hr
          · rintro f d₂ ⟨before, c', after, report, d', rfl, hrun, hreport, hbaffles⟩
            exact ⟨r.command :: before, c', after, _, d', rfl, executeAll_cons hone hr hrun,
              hreport, hbaffles⟩
      · rintro f d₁ ⟨-, hbaffles, -⟩
        exact ⟨[], c, rest, {}, d, rfl, rfl, rfl, not_not.mp hbaffles⟩

theorem meets_execute_reported (cs : List Command) (poll : Poll) :
  Meets (execute host cs poll) d (fun report _ => report.Covers cs)
    (fun _ _ => BreaksOff host { d with poll := poll } cs)
  := by
  rw [execute, meets_bind, setPoll, meets_modify, setPoll, meets_finally]
  exact meets_executeAll_reported (d := { d with poll := poll }) hC hlookup hs cs

/-- A cut of an idle desk comes to a result exactly if a segment encloses the time or the time can
be expressed. -/
theorem meets_insertCut_reported (hidle : d.phase = .idle) (time : Double) :
  Meets (insertCut host time) d
    (fun result d' => (d.store.timeline.segments.any (·.encloses time) = true
        ∨ Timecode.Expressible time)
      ∧ ∃ r, result = some r ∧ (r.success = false → Untouched host d d'))
    (fun _ d' => ¬ (d.store.timeline.segments.any (·.encloses time) = true
        ∨ Timecode.Expressible time)
      ∧ Untouched host d d')
  := by
  have hphase : d.phase ≠ .parsing := by
    rw [hidle]
    exact nofun
  have hbaffles : ¬ Baffles host { d with phase := .parsing } ⟨.cut time, 0⟩
      ↔ d.store.timeline.segments.any (·.encloses time) = true
        ∨ Timecode.Expressible time := by
    have hline : Text.isWritable 0 = true := by decide +kernel
    rw [Baffles, not_and_not_right, Timeline.refuses_cut_iff, ← or_iff_not_imp_left,
      Command.Reportable, and_iff_right hline]
    exact or_congr_right ⟨fun h => h time rfl, fun h _ heq => Edit.cut.inj heq ▸ h⟩
  have huntouched : ∀ d₁ fingerprint, Untouched host { d with phase := .parsing } d₁ →
      Untouched host d { d₁ with fingerprint := fingerprint, phase := .idle } :=
    fun d₁ fingerprint h => ⟨h.1, h.2.congr rfl rfl rfl rfl⟩
  rw [meets_insertCut time hphase, ← hbaffles]
  apply (meets_executeOne_reported (d := { d with phase := .parsing }) hC hlookup hs _).mono
  · rintro r d₁ ⟨hresult, -, -, hfailed⟩
    exact ⟨hresult, r, rfl, fun hr => huntouched d₁ _ (hfailed hr)⟩
  · rintro f d₁ ⟨hnone, hfailed⟩
    exact ⟨hnone, huntouched d₁ d₁.fingerprint hfailed⟩

end

/-- Commands come to results.  A command has one unless it is refused and its failure cannot be
reported, for its line or for the time at which it cuts; if it fails, with a result or without
one, the timeline is as it was and nobody was told of anything.  A batch has a result for each
command up to one that is given up, or it breaks off before a command that comes to none.  A cut
of an idle desk has a result if a segment encloses the time or the time can be expressed, and
else none. -/
theorem commands_come_to_results (hC : (Conduct.quiet ε).Binds host) (hlookup : host.Reporting)
    (hs : d.store.Reachable) :
  (∀ c, ((∃ r d', executeOne host c d = .ok r d') ↔ ¬ Baffles host d c)
      ∧ (∀ r d', executeOne host c d = .ok r d' →
        r.command = c ∧ (r.success = false → Untouched host d d'))
      ∧ ∀ f d', executeOne host c d = .error f d' → Untouched host d d')
    ∧ (∀ cs poll, (∃ report d', execute host cs poll d = .ok report d' ∧ report.Covers cs)
      ∨ BreaksOff host { d with poll := poll } cs
        ∧ ∃ f d', execute host cs poll d = .error f d')
    ∧ ∀ time, d.phase = .idle →
      ((∃ result d', insertCut host time d = .ok result d')
        ↔ d.store.timeline.segments.any (·.encloses time) = true ∨ Timecode.Expressible time)
      ∧ (∀ result d', insertCut host time d = .ok result d' →
        ∃ r, result = some r ∧ (r.success = false → Untouched host d d'))
      ∧ ∀ f d', insertCut host time d = .error f d' → Untouched host d d'
  := by
  refine ⟨?_, ?_, ?_⟩
  · intro c
    obtain ⟨hiff, hok, herror⟩ := (meets_executeOne_reported hC hlookup hs.sound c).ok_iff
    exact ⟨hiff, fun r d' h => ⟨(hok r d' h).1, (hok r d' h).2.2⟩, herror⟩
  · intro cs poll
    have hbatch := meets_execute_reported hC hlookup hs.sound cs poll
    cases hexecute : execute host cs poll d with
    | ok report d' =>
        left
        exact ⟨report, d', rfl, (meets_of_ok hexecute).mp hbatch⟩
    | error f d' =>
        right
        exact ⟨(meets_of_error hexecute).mp hbatch, f, d', rfl⟩
  · intro time hidle
    exact (meets_insertCut_reported hC hlookup hs.sound hidle time).ok_iff

/-! ### Refused cuts -/

/-- The value that an operation returns, if it does. -/
def returned? {α : Type} (x : Run ε α) (d : Desk ε) : Option α :=
  match x d with
  | .ok a _ => some a
  | .error _ _ => none

theorem returned?_of_ok {α : Type} {x : Run ε α} {a : α} (h : x d = .ok a d') :
  returned? x d = some a
  := by
  rw [returned?, h]

theorem ne_ok_of_returned? {α : Type} {x : Run ε α} (h : (returned? x d).isNone = true) (a : α)
    (d' : Desk ε) :
  x d ≠ .ok a d'
  := by
  intro hok
  rw [returned?_of_ok hok] at h
  cases h

theorem reporting_reel :
  Surroundings.reel.Reporting
  := by
  rintro path d f d' ⟨⟩

/-- A cut in a gap of the timeline. -/
theorem commands_come_to_results_gap :
  (Conduct.quiet _).Binds .reel ∧ Surroundings.reel.Reporting ∧ patchy.store.Reachable
    ∧ patchy.phase = .idle
    ∧ (∃ r d', executeOne .reel ⟨.cut (.ofInt 5), 7⟩ patchy = .ok r d' ∧ r.success = false
      ∧ d'.store.timeline = patchy.store.timeline ∧ d'.surroundings = patchy.surroundings)
    ∧ ∃ r d', insertCut .reel (.ofInt 5) patchy = .ok (some r) d'
  := by
  have hexpressible : Timecode.Expressible (.ofInt 5) := by decide +kernel
  have hreportable : Command.Reportable ⟨.cut (.ofInt 5), 7⟩ :=
    ⟨by decide +kernel, fun _ heq => Edit.cut.inj heq ▸ hexpressible⟩
  have hcount : patchy.listeners.count 0 = 1 := by decide +kernel
  have hfails : (returned? (executeOne .reel ⟨.cut (.ofInt 5), 7⟩) patchy).any (·.success)
      = false := by
    decide +kernel
  obtain ⟨hone, -, hcut⟩ :=
    commands_come_to_results Conduct.quiet_reel reporting_reel (reachable_onRecord _)
  have hidle : patchy.phase = .idle := by decide +kernel
  refine ⟨Conduct.quiet_reel, reporting_reel, reachable_onRecord _, hidle, ?_, ?_⟩
  · obtain ⟨hiff, hok, -⟩ := hone ⟨.cut (.ofInt 5), 7⟩
    obtain ⟨r, d', hresult⟩ := hiff.mpr fun hbaffles => hbaffles.2 hreportable
    change executeOne .reel ⟨.cut (.ofInt 5), 7⟩ patchy = .ok r d' at hresult
    rw [returned?_of_ok hresult, Option.any_some] at hfails
    obtain ⟨htimeline, htells⟩ := (hok r d' hresult).2 hfails
    have hrecord := (htells 0 id Surroundings.recorder_recording hcount).record
    rw [List.append_nil] at hrecord
    exact ⟨r, d', hresult, hfails, htimeline, hrecord⟩
  · obtain ⟨hiff, hok, -⟩ := hcut (.ofInt 5) hidle
    obtain ⟨result, d', hresult⟩ := hiff.mpr (.inr hexpressible)
    obtain ⟨r, rfl, -⟩ := hok result d' hresult
    exact ⟨r, d', hresult⟩

/-- A cut that is refused at a time that is no number, at an infinite one, or at one whose
milliseconds are too many, comes to no result, whether by itself, in a batch or at an idle
desk. -/
theorem refused_cuts_baffle :
  (Conduct.quiet _).Binds .reel ∧ Surroundings.reel.Reporting ∧ patchy.store.Reachable
    ∧ patchy.phase = .idle
    ∧ ∀ time ∈ [.nan, .inf false, .ofInt (10 ^ 306)],
      (∀ r d', executeOne .reel ⟨.cut time, 7⟩ patchy ≠ .ok r d')
        ∧ (∀ report d', execute .reel [⟨.cut time, 7⟩] .never patchy ≠ .ok report d')
        ∧ ∀ result d', insertCut .reel time patchy ≠ .ok result d'
  := by
  have hreturns : ∀ time ∈ [.nan, .inf false, .ofInt (10 ^ 306)],
      (returned? (executeOne .reel ⟨.cut time, 7⟩) patchy).isNone = true
        ∧ (returned? (execute .reel [⟨.cut time, 7⟩] .never) patchy).isNone = true
        ∧ (returned? (insertCut .reel time) patchy).isNone = true := by
    decide +kernel
  have hidle : patchy.phase = .idle := by decide +kernel
  refine ⟨Conduct.quiet_reel, reporting_reel, reachable_onRecord _, hidle, fun time htime => ?_⟩
  obtain ⟨hone, hbatch, hcut⟩ := hreturns time htime
  exact ⟨ne_ok_of_returned? hone, ne_ok_of_returned? hbatch, ne_ok_of_returned? hcut⟩

end Desk

end Montage
