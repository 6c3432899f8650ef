import Montage.Proofs.Desk.Evaluate
import Montage.Proofs.Desk.Overtaken
import Montage.Proofs.Desk.Scratch
import Montage.Proofs.Desk.Unchanged

/-!
# What becomes of a file that is found too late

The commands of a text are carried out on a cleared store, and the document may change
meanwhile.  A file that is found after that never reaches the store: its load is given up
before anything is announced, nothing after it is carried out, the store shows what the
commands before it come to from scratch, and nothing is remembered, so that the next text is
carried out whatever it is.
-/

namespace Montage

variable {ε : Type}

namespace Desk

/-- A desk as it is when the commands of a text begin to be carried out: the separators that
were skipped are logged, nothing is remembered, the store is cleared, and the desk asks
whether the document has changed since the text was taken up. -/
def started (host : Surroundings ε) (text : String) (d : Desk ε) : Desk ε :=
  let lines :=
    match Scene.skipped (Script.ofText text).outcomes with
    | .ok lines => lines
    | .error _ => []
  let logged := after (logAll host lines) { d with phase := .parsing }
  { after (clear host) { logged with fingerprint := none } with poll := .changedSince d.revision }

/-- A desk that is left behind once no batch is running: the store and the record of events
are those of another desk, and a given fingerprint is remembered. -/
structure Settles (events : ε → List Event) (fingerprint : Option String) (d d' : Desk ε) :
    Prop where
  store : d'.store = d.store
  events : events d'.surroundings = events d.surroundings
  fingerprint : d'.fingerprint = fingerprint
  poll : d'.poll = .never
  phase : d'.phase = .parsing

variable {host : Surroundings ε} {media : String → Except Fault Double}
  {events : ε → List Event} {fingerprint : Option String} {d d' d'' : Desk ε}

theorem Settles.passes (h : Settles events fingerprint d d')
    (h' : (Manner.unrecorded events).Passes d' d'') :
  Settles events fingerprint d d''
  := by
  refine ⟨h'.store.trans h.store, h'.events.trans h.events, ?_, ?_, ?_⟩
  · rw [h'.rest]
    apply h.fingerprint
  · rw [h'.rest]
    apply h.poll
  · rw [h'.rest]
    apply h.phase

theorem Settles.busy (h : Settles events fingerprint d d') :
  d'.Busy
  := ⟨h.phase, Or.inl h.poll⟩

theorem started_eq {text : String} {lines : List String}
    (hlines : Scene.skipped (Script.ofText text).outcomes = .ok lines)
    (h : after (logAll host lines) { d with phase := .parsing } = d') :
  started host text d
    = { after (clear host) { d' with fingerprint := none } with poll := .changedSince d.revision }
  := by
  rw [started, hlines, ← h]

theorem after_of_ok {α : Type} {x : Run ε α} {a : α} (h : x d = .ok a d') :
  after x d = d'
  := by
  rw [after, h]

variable (hrecords : host.Records media events)

include hrecords

theorem meets_logAll_recorded (lines : List String) {E : Fault → Desk ε → Prop} :
  Meets (logAll host lines) d (fun _ => (Manner.unrecorded events).Passes d) E
  := by
  induction lines generalizing d with
  | nil =>
      rw [logAll, meets_pure]
      apply Manner.Passes.refl
  | cons line rest ih =>
      rw [logAll, meets_bind, log, meets_modify]
      apply ih.imp
      intro _ d' h'
      apply (hrecords.logged line d).trans h'

theorem meets_publish_recorded (hd : d.Busy) (pass : Pass) (listeners : List Nat) :
  Meets (publish host pass listeners) d (fun _ => (Manner.unrecorded events).Passes d)
    (fun _ _ => False)
  := by
  induction listeners generalizing d with
  | nil =>
      rw [publish, meets_pure]
      apply Manner.Passes.refl
  | cons listener rest ih =>
      rw [publish]
      apply Meets.bind_trans Manner.Passes.trans (fun _ h' => h') (hrecords.onPass d hd listener pass)
      intro _ d' h'
      apply ih (h'.busy hd)

/-- The desk at which the commands of a text begin to be carried out shows nothing. -/
theorem timeline_started {text : String} (hlength : text.length < 2 ^ 63)
    (hpoll : d.poll = .never) :
  (started host text d).store.timeline = {}
  := by
  have hentered : Desk.Busy { d with phase := .parsing } := ⟨rfl, Or.inl hpoll⟩
  have hcleared : ∀ e : Desk ε, e.Busy → (after (clear host) e).store = e.store.cleared := by
    intro e he
    apply Meets.after (P := fun d₁ => d₁.store = e.store.cleared)
    apply (meets_clear hrecords.binds.unheard he rfl).mono
    · intro _ d₁ h₁
      apply h₁.store
    · rintro f d₁ ⟨hf, -⟩
      apply hf.elim
  obtain ⟨lines, hlines⟩ := Scene.skipped_ofText hlength
  have hlogged : (after (logAll host lines) { d with phase := .parsing }).Busy := by
    apply Meets.after
    apply (meets_logAll_recorded hrecords lines).mono
    · intro _ d₁ h₁
      apply h₁.busy hentered
    · intro f d₁ hf
      apply hf
  generalize hd₁ : after (logAll host lines) { d with phase := .parsing } = d₁ at hlogged
  have hforgotten : Desk.Busy { d₁ with fingerprint := none } := ⟨hlogged.parsing, hlogged.poll⟩
  rw [started_eq hlines hd₁]
  change Store.timeline (Desk.store (after (clear host) _)) = {}
  rw [hcleared _ hforgotten]
  rfl

/-- Carrying out the commands of a text on a cleared store. -/
theorem meets_rebuild_recorded (hmedia : Lookup.Answering media) (hd : d.Busy)
    (hpoll : d.poll = .never) {cs : List Command} (hcs : Command.Readable cs)
    (hlines : Command.Writable cs) {revision : Nat} (hrevision : revision ≤ d.revision)
    (fp : String) :
  Meets (rebuild host cs fp revision) d
    (fun report d' => ∃ d₁, Concludes host media events revision cs
        { after (clear host) { d with fingerprint := none } with poll := .changedSince revision }
        report d₁
      ∧ Settles events (if report.cancelled then none else some fp) d₁ d')
    (fun _ _ => False)
  := by
  have hd₀ : Desk.Busy { d with fingerprint := none } := ⟨hd.parsing, hd.poll⟩
  rw [rebuild, meets_bind, remember, meets_modify, meets_bind]
  apply ((meets_clear hrecords.binds.unheard hd₀ rfl).and (meets_self _ _)).mono
  · rintro _ d₁ ⟨h₁, hrun⟩
    obtain ⟨hkeeps, -, -⟩ := keeps_of_cleared hpoll h₁.follows
    rw [after_of_ok hrun]
    have hruns : Runs revision { d₁ with poll := .changedSince revision } := by
      refine ⟨⟨hkeeps.phase.trans hd.parsing, Or.inr ⟨revision, rfl, ?_⟩⟩, rfl, hkeeps.sound⟩
      apply Nat.le_trans hrevision hkeeps.rel
    rw [meets_bind, execute, meets_bind, setPoll, meets_modify, setPoll, meets_finally]
    apply (meets_executeAll_overtaken hrecords hmedia hruns hcs hlines).imp
    intro report d₂ h₂
    rw [meets_bind, remember, meets_modify, meets_bind, meets_get, meets_bind, log, meets_modify,
      meets_pure]
    refine ⟨d₂, h₂, rfl, hrecords.log _ _, rfl, rfl, ?_⟩
    apply (hruns.reaches h₂.reaches).busy.parsing
  · rintro f d₁ ⟨⟨hf, -⟩, -⟩
    apply hf

/-- Evaluating a text whose commands are not those remembered. -/
theorem meets_evaluate_recorded (hmedia : Lookup.Answering media) {text : String}
    (hlength : text.length < 2 ^ 63) (hpoll : d.poll = .never)
    (hchanged : ∀ fp, Command.fingerprint (Script.ofText text).commands = .ok fp →
      d.fingerprint ≠ some fp) :
  Meets (evaluate host text) { d with phase := .parsing }
    (fun pass d' => pass.script = Script.ofText text ∧ ∃ report d₁, pass.report = some report
      ∧ Concludes host media events d.revision (Script.ofText text).commands
        (started host text d) report d₁
      ∧ Settles events (if report.cancelled then none else some pass.fingerprint) d₁ d')
    (fun _ _ => False)
  := by
  have hcs := Command.readable_ofText text
  obtain ⟨lines, hlines⟩ := Scene.skipped_ofText hlength
  obtain ⟨fp, hfp⟩ := hcs.fingerprint_ok
  have hentered : Desk.Busy { d with phase := .parsing } := ⟨rfl, Or.inl hpoll⟩
  have hlogged : Meets (logAll host lines) { d with phase := .parsing }
      (fun _ => (Manner.unrecorded events).Passes { d with phase := .parsing })
      (fun _ _ => False) :=
    meets_logAll_recorded hrecords lines
  rw [evaluate, meets_bind, meets_get, meets_bind, hlines, meets_ofExcept_ok, meets_bind]
  apply (hlogged.and (meets_self _ _)).mono
  · rintro _ d₁ ⟨h₁, hrun⟩
    have hpoll₁ : d₁.poll = .never := by
      rw [h₁.rest]
      apply hpoll
    have hchanged₁ : d₁.fingerprint ≠ some fp := by
      rw [h₁.rest]
      apply hchanged fp hfp
    rw [meets_bind, hfp, meets_ofExcept_ok, meets_bind, meets_get, if_neg hchanged₁, meets_bind,
      meets_map, started_eq hlines (after_of_ok hrun)]
    apply (meets_rebuild_recorded hrecords hmedia (h₁.busy hentered) hpoll₁ hcs
      (Command.writable_ofText hlength) h₁.rel.1 fp).imp
    rintro report d₃ ⟨d₂, hconcludes, h₃⟩
    have h₄ : Settles events (if report.cancelled then none else some fp) d₂
        { d₃ with last := some ⟨Script.ofText text, fp, some report⟩ } :=
      ⟨h₃.store, h₃.events, h₃.fingerprint, h₃.poll, h₃.phase⟩
    rw [meets_bind, meets_modify, meets_bind, meets_get, meets_bind]
    apply (meets_publish_recorded hrecords h₄.busy _ _).imp
    intro _ d₅ h₅
    rw [meets_pure]
    exact ⟨rfl, report, d₂, rfl, hconcludes, h₄.passes h₅⟩
  · rintro f d₁ ⟨hf, -⟩
    apply hf

/-- Submitting a text whose commands are not those remembered, at a desk where nothing is
under way. -/
theorem submit_recorded (hmedia : Lookup.Answering media) {text : String}
    (hlength : text.length < 2 ^ 63) (hphase : d.phase = .idle) (hpoll : d.poll = .never)
    (hchanged : ∀ fp, Command.fingerprint (Script.ofText text).commands = .ok fp →
      d.fingerprint ≠ some fp) :
  ∃ pass report d₁ d', submit host text d = .ok (some pass) { d' with phase := .idle }
    ∧ pass.script = Script.ofText text ∧ pass.report = some report
    ∧ Concludes host media events d.revision (Script.ofText text).commands (started host text d)
      report d₁
    ∧ Settles events (if report.cancelled then none else some pass.fingerprint) d₁ d'
  := by
  have hnot : d.phase ≠ .parsing := by
    rw [hphase]
    exact nofun
  have hmeets : Meets (submit host text) d (fun result d₂ => ∃ pass report d₁ d',
      result = some pass ∧ d₂ = { d' with phase := .idle } ∧ pass.script = Script.ofText text
        ∧ pass.report = some report
        ∧ Concludes host media events d.revision (Script.ofText text).commands
          (started host text d) report d₁
        ∧ Settles events (if report.cancelled then none else some pass.fingerprint) d₁ d')
      (fun _ _ => False) := by
    rw [meets_submit text hnot]
    apply (meets_evaluate_recorded hrecords hmedia hlength hpoll hchanged).mono
    · rintro pass d' ⟨hscript, report, d₁, hreport, hconcludes, hsettles⟩
      exact ⟨pass, report, d₁, d', rfl, rfl, hscript, hreport, hconcludes, hsettles⟩
    · intro f d' hf
      apply hf.elim
  cases hrun : submit host text d with
  | error f d' => exact ((meets_of_error hrun).mp hmeets).elim
  | ok result d₂ =>
      obtain ⟨pass, report, d₁, d', rfl, rfl, h⟩ := (meets_of_ok hrun).mp hmeets
      exact ⟨pass, report, d₁, d', rfl, h⟩

omit hrecords

/-! ### The next text -/

/-- The commands of the next text are carried out, whatever it is and however often the
document changes before: a pass that is published has carried them out, and one is published
if the surroundings raise nothing. -/
def RunsNext (d : Desk ε) : Prop :=
  ∀ (next : Surroundings ε) text revision,
    (∀ pass d', submit next text { d with revision := revision } = .ok (some pass) d' →
      pass.executed = true)
    ∧ ∀ media events, next.Records media events → Lookup.Answering media →
      text.length < 2 ^ 63 →
      ∃ pass d', submit next text { d with revision := revision } = .ok (some pass) d'

theorem runsNext_of_forgotten (hphase : d.phase = .idle) (hpoll : d.poll = .never)
    (hnone : d.fingerprint = none) :
  d.RunsNext
  := by
  intro next text revision
  generalize hd₁ : ({ d with revision := revision } : Desk ε) = d₁
  have hphase₁ : d₁.phase = .idle := by
    rw [← hd₁]
    apply hphase
  have hpoll₁ : d₁.poll = .never := by
    rw [← hd₁]
    apply hpoll
  have hnone₁ : d₁.fingerprint = none := by
    rw [← hd₁]
    apply hnone
  constructor
  · intro pass d' hsubmit
    obtain ⟨fp, -, hexecuted⟩ := executed_of_submit hsubmit
    rw [hnone₁] at hexecuted
    simpa using hexecuted
  · intro media events hnext hmedia hlength
    have hchanged : ∀ fp, Command.fingerprint (Script.ofText text).commands = .ok fp →
        d₁.fingerprint ≠ some fp := by
      intro fp _
      rw [hnone₁]
      exact nofun
    obtain ⟨pass, report, d₂, d', hsubmit, -⟩ :=
      submit_recorded hnext hmedia hlength hphase₁ hpoll₁ hchanged
    exact ⟨pass, _, hsubmit⟩

/-! ### Loads that are stale -/

/-- What comes of a text whose commands are given up at a load that is stale, when given deeds
were done before. -/
structure Discards (host : Surroundings ε) (media : String → Except Fault Double)
    (events : ε → List Event) (text : String) (earlier : List (Deed ε)) (x : Deed ε)
    (report : Report) (d' : Desk ε) : Prop where
  commands : ∃ rest, (Script.ofText text).commands
    = earlier.map (·.command) ++ x.command :: rest
  /-- The load is the last command that is reported, as given up because the document has
  changed. -/
  results : ∃ rs path, rs.map (·.command) = earlier.map (·.command)
    ∧ x.command.edit = .load path
    ∧ report.results = rs ++ [⟨x.command, .error (.overtaken path)⟩]
  cancelled : report.cancelled = true
  /-- Nothing is announced from the turn of the load on. -/
  events : events d'.surroundings = events x.before.surroundings
  store : d'.store = x.before.store
  fromScratch : Timeline.FromScratch media (earlier.map (·.command)) d'.store.timeline
  forgotten : d'.fingerprint = none
  runsNext : d'.RunsNext

/-- A file that is found after the document has changed never reaches the store.  Among
surroundings that note changes of the document at any point, keep a record of the events of
the store, and raise nothing, a text whose commands are not those remembered publishes a
pass.  If a load among its deeds is stale, then nothing is carried out after the first such
load, and it is discarded; otherwise all commands are carried out. -/
theorem stale_load_discarded (hrecords : host.Records media events)
    (hmedia : Lookup.Answering media) {text : String} (hlength : text.length < 2 ^ 63)
    (hphase : d.phase = .idle) (hpoll : d.poll = .never)
    (hchanged : ∀ fp, Command.fingerprint (Script.ofText text).commands = .ok fp →
      d.fingerprint ≠ some fp) :
  ∃ pass report d', submit host text d = .ok (some pass) d' ∧ pass.report = some report
    ∧ (∀ earlier x later,
      deeds host (Script.ofText text).commands (started host text d) = earlier ++ x :: later →
      (∀ y ∈ earlier, ¬ y.Stale host media d.revision) → x.Stale host media d.revision →
      later = [] ∧ Discards host media events text earlier x report d')
    ∧ ((∀ x ∈ deeds host (Script.ofText text).commands (started host text d),
        ¬ x.Stale host media d.revision) →
      report.cancelled = false
        ∧ report.results.map (·.command) = (Script.ofText text).commands)
  := by
  obtain ⟨pass, report, d₁, d', hsubmit, -, hreport, hconcludes, hsettles⟩ :=
    submit_recorded hrecords hmedia hlength hphase hpoll hchanged
  refine ⟨pass, report, _, hsubmit, hreport, ?_, hconcludes.complete⟩
  intro earlier x later hdeeds hearlier hx
  obtain ⟨hlast, hgivenUp⟩ := hconcludes.givenUp earlier x later hdeeds hearlier hx
  obtain ⟨rs, path, hrs, hload, rfl⟩ := hgivenUp.report
  obtain ⟨report', hreport', hfollow⟩ := hgivenUp.follow
  rw [timeline_started hrecords hlength hpoll] at hfollow
  have hstore : d'.store = x.before.store := hsettles.store.trans hgivenUp.passes.store
  have hforgotten : d'.fingerprint = none := hsettles.fingerprint
  refine ⟨hlast, hgivenUp.commands, ⟨rs, path, hrs, hload, rfl⟩, rfl, ?_, hstore, ?_,
    hforgotten, ?_⟩
  · apply hsettles.events.trans hgivenUp.passes.events
  · change Timeline.FromScratch media _ d'.store.timeline
    rw [hstore]
    apply Timeline.fromScratch_of_follow hfollow hreport'
  · have hidle : Desk.phase { d' with phase := .idle } = .idle := rfl
    apply runsNext_of_forgotten hidle hsettles.poll hforgotten

/-! ### A listener that notes a change -/

/-- A script that loads a file, cuts it, and does the same with another file. -/
def twoFiles : String :=
  "LOAD a.mp4\nCUT 00:00:05.000\nLOAD b.mp4\nCUT 00:00:02.000"

/-- A listener that writes down every event and notes a change of the document when a segment
is added. -/
def alerted : Surroundings (List Event) where
  log _ s := s
  onEvent _ event := do
    modify fun d => { d with surroundings := d.surroundings ++ [event] }
    if event.kind = .added then noteChange
  onPass _ _ := pure ()
  onError _ _ := pure ()
  lookup _ := pure (Double.ofInt 10)

/-- A desk that the listener follows. -/
def unwritten : Desk (List Event) where
  listeners := [0]
  surroundings := []

theorem alerted_records :
  alerted.Records (fun _ => .ok (.ofInt 10)) id
  := by
  constructor
  · intro line s
    rfl
  · intro d hd listener event
    change Meets (do
      modify fun d : Desk (List Event) => { d with surroundings := d.surroundings ++ [event] }
      if event.kind = .added then noteChange) d _ _
    rw [meets_bind, meets_modify]
    split
    · rw [noteChange, meets_modify]
      exact ⟨⟨rfl, Nat.le_succ _⟩, rfl⟩
    · rw [meets_pure]
      exact ⟨⟨rfl, Nat.le_refl _⟩, rfl⟩
  · intro d hd listener pass
    change Meets (pure ()) d _ _
    rw [meets_pure]
    apply Manner.Passes.refl
  · intro d hd path
    change Meets (pure (Double.ofInt 10)) d _ _
    apply (meets_pure _).mpr
    exact ⟨rfl, Manner.Passes.refl d⟩

/-- The script is given up at its second file. -/
theorem stale_load_discarded_twoFiles :
  alerted.Records (fun _ => .ok (.ofInt 10)) id
    ∧ Lookup.Answering (fun _ => .ok (.ofInt 10)) ∧ twoFiles.length < 2 ^ 63
    ∧ unwritten.phase = .idle ∧ unwritten.poll = .never ∧ unwritten.fingerprint = none
    ∧ ∃ earlier x pass report d', submit alerted twoFiles unwritten = .ok (some pass) d'
      ∧ pass.report = some report ∧ x.command.edit = .load "b.mp4" ∧ earlier.length = 2
      ∧ Discards alerted (fun _ => .ok (.ofInt 10)) id twoFiles earlier x report d'
  := by
  have hmedia : Lookup.Answering (fun _ => .ok (.ofInt 10)) := by
    intro path f h
    cases h
  have hlength : twoFiles.length < 2 ^ 63 := by decide +kernel
  have hdeeds : (deeds alerted (Script.ofText twoFiles).commands
      (started alerted twoFiles unwritten)).map (fun x => (x.command.edit, x.before.revision))
        = [(.load "a.mp4", 0), (.cut (.ofInt 5), 1), (.load "b.mp4", 3)] := by
    decide +kernel
  obtain ⟨pass, report, d', hsubmit, hreport, hstale, -⟩ := stale_load_discarded alerted_records
    hmedia hlength (d := unwritten) rfl rfl fun _ _ => nofun
  obtain ⟨y, ys, hys, hy, hdeeds⟩ := List.map_eq_cons_iff.mp hdeeds
  obtain ⟨z, zs, rfl, hz, hdeeds⟩ := List.map_eq_cons_iff.mp hdeeds
  obtain ⟨x, xs, rfl, hx, hdeeds⟩ := List.map_eq_cons_iff.mp hdeeds
  obtain rfl := List.map_eq_nil_iff.mp hdeeds
  have hearlier : ∀ w ∈ [y, z], ¬ w.Stale alerted (fun _ => .ok (.ofInt 10)) 0 := by
    rintro w hw ⟨path, duration, hload, -, -, -, -, hrevision⟩
    simp only [List.mem_cons, List.not_mem_nil, or_false] at hw
    rcases hw with rfl | rfl
    · apply hrevision (congrArg Prod.snd hy)
    · cases hload.symm.trans (congrArg Prod.fst hz)
  have hlate : x.Stale alerted (fun _ => .ok (.ofInt 10)) 0 := by
    have hfinite : (Double.ofInt 10).isFinite = true := by decide +kernel
    have hpositive : Double.zero < .ofInt 10 := by decide +kernel
    refine ⟨"b.mp4", .ofInt 10, congrArg Prod.fst hx, by decide, rfl, hfinite, hpositive, ?_⟩
    have hrevision : x.before.revision = 3 := congrArg Prod.snd hx
    change x.before.revision ≠ 0
    rw [hrevision]
    decide
  obtain ⟨-, hdiscards⟩ := hstale [y, z] x [] hys hearlier hlate
  exact ⟨alerted_records, hmedia, hlength, rfl, rfl, rfl, [y, z], x, pass, report, d', hsubmit,
    hreport, congrArg Prod.fst hx, rfl, hdiscards⟩

end Desk

end Montage
