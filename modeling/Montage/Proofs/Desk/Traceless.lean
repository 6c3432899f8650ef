import Montage.Proofs.Command.Writable
import Montage.Proofs.Desk.Batch
import Montage.Proofs.Desk.Reachable
import Montage.Proofs.Timeline.Expressible

/-!
# Commands that fail leave no trace

A batch that is not given up comes to the same if the commands in it that failed are left out:
the same timeline, the same events, and the same results of the commands that are left.  The
failure of a command is reported with its line, whose number must not be too long to be written;
the lines of a script never are.
-/

namespace Montage

variable {ε : Type}

/-- A desk at which no batch is given up, whenever it asks. -/
def Desk.GoesOn (d : Desk ε) : Prop :=
  match d.poll with
  | .never => True
  | .changedSince revision => d.revision = revision
  | .answers next => ∀ answer ∈ next, answer = false

namespace Desk.GoesOn

variable {d : Desk ε}

theorem pollAnswer (h : d.GoesOn) :
  d.pollAnswer = false
  := by
  unfold GoesOn at h
  unfold Desk.pollAnswer
  cases hpoll : d.poll with
  | never => rfl
  | changedSince revision =>
      rw [hpoll] at h
      simpa using h
  | answers next =>
      rw [hpoll] at h
      cases next with
      | nil => rfl
      | cons answer rest => apply h answer List.mem_cons_self

theorem asked (h : d.GoesOn) :
  d.asked.GoesOn
  := by
  unfold Desk.asked
  split
  · rename_i hpoll
    rw [GoesOn, hpoll] at h
    intro answer hanswer
    apply h answer (List.mem_cons_of_mem _ hanswer)
  · apply h

end Desk.GoesOn

theorem Desk.GoesOn.withStore {d : Desk ε} (s : Store) (h : d.GoesOn) :
  { d with store := s }.GoesOn
  := h

/-- The conduct of those who keep away from the store, raise nothing, and do not see to it that
a batch is given up. -/
def Conduct.patient (ε : Type) : Conduct ε where
  Holds _ := True
  Allows d d' := d'.store = d.store ∧ (d.GoesOn → d'.GoesOn)
  Raises _ := False
  refl _ := ⟨rfl, id⟩
  trans h h' := ⟨h'.1.trans h.1, fun hd => h'.2 (h.2 hd)⟩
  store h := h.1
  withStore h _ := ⟨rfl, h.2⟩
  holds _ _ := trivial
  holds_withStore _ _ := trivial
  asked {d} _ := by
    refine ⟨?_, fun hd => hd.asked⟩
    unfold Desk.asked
    split <;> rfl
  not_script h := h

/-- The same at desks where no batch is given up. -/
def Conduct.unhurried (ε : Type) : Conduct ε :=
  (patient ε).during Desk.GoesOn (fun h => h.2) Desk.GoesOn.withStore

/-- Patient surroundings in which every file is what a table says, however often it is looked
up, and the files that cannot be looked up fail of what is reported of a command. -/
structure Surroundings.Answers (host : Surroundings ε) (media : String → Except Fault Double) :
    Prop where
  binds : (Conduct.patient ε).Binds host
  answers (d : Desk ε) (path : String) : (Desk.lookupAt host d path).answer = media path
  reporting : Lookup.Reporting media

namespace Desk

variable {host : Surroundings ε} {media : String → Except Fault Double}
  (hhost : host.Answers media) {d : Desk ε}

include hhost

/-- The lookup of a file is not disturbed where no batch is given up. -/
theorem lookupAt_patient (hd : d.GoesOn) (path : String) :
  lookupAt host d path = Lookup.undisturbed media path
  := by
  have hafter : (after (host.lookup path) d).GoesOn := by
    apply Meets.after
    apply (hhost.binds.lookup trivial path).mono
    · intro _ d' h'
      apply h'.2 hd
    · intro _ d' h'
      apply h'.2 hd
  have hanswer := hhost.answers d path
  have hovertaken : (lookupAt host d path).overtaken = false := hafter.pollAnswer
  rw [Lookup.undisturbed, ← hanswer, ← hovertaken]

/-- What running a batch comes to in such surroundings, unless it is given up. -/
theorem meets_execute_answered (hs : d.store.Sound) (cs : List Command) (poll : Poll) :
  Meets (execute host cs poll) d
    (fun report d' => report.cancelled = true
      ∨ d.store.timeline.follow media cs = .ok (d'.store.timeline, report)
        ∧ host.Tells (d.store.timeline.told media cs) d d')
    (fun f _ => d.store.timeline.follow media cs = .error f ∨ ∃ c ∈ cs, c.mention = .error f)
  := by
  have hlook : ∀ c ∈ cs, ∀ path, c.edit = .load path → ∀ d', (Conduct.patient ε).Holds d' →
      (lookupAt host d' path).answer = media path
        ∧ ((lookupAt host d' path).overtaken = true → True) :=
    fun _ _ path _ d' _ => ⟨hhost.answers d' path, fun _ => trivial⟩
  simpa only [true_and]
    using meets_execute_told hhost.binds (fun _ => id) cs poll hlook trivial hs

/-- What running a batch comes to where it is not given up. -/
theorem meets_execute_patient (hs : d.store.Sound) (cs : List Command) {poll : Poll}
    (hpoll : { d with poll := poll }.GoesOn) :
  Meets (execute host cs poll) d
    (fun report d' => d.store.timeline.follow media cs = .ok (d'.store.timeline, report)
      ∧ host.Tells (d.store.timeline.told media cs) d d')
    (fun f _ => d.store.timeline.follow media cs = .error f)
  := by
  have hC : (Conduct.unhurried ε).Binds host :=
    hhost.binds.during (fun h => h.2) GoesOn.withStore
  apply meets_execute_undisturbed hC (fun _ => id) cs poll _ ⟨trivial, hpoll⟩ hs
  intro c _ path _ d' hd'
  apply lookupAt_patient hhost hd'.2

/-- Where running a batch of commands at times that can be expressed ends without a report, the
number of the line of one of them is too long to be written. -/
theorem of_execute_error (hs : d.store.Sound) {cs : List Command}
    (hcs : ∀ c ∈ cs, c.edit.Expressible) {poll : Poll} {f : Fault} {d' : Desk ε}
    (h : execute host cs poll d = .error f d') :
  (∃ c ∈ cs, Text.isWritable c.line = false) ∧ f = .tooLongToWrite
  := by
  rcases (meets_of_error h).mp (meets_execute_answered hhost hs cs poll) with
    hfollow | ⟨c, hc, hmention⟩
  · rcases Timeline.follow_expressible hhost.reporting hcs d.store.timeline with
      ⟨t', report, hok⟩ | ⟨hline, herror⟩
    · cases hfollow.symm.trans hok
    · cases hfollow.symm.trans herror
      exact ⟨hline, rfl⟩
  · obtain ⟨s, htext⟩ := (hcs c hc).text
    rcases Command.mention_cases htext with ⟨m, hok⟩ | ⟨hline, herror⟩
    · cases hmention.symm.trans hok
    · cases hmention.symm.trans herror
      exact ⟨⟨c, hc, hline⟩, rfl⟩

/-- Commands that fail leave no trace.  A batch of commands on lines that can be written has a
report.  If it is not given up, it has one result for each command, in order, and without the
commands that failed it leads to the same timeline, tells of the same events, and has the same
results, wherever it is not given up. -/
theorem failures_leave_no_trace (hs : d.store.Reachable) {cs : List Command}
    (hcs : ∀ c ∈ cs, c.edit.Expressible) (hlines : Command.Writable cs) (poll : Poll) :
  ∃ report d₁, execute host cs poll d = .ok report d₁
    ∧ (report.cancelled = false →
      report.results.map (·.command) = cs
        ∧ host.Tells (d.store.timeline.told media cs) d d₁
        ∧ ∀ poll', { d with poll := poll' }.GoesOn →
          ∃ d₂, execute host (report.achieved.map (·.command)) poll' d
              = .ok ⟨report.achieved, false⟩ d₂
            ∧ d₂.store.timeline = d₁.store.timeline
            ∧ host.Tells (d.store.timeline.told media cs) d d₂)
  := by
  cases hexecute : execute host cs poll d with
  | error f d₁ =>
      obtain ⟨⟨c, hc, hline⟩, -⟩ := of_execute_error hhost hs.sound hcs hexecute
      rw [hlines c hc] at hline
      cases hline
  | ok report d₁ =>
      refine ⟨report, d₁, rfl, ?_⟩
      intro hreport
      obtain ⟨hfollow, htells⟩ :=
        ((meets_of_ok hexecute).mp (meets_execute_answered hhost hs.sound cs poll)).resolve_left
          (by simp [hreport])
      obtain ⟨hcommands, hfollow', htold⟩ := Timeline.follow_achieved hfollow hreport
      refine ⟨hcommands, htells, ?_⟩
      intro poll' hpoll'
      have hrun :=
        meets_execute_patient hhost hs.sound (report.achieved.map (·.command)) hpoll'
      rw [htold] at hrun
      apply hrun.ok_of_eq (fun _ _ hf => hf) hfollow'

omit hhost

/-- A table with one file, one that cannot be read, and no others. -/
def oneReadable (path : String) : Except Fault Double :=
  if path = "a.mp4" then .ok (.ofInt 10)
  else if path = "b.mp4" then .error (.foreign "OSError" .system "unreadable")
  else .error (.script (.fileNotFound path))

theorem reporting_oneReadable :
  Lookup.Reporting oneReadable
  := by
  intro path f h
  unfold oneReadable at h
  split at h
  · cases h
  · split at h
    · cases h
      right
      decide
    · cases h
      left
      exact ⟨_, rfl⟩

theorem answers_oneReadable :
  (Surroundings.recording oneReadable).Answers oneReadable
  := by
  constructor
  · apply Surroundings.binds_recording
    intro d events
    exact ⟨rfl, id⟩
  · intro d path
    rw [lookupAt_table rfl]
  · apply reporting_oneReadable

/-- A desk with a file loaded, and a listener that has kept a record since. -/
def fileRecorded : Desk (List Event) :=
  onRecord oneReadable [.single ⟨.load "a.mp4", 1⟩]

/-- Attempts to load other files and to cut outside and at the ends of segments, with a cut and a
range that succeed among them. -/
def attempts : List Command :=
  [⟨.load "b.mp4", 1⟩, ⟨.cut (.ofInt 12), 2⟩, ⟨.cut (.ofInt 5), 3⟩, ⟨.load "c.mp4", 4⟩,
    ⟨.cut (.ofInt 5), 5⟩, ⟨.range .hide .zero (.ofInt 5), 6⟩]

/-- The report of a batch, if it has one. -/
def reported? (host : Surroundings ε) (cs : List Command) (poll : Poll) (d : Desk ε) :
    Option Report :=
  match execute host cs poll d with
  | .ok report _ => some report
  | .error _ _ => none

theorem failures_leave_no_trace_attempts :
  (Surroundings.recording oneReadable).Answers oneReadable ∧ fileRecorded.store.Reachable
    ∧ (∀ c ∈ attempts, c.edit.Expressible) ∧ Command.Writable attempts
    ∧ { fileRecorded with poll := .never }.GoesOn
    ∧ ∃ report d₁ d₂, execute (.recording oneReadable) attempts .never fileRecorded
        = .ok report d₁
      ∧ report.results.map (·.success) = [false, false, true, false, false, true]
      ∧ execute (.recording oneReadable) (report.achieved.map (·.command)) .never fileRecorded
        = .ok ⟨report.achieved, false⟩ d₂
      ∧ d₂.store.timeline = d₁.store.timeline ∧ d₂.surroundings = d₁.surroundings
  := by
  have hreachable : fileRecorded.store.Reachable := reachable_onRecord _
  have hcs : ∀ c ∈ attempts, c.edit.Expressible := by decide +kernel
  have hlines : Command.Writable attempts := by
    unfold Command.Writable
    decide +kernel
  have hreport : (reported? (.recording oneReadable) attempts .never fileRecorded).map
      (fun r => (r.cancelled, r.results.map (·.success)))
        = some (false, [false, false, true, false, false, true]) := by
    decide +kernel
  have hcount : fileRecorded.listeners.count 0 = 1 := by decide +kernel
  have hnever : { fileRecorded with poll := .never }.GoesOn := trivial
  refine ⟨answers_oneReadable, hreachable, hcs, hlines, hnever, ?_⟩
  obtain ⟨report, d₁, hexecute, hrest⟩ :=
    failures_leave_no_trace answers_oneReadable hreachable hcs hlines .never
  rw [reported?, hexecute] at hreport
  obtain ⟨hcancelled, hresults⟩ := Prod.mk.inj (Option.some.inj hreport)
  obtain ⟨-, htells, hagain⟩ := hrest hcancelled
  obtain ⟨d₂, hexecute', htimeline, htells'⟩ := hagain .never hnever
  have hrecord := (htells 0 id Surroundings.recorder_recording hcount).record
  have hrecord' := (htells' 0 id Surroundings.recorder_recording hcount).record
  exact ⟨report, d₁, d₂, hexecute, hresults, hexecute', htimeline, hrecord'.trans hrecord.symm⟩

end Desk

end Montage
