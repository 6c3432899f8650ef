import Montage.Proofs.Desk.Batch
import Montage.Proofs.Desk.Reachable
import Montage.Proofs.Timeline.Refused

/-!
# Loading is all or nothing

Whether a file is loaded is settled by its path, by what the lookup of it brings and by whether
the batch is to be given up then: `Lookup.Settles`.  All of this is known before anything is done
to the store.  So a load makes any store, sound or not, one that shows the whole of the file, or
leaves it as it is: `Desk.load_all_or_nothing`.
-/

namespace Montage

/-! ### What a lookup settles -/

namespace Lookup

/-- A load fails for a cause, which is of a given kind. -/
def FailsFor (outcome : Except Fault Double) (cause : ScriptFault) (kind : ScriptFault.Kind) :
    Prop :=
  outcome = .error (.script cause) ∧ cause.kind = kind

/-- The outcome of a load: the duration of the segment that is loaded, or the fault with which
the load fails. -/
structure Settles (path : String) (l : Lookup) (outcome : Except Fault Double) : Prop where
  loads : ∀ duration, outcome = .ok duration ↔ Text.isBlankText path = false
    ∧ l.answer = .ok duration ∧ (duration.isFinite = true ∧ .zero < duration)
    ∧ l.overtaken = false
  blank : Text.isBlankText path = true → FailsFor outcome .pathMissing .missingField
  /-- Where the system, a value or the running program fails, the file is unavailable. -/
  unavailable : ∀ f, Text.isBlankText path = false → l.answer = .error f → f.family ≠ .other →
    FailsFor outcome (.lookupFailed path f.message) .mediaUnavailable
  /-- The failure of a command goes on as it is, and so does any other fault. -/
  passed : ∀ f, Text.isBlankText path = false → l.answer = .error f → f.family = .other →
    outcome = .error f
  /-- A file without a finite positive duration is unavailable. -/
  unplayable : ∀ duration, Text.isBlankText path = false → l.answer = .ok duration →
    ¬ (duration.isFinite = true ∧ .zero < duration) →
    FailsFor outcome (.unplayable path duration) .mediaUnavailable
  /-- A load is given up only once a duration has been found for which it would succeed. -/
  overtaken : ∀ duration, Text.isBlankText path = false → l.answer = .ok duration →
    duration.isFinite = true ∧ .zero < duration → l.overtaken = true →
    FailsFor outcome (.overtaken path) .cancelled

end Lookup

/-- The durations that are not refused are the finite positive ones. -/
theorem Double.refused_iff {duration : Double} :
  (!duration.isFinite || decide (duration ≤ .zero)) = true
    ↔ ¬ (duration.isFinite = true ∧ .zero < duration)
  := by
  rw [Bool.or_eq_true, Bool.not_eq_true', decide_eq_true_iff, not_and, ← Bool.not_eq_true,
    ← imp_iff_not_or]
  constructor
  · intro h hfinite
    apply Double.not_lt_of_le (h hfinite)
  · intro h hfinite
    by_contra hle
    apply h hfinite (Double.zero_lt_of_not_le_zero hfinite hle)

namespace Lookup

variable {path : String} {l : Lookup}

section Named

variable (hname : Text.isBlankText path = false)

include hname

theorem playable_of_error {f : Fault} (h : l.answer = .error f) :
  l.playable path = .error (Desk.lookupFault path f)
  := by
  rw [playable, if_neg (by simp [hname]), h]

theorem playable_of_refused {duration : Double} (h : l.answer = .ok duration)
    (hduration : ¬ (duration.isFinite = true ∧ .zero < duration)) :
  l.playable path = .error (.script (.unplayable path duration))
  := by
  rw [playable, if_neg (by simp [hname]), h]
  apply if_pos (Double.refused_iff.mpr hduration)

theorem playable_of_found {duration : Double} (h : l.answer = .ok duration)
    (hduration : duration.isFinite = true ∧ .zero < duration) :
  l.playable path
    = if l.overtaken then .error (.script (.overtaken path)) else .ok duration
  := by
  rw [playable, if_neg (by simp [hname]), h]
  apply if_neg (mt Double.refused_iff.mp (not_not_intro hduration))

end Named

/-- The lookup settles whether a file is to be loaded. -/
theorem settles_playable (path : String) (l : Lookup) :
  l.Settles path (l.playable path)
  := by
  constructor
  case loads =>
      intro duration
      constructor
      · intro h
        have hname : Text.isBlankText path = false := by
          rw [← Bool.not_eq_true]
          intro hblank
          rw [playable, if_pos hblank] at h
          cases h
        have hanswer := (of_playable h).1
        have hduration : duration.isFinite = true ∧ .zero < duration := by
          by_contra hrefused
          rw [playable_of_refused hname hanswer hrefused] at h
          cases h
        rw [playable_of_found hname hanswer hduration] at h
        split at h
        · cases h
        · rename_i hovertaken
          exact ⟨hname, hanswer, hduration, by simpa using hovertaken⟩
      · rintro ⟨hname, hanswer, hduration, hovertaken⟩
        rw [playable_of_found hname hanswer hduration, hovertaken]
        rfl
  case blank =>
      intro hblank
      rw [playable, if_pos hblank]
      exact ⟨rfl, rfl⟩
  case unavailable =>
      intro f hname hanswer hfamily
      rw [playable_of_error hname hanswer, Desk.lookupFault_of_family path hfamily]
      exact ⟨rfl, rfl⟩
  case passed =>
      intro f hname hanswer hfamily
      rw [playable_of_error hname hanswer, Desk.lookupFault_of_other path hfamily]
  case unplayable =>
      intro duration hname hanswer hduration
      exact ⟨playable_of_refused hname hanswer hduration, rfl⟩
  case overtaken =>
      intro duration hname hanswer hduration hovertaken
      rw [playable_of_found hname hanswer hduration, if_pos hovertaken]
      exact ⟨rfl, rfl⟩

end Lookup

/-- What is reported of a command whose edit comes to an outcome.  A failure cannot be reported
on a line whose number is too long to be written. -/
def Command.reported (c : Command) : Except Fault (List Int) → Except Fault Result
  | .ok ids => .ok ⟨c, .ok ids⟩
  | .error (.script cause) =>
    if Text.isWritable c.line then .ok ⟨c, .error cause⟩ else .error .tooLongToWrite
  | .error f => .error f

theorem Command.reported_script (path : String) (line : Int) (cause : ScriptFault) :
  reported ⟨.load path, line⟩ (.error (.script cause))
    = (mention ⟨.load path, line⟩).map fun _ => ⟨⟨.load path, line⟩, .error cause⟩
  := by
  rw [reported, mention, Text.writeInteger]
  split <;> rfl

/-- A command that is reported although its edit failed is reported as a failure. -/
theorem Command.of_reported_error {c : Command} {f : Fault} {r : Result}
    (h : c.reported (.error f) = .ok r) :
  ∃ cause, r = ⟨c, .error cause⟩
  := by
  cases f with
  | script cause =>
      rw [reported] at h
      split at h
      · cases h
        exact ⟨cause, rfl⟩
      · cases h
  | _ => cases h

/-! ### Loading at a desk -/

namespace Desk

variable {ε α : Type}

/-- An operation that ends with an outcome and leaves a desk. -/
def concluded (outcome : Except Fault α) (d' : Desk ε) : EStateM.Result Fault (Desk ε) α :=
  match outcome with
  | .ok a => .ok a d'
  | .error f => .error f d'

/-- The whole of a file has been loaded, whatever there was before, or nothing has been done. -/
def AllOrNothing (host : Surroundings ε) (path : String) (outcome : Except Fault Double)
    (d d' : Desk ε) : Prop :=
  match outcome with
  | .ok duration => d'.store.timeline = .whole path duration
    ∧ host.Tells
      [⟨.cleared, none⟩, ⟨.added, some ⟨{ start := .zero, stop := duration, path }, 1⟩⟩] d d'
  | .error _ => d'.store = d.store ∧ host.Tells [] d d'

variable {d : Desk ε}

theorem AllOrNothing.silently {host : Surroundings ε} {path : String}
    {outcome : Except Fault Double} {d' d'' : Desk ε} (h : AllOrNothing host path outcome d d')
    (h' : ((Conduct.quiet ε).recorded host).Hears d' [] d'') :
  AllOrNothing host path outcome d d''
  := by
  obtain ⟨hstore, htells⟩ := h'
  change d''.store = d'.store at hstore
  cases outcome with
  | ok duration => exact ⟨hstore ▸ h.1, h.2.append htells⟩
  | error f => exact ⟨hstore.trans h.1, h.2.append htells⟩

/-- An operation of which it is known what it comes to. -/
theorem Meets.concluded {x : Run ε α} {outcome : Except Fault α} {P : Desk ε → Prop}
    (h : Meets x d (fun a d' => outcome = .ok a ∧ P d') (fun f d' => outcome = .error f ∧ P d')) :
  ∃ d', x d = Desk.concluded outcome d' ∧ P d'
  := by
  cases hx : x d with
  | ok a d' =>
      obtain ⟨rfl, hd'⟩ := (meets_of_ok hx).mp h
      exact ⟨d', rfl, hd'⟩
  | error f d' =>
      obtain ⟨rfl, hd'⟩ := (meets_of_error hx).mp h
      exact ⟨d', rfl, hd'⟩

variable {host : Surroundings ε} (hC : (Conduct.quiet ε).Binds host)

include hC

/-- A load comes to what its lookup settles. -/
theorem meets_load_settled (path : String) (d : Desk ε) :
  Meets (load host path) d
    (fun ids d' => ((lookupAt host d path).playable path).map (fun _ => [1]) = .ok ids
      ∧ AllOrNothing host path ((lookupAt host d path).playable path) d d')
    (fun f d' => ((lookupAt host d path).playable path).map (fun _ => [(1 : Int)]) = .error f
      ∧ AllOrNothing host path ((lookupAt host d path).playable path) d d')
  := by
  apply (meets_load_anew hC.recorded trivial path).mono
  · rintro _ d' ⟨duration, hplayable, rfl, h⟩
    rw [hplayable]
    exact ⟨rfl, h.tells⟩
  · rintro f d' (⟨hf, -⟩ | ⟨hplayable, h⟩)
    · apply hf.elim
    · rw [hplayable]
      exact ⟨rfl, h⟩

/-- A command that loads a file reports what the load comes to. -/
theorem meets_executeOne_settled (path : String) (line : Int) (d : Desk ε) :
  Meets (executeOne host ⟨.load path, line⟩) d
    (fun r d' => Command.reported ⟨.load path, line⟩
        (((lookupAt host d path).playable path).map fun _ => [1]) = .ok r
      ∧ AllOrNothing host path ((lookupAt host d path).playable path) d d')
    (fun f d' => Command.reported ⟨.load path, line⟩
        (((lookupAt host d path).playable path).map fun _ => [1]) = .error f
      ∧ AllOrNothing host path ((lookupAt host d path).playable path) d d')
  := by
  rw [executeOne, meets_tryCatch, meets_bind]
  apply (meets_load_settled hC path d).mono
  · rintro ids d' ⟨hids, h⟩
    rw [meets_pure, hids]
    exact ⟨rfl, h⟩
  · rintro f d' ⟨hf, h⟩
    rw [hf]
    cases f with
    | script cause =>
        rw [Command.reported_script]
        apply (meets_failed hC.recorded trivial ⟨.load path, line⟩ cause).mono
        · rintro r d'' ⟨⟨m, hmention⟩, rfl, h'⟩
          rw [hmention]
          exact ⟨rfl, h.silently h'⟩
        · rintro f d'' ⟨hmention, rfl⟩
          rw [hmention]
          exact ⟨rfl, h⟩
    | _ =>
        apply (meets_throw _).mpr
        exact ⟨rfl, h⟩

/-- All or nothing.  What a load comes to is settled by its path, its lookup and the poll, and
they are consulted in this order, each only if the ones before it do not settle it.  If the load
succeeds, the store shows the whole of the file and nothing else; if it fails, it is as it was
and there were no events. -/
theorem load_all_or_nothing (path : String) (d : Desk ε) :
  ∃ outcome, (lookupAt host d path).Settles path outcome
    ∧ playableDuration host path d = concluded outcome (lookedUp host path d)
    ∧ (∃ d', load host path d = concluded (outcome.map fun _ => [1]) d'
      ∧ AllOrNothing host path outcome d d')
    ∧ ∀ line, ∃ d', executeOne host ⟨.load path, line⟩ d
        = concluded (Command.reported ⟨.load path, line⟩ (outcome.map fun _ => [1])) d'
      ∧ AllOrNothing host path outcome d d'
  := by
  refine ⟨_, Lookup.settles_playable path (lookupAt host d path), ?_, ?_, ?_⟩
  · obtain ⟨_, hfound, rfl⟩ := (meets_playableDuration_exact host d path).concluded
    apply hfound
  · apply (meets_load_settled hC path d).concluded
  · intro line
    apply (meets_executeOne_settled hC path line d).concluded

omit hC

theorem load_all_or_nothing_patchy :
  (Conduct.quiet _).Binds .reel
    ∧ (∃ d', load .reel "b.mp4" patchy = .ok [1] d'
      ∧ d'.store.timeline = .whole "b.mp4" (.ofInt 10)
      ∧ d'.surroundings = patchy.surroundings ++ [⟨.cleared, none⟩,
        ⟨.added, some ⟨{ start := .zero, stop := .ofInt 10, path := "b.mp4" }, 1⟩⟩])
    ∧ ∃ d', load .reel " " patchy = .error (.script .pathMissing) d'
      ∧ d'.store = patchy.store ∧ d'.surroundings = patchy.surroundings
  := by
  have hcount : patchy.listeners.count 0 = 1 := by decide +kernel
  refine ⟨Conduct.quiet_reel, ?_, ?_⟩
  · obtain ⟨outcome, hsettles, -, ⟨d', hload, h⟩, -⟩ :=
      load_all_or_nothing Conduct.quiet_reel "b.mp4" patchy
    have hnever : (lookupAt .reel patchy "b.mp4").overtaken = false := by decide +kernel
    obtain rfl := (hsettles.loads (.ofInt 10)).mpr ⟨by decide, rfl, by decide +kernel, hnever⟩
    have hrecord := (h.2 0 id Surroundings.recorder_recording hcount).record
    exact ⟨d', hload, h.1, hrecord⟩
  · obtain ⟨outcome, hsettles, -, ⟨d', hload, h⟩, -⟩ :=
      load_all_or_nothing Conduct.quiet_reel " " patchy
    obtain rfl := (hsettles.blank (by decide)).1
    have hrecord := (h.2 0 id Surroundings.recorder_recording hcount).record
    rw [List.append_nil] at hrecord
    exact ⟨d', hload, h.1, hrecord⟩

end Desk

end Montage
