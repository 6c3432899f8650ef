import Montage.Proofs.Desk.Manner
import Montage.Proofs.Desk.Turn

/-!
# Evaluating texts among busy surroundings

An evaluation leaves the store and its fingerprint as they were, or leaves no fingerprint, or
leaves the fingerprint of the commands of the text and the store that follows from them
(`Memo.Steps`).  `Desk.meets_evaluate` says this of evaluations that succeed and of those that
fail, and in which cases either happens.
-/

namespace Montage

variable {ε : Type}

namespace Manner

/-- Surroundings that keep to a manner: a listener to the store raises only faults of the
first kind, a listener to evaluations only faults of the second, and files are what a table
says. -/
structure Binds (M : Manner ε) (R P : Fault → Prop) (hR : ∀ cause, ¬ R (.script cause))
    (media : String → Except Fault Double) (host : Surroundings ε) : Prop where
  conduct : (M.conduct R hR).Binds host
  answers : ∀ d : Desk ε, d.Busy → ∀ path, (Desk.lookupAt host d path).answer = media path
  onPass : ∀ d : Desk ε, d.Busy → ∀ listener pass, Desk.Meets (host.onPass listener pass) d
    (fun _ => M.Passes d) (fun f d' => P f ∧ M.Passes d d')
  onError : ∀ d : Desk ε, d.Busy → ∀ listener message,
    Desk.Meets (host.onError listener message) d (fun _ => M.Passes d)
      (fun f d' => P f ∧ M.Passes d d')

/-- A desk with a sound store on which no batch is running, in the same phase as another one
before. -/
structure Keeps (M : Manner ε) (d d' : Desk ε) : Prop where
  phase : d'.phase = d.phase
  poll : d'.poll = .never
  sound : d'.store.Sound
  rel : M.Rel d.around d'.around

variable {M : Manner ε} {d d' d'' : Desk ε}

theorem Keeps.busy (h : M.Keeps d d') (hd : d.phase = .parsing) :
  d'.Busy
  := ⟨h.phase.trans hd, Or.inl h.poll⟩

theorem Keeps.trans (h : M.Keeps d d') (h' : M.Keeps d' d'') :
  M.Keeps d d''
  := ⟨h'.phase.trans h.phase, h'.poll, h'.sound, M.trans h.rel h'.rel⟩

theorem Keeps.passes (h : M.Keeps d d') (h' : M.Passes d' d'') :
  M.Keeps d d''
  := by
  refine ⟨?_, ?_, ?_, M.trans h.rel h'.rel⟩
  · rw [h'.rest]
    apply h.phase
  · rw [h'.rest]
    apply h.poll
  · rw [h'.store]
    apply h.sound

end Manner

/-! ### What is remembered -/

namespace Memo

/-- A desk remembers the fingerprint of given commands, and its store is what follows from
them. -/
def Recalls (media : String → Except Fault Double) (commands : List Command) (d : Desk ε) :
    Prop :=
  ∃ fingerprint report, Command.fingerprint commands = .ok fingerprint
    ∧ d.fingerprint = some fingerprint
    ∧ Timeline.follow media {} commands = .ok (d.store.timeline, report)
    ∧ report.cancelled = false

/-- What a desk remembers after commands were run, compared with before. -/
def Steps (media : String → Except Fault Double) (commands : List Command) (d d' : Desk ε) :
    Prop :=
  (d'.fingerprint = d.fingerprint ∧ d'.store.timeline = d.store.timeline)
    ∨ d'.fingerprint = none ∨ Recalls media commands d'

variable {media : String → Except Fault Double} {commands : List Command} {M : Manner ε}
  {d d' d'' : Desk ε}

theorem Steps.passes (h : Steps media commands d d') (h' : M.Passes d' d'') :
  Steps media commands d d''
  := by
  rw [Steps, Recalls, h'.rest]
  apply h

theorem steps_refl (d : Desk ε) :
  Steps media commands d d
  := Or.inl ⟨rfl, rfl⟩

end Memo

namespace Desk

/-! ### How evaluations end -/

/-- How an evaluation of a text ends that publishes a pass. -/
structure Evaluates (M : Manner ε) (media : String → Except Fault Double) (text : String)
    (d : Desk ε) (pass : Pass) (d' : Desk ε) : Prop where
  keeps : M.Keeps d d'
  steps : Memo.Steps media (Script.ofText text).commands d d'
  script : pass.script = Script.ofText text
  readable : ∃ lines, Scene.skipped (Script.ofText text).outcomes = .ok lines
  fingerprint : Command.fingerprint (Script.ofText text).commands = .ok pass.fingerprint
  /-- What is remembered, unless the run was given up. -/
  remembered : (∀ report, pass.report = some report → report.cancelled = false) →
    d'.fingerprint = some pass.fingerprint
  /-- What was run while the document did not change. -/
  undisturbed : d'.revision = d.revision → ∀ report, pass.report = some report →
    Timeline.follow media {} (Script.ofText text).commands
      = .ok (d'.store.timeline, report)

/-- How an evaluation of a text ends that fails. -/
structure Miscarries (M : Manner ε) (E : Fault → Prop) (media : String → Except Fault Double)
    (text : String) (d : Desk ε) (f : Fault) (d' : Desk ε) : Prop where
  keeps : M.Keeps d d'
  steps : Memo.Steps media (Script.ofText text).commands d d'
  cause : E f ∨ Scene.skipped (Script.ofText text).outcomes = .error f
    ∨ Command.fingerprint (Script.ofText text).commands = .error f
    ∨ (d'.revision = d.revision →
      Timeline.follow media {} (Script.ofText text).commands = .error f)

section

variable {M : Manner ε} {media : String → Except Fault Double} {text fingerprint : String}
  {pass : Pass} {report : Report} {d d₁ d₂ : Desk ε}

theorem Evaluates.published (h : Evaluates M media text d pass d₁)
    (h' : M.Passes { d₁ with last := some pass } d₂) :
  Evaluates M media text d pass d₂
  := by
  have hkeeps : M.Keeps d { d₁ with last := some pass } :=
    ⟨h.keeps.phase, h.keeps.poll, h.keeps.sound, h.keeps.rel⟩
  have hsteps : Memo.Steps media (Script.ofText text).commands d { d₁ with last := some pass } :=
    h.steps
  refine ⟨hkeeps.passes h', hsteps.passes h', h.script, h.readable, h.fingerprint, ?_, ?_⟩
  · intro hreport
    rw [h'.rest]
    apply h.remembered hreport
  · intro hrevision report hreport
    have hle₁ : d.revision ≤ d₁.revision := M.le h.keeps.rel
    have hle₂ : d₁.revision ≤ d₂.revision := M.le h'.rel
    rw [h'.store]
    apply h.undisturbed _ report hreport
    omega

/-- Commands whose fingerprint is the one remembered are not run again. -/
theorem Evaluates.unchanged (hkeeps : M.Keeps d d₁)
    (h : M.Passes d d₁)
    (hlines : ∃ lines, Scene.skipped (Script.ofText text).outcomes = .ok lines)
    (hfingerprint : Command.fingerprint (Script.ofText text).commands = .ok fingerprint)
    (hmatch : d.fingerprint = some fingerprint) :
  Evaluates M media text d ⟨Script.ofText text, fingerprint, none⟩ d₁
  := by
  refine ⟨hkeeps, (Memo.steps_refl d).passes h, rfl, hlines, hfingerprint, ?_, nofun⟩
  intro _
  rw [h.rest]
  apply hmatch

/-- What comes of commands that have been run. -/
theorem Evaluates.rebuilt (hkeeps : M.Keeps d d₁)
    (hkeeps' : M.Keeps d₁ d₂)
    (hlines : ∃ lines, Scene.skipped (Script.ofText text).outcomes = .ok lines)
    (hfingerprint : Command.fingerprint (Script.ofText text).commands = .ok fingerprint)
    (hremembered : d₂.fingerprint = if report.cancelled then none else some fingerprint)
    (hfollow : report.cancelled = false ∨ d₂.revision = d.revision →
      Timeline.follow media {} (Script.ofText text).commands
        = .ok (d₂.store.timeline, report)) :
  Evaluates M media text d ⟨Script.ofText text, fingerprint, some report⟩ d₂
  := by
  refine ⟨hkeeps.trans hkeeps', ?_, rfl, hlines, hfingerprint, ?_, ?_⟩
  · cases hcancelled : report.cancelled with
    | true =>
        rw [hcancelled] at hremembered
        exact Or.inr (Or.inl hremembered)
    | false =>
        rw [hcancelled] at hremembered
        exact Or.inr (Or.inr
          ⟨fingerprint, report, hfingerprint, hremembered, hfollow (Or.inl hcancelled), hcancelled⟩)
  · intro hreport
    rw [hreport report rfl] at hremembered
    apply hremembered
  · rintro hrevision _ ⟨⟩
    apply hfollow (Or.inr hrevision)

end

variable {M : Manner ε} {R P : Fault → Prop} {hR : ∀ cause, ¬ R (.script cause)}
  {media : String → Except Fault Double} {host : Surroundings ε}
  (hM : M.Binds R P hR media host) {d d' : Desk ε}

include hM

/-! ### Lines and listeners -/

theorem meets_log_busy (hd : d.Busy) (line : String) {E : Fault → Desk ε → Prop} :
  Meets (log host line) d (fun _ => M.Passes d) E
  := meets_log hM.conduct.unheard hd line

theorem meets_logAll (hd : d.Busy) (lines : List String) {E : Fault → Desk ε → Prop} :
  Meets (logAll host lines) d (fun _ => M.Passes d) E
  := by
  induction lines generalizing d with
  | nil =>
      rw [logAll, meets_pure]
      apply Manner.Passes.refl
  | cons line rest ih =>
      rw [logAll]
      apply Meets.bind_trans Manner.Passes.trans (fun _ h' => h') (meets_log_busy hM hd line)
      intro _ d' h'
      apply ih (h'.busy hd)

/-- Telling listeners of an evaluation. -/
theorem meets_publish (hd : d.Busy) (pass : Pass) (listeners : List Nat) :
  Meets (publish host pass listeners) d (fun _ => M.Passes d) (fun f d' => P f ∧ M.Passes d d')
  := by
  induction listeners generalizing d with
  | nil =>
      rw [publish, meets_pure]
      apply Manner.Passes.refl
  | cons listener rest ih =>
      rw [publish]
      apply Meets.bind_trans Manner.Passes.trans (fun h h' => ⟨h'.1, h.trans h'.2⟩)
        (hM.onPass d hd listener pass)
      intro _ d' h'
      apply ih (h'.busy hd)

/-- Telling listeners of a failed evaluation. -/
theorem meets_complain (hd : d.Busy) (message : String) (listeners : List Nat) :
  Meets (complain host message listeners) d (fun _ => M.Passes d)
    (fun f d' => P f ∧ M.Passes d d')
  := by
  induction listeners generalizing d with
  | nil =>
      rw [complain, meets_pure]
      apply Manner.Passes.refl
  | cons listener rest ih =>
      rw [complain]
      apply Meets.bind_trans Manner.Passes.trans (fun h h' => ⟨h'.1, h.trans h'.2⟩)
        (hM.onError d hd listener message)
      intro _ d' h'
      apply ih (h'.busy hd)

/-! ### Running the commands of a text -/

omit hM in
/-- The desk that a batch leaves, once its question has been taken back. -/
theorem keeps_of_polled {revision : Nat} {t : Timeline}
    (h : (M.conduct R hR).Reaches { d with poll := .changedSince revision } t d') :
  M.Keeps d { d' with poll := .never } ∧ d'.fingerprint = d.fingerprint
    ∧ (d'.revision = revision → pollAnswer d' = false)
  := by
  obtain ⟨hsound, -, hrest, hrel⟩ := h
  refine ⟨⟨?_, rfl, hsound, hrel⟩, ?_, ?_⟩
  · rw [hrest]
  · rw [hrest]
  · intro h
    rw [pollAnswer, hrest]
    simp [h]

omit hM in
/-- The desk once the store is cleared. -/
theorem keeps_of_cleared (hpoll : d.poll = .never)
    (h : (M.conduct R hR).Follows { d with fingerprint := none } d.store.cleared d') :
  M.Keeps d d' ∧ d'.fingerprint = none ∧ d'.store.timeline = {}
  := by
  obtain ⟨hrest, hrel⟩ := h
  have hstore : d'.store = d.store.cleared := by rw [hrest]
  refine ⟨⟨?_, ?_, ?_, hrel⟩, ?_, ?_⟩
  · rw [hrest]
  · rw [hrest, ← hpoll]
  · rw [hstore]
    apply Store.sound_cleared
  · rw [hrest]
  · rw [hstore]
    apply Store.timeline_cleared

/-- What a batch comes to that is given up once the document has changed. -/
theorem meets_execute (hd : d.Busy) (hs : d.store.Sound) (commands : List Command)
    {revision : Nat} (hrevision : revision ≤ d.revision) :
  Meets (execute host commands (.changedSince revision)) d
    (fun report d' => M.Keeps d d' ∧ d'.fingerprint = d.fingerprint
      ∧ (report.cancelled = false ∨ d'.revision = revision →
        d.store.timeline.follow media commands = .ok (d'.store.timeline, report)))
    (fun f d' => M.Keeps d d' ∧ d'.fingerprint = d.fingerprint
      ∧ (R f ∨ (d'.revision = revision → d.store.timeline.follow media commands = .error f)))
  := by
  have hd₁ : Desk.Busy { d with poll := .changedSince revision } :=
    ⟨hd.parsing, Or.inr ⟨revision, rfl, hrevision⟩⟩
  rw [execute, meets_bind, setPoll, meets_modify, setPoll, meets_finally]
  apply (meets_follow hM.conduct hM.answers commands hd₁ hs).mono
  · rintro report d' ⟨t, h, hfollow⟩
    obtain ⟨hkeeps, hfingerprint, hanswer⟩ := keeps_of_polled h
    refine ⟨hkeeps, hfingerprint, ?_⟩
    intro hend
    obtain rfl := h.timeline
    apply hfollow (hend.imp id hanswer)
  · rintro f d' ⟨t, h, hfollow⟩
    obtain ⟨hkeeps, hfingerprint, hanswer⟩ := keeps_of_polled h
    refine ⟨hkeeps, hfingerprint, hfollow.imp id ?_⟩
    intro hfault hend
    apply hfault (hanswer hend)

/-- Running commands on a cleared store.  The fingerprint is remembered unless the run was
given up. -/
theorem meets_rebuild (hd : d.Busy) (hpoll : d.poll = .never) (commands : List Command)
    (fingerprint : String) {revision : Nat} (hrevision : revision ≤ d.revision) :
  Meets (rebuild host commands fingerprint revision) d
    (fun report d' => M.Keeps d d'
      ∧ d'.fingerprint = (if report.cancelled then none else some fingerprint)
      ∧ (report.cancelled = false ∨ d'.revision = revision →
        Timeline.follow media {} commands = .ok (d'.store.timeline, report)))
    (fun f d' => M.Keeps d d' ∧ d'.fingerprint = none
      ∧ (R f ∨ (d'.revision = revision → Timeline.follow media {} commands = .error f)))
  := by
  have hd₀ : Desk.Busy { d with fingerprint := none } := ⟨hd.parsing, hd.poll⟩
  rw [rebuild, meets_bind, remember, meets_modify, meets_bind]
  apply (meets_clear hM.conduct.unheard hd₀ rfl).mono
  · intro _ d₁ h₁
    obtain ⟨hkeeps₁, hfingerprint₁, htimeline₁⟩ := keeps_of_cleared hpoll h₁.follows
    have hrevision₁ : revision ≤ d₁.revision := Nat.le_trans hrevision (M.le hkeeps₁.rel)
    rw [meets_bind]
    apply (meets_execute hM (hkeeps₁.busy hd.parsing) hkeeps₁.sound commands hrevision₁).mono
    · rintro report d₂ ⟨hkeeps₂, -, hfollow⟩
      rw [htimeline₁] at hfollow
      rw [meets_bind, remember, meets_modify, meets_bind, meets_get, meets_bind]
      have hkeeps := hkeeps₁.trans hkeeps₂
      have hd₂ := hkeeps.busy hd.parsing
      have hd₂' : Desk.Busy { d₂ with
          fingerprint := if report.cancelled then none else some fingerprint } :=
        ⟨hd₂.parsing, hd₂.poll⟩
      apply (meets_log_busy hM hd₂' _).imp
      intro _ d₃ h₃
      rw [meets_pure]
      have hkeeps' : M.Keeps d { d₂ with
          fingerprint := if report.cancelled then none else some fingerprint } :=
        ⟨hkeeps.phase, hkeeps.poll, hkeeps.sound, hkeeps.rel⟩
      refine ⟨hkeeps'.passes h₃, ?_, ?_⟩
      · rw [h₃.rest]
      · intro hend
        rw [h₃.store]
        apply hfollow (hend.imp id _)
        intro h
        have hle₂ : d₁.revision ≤ d₂.revision := M.le hkeeps₂.rel
        have hle₃ : d₂.revision ≤ d₃.revision := M.le h₃.rel
        omega
    · rintro f d₂ ⟨hkeeps₂, hfingerprint₂, hfollow⟩
      rw [htimeline₁] at hfollow
      exact ⟨hkeeps₁.trans hkeeps₂, hfingerprint₂.trans hfingerprint₁, hfollow⟩
  · rintro f d₁ ⟨hf, h₁⟩
    obtain ⟨hkeeps, hfingerprint, -⟩ := keeps_of_cleared hpoll h₁
    exact ⟨hkeeps, hfingerprint, Or.inl hf⟩

/-! ### Evaluating a text -/

variable {text : String} {pass : Pass} {d₁ : Desk ε}

/-- Publishing what an evaluation has found. -/
theorem meets_published (hd : d.phase = .parsing) (h : Evaluates M media text d pass d₁) :
  Meets (do
      modify fun d => { d with last := some pass }
      let d ← get
      publish host pass d.passListeners
      return pass)
    d₁ (Evaluates M media text d) (Miscarries M (fun f => R f ∨ P f) media text d)
  := by
  have hd₁ : Desk.Busy { d₁ with last := some pass } :=
    ⟨(h.keeps.busy hd).parsing, (h.keeps.busy hd).poll⟩
  rw [meets_bind, meets_modify, meets_bind, meets_get, meets_bind]
  apply (meets_publish hM hd₁ pass _).mono
  · intro _ d₂ h₂
    rw [meets_pure]
    apply h.published h₂
  · rintro f d₂ ⟨hf, h₂⟩
    have h' := h.published h₂
    exact ⟨h'.keeps, h'.steps, Or.inl (Or.inr hf)⟩

theorem meets_evaluate (hd : d.Busy) (hpoll : d.poll = .never) (hs : d.store.Sound)
    (text : String) :
  Meets (evaluate host text) d (Evaluates M media text d)
    (Miscarries M (fun f => R f ∨ P f) media text d)
  := by
  have hrefl : M.Keeps d d := ⟨rfl, hpoll, hs, M.refl _⟩
  rw [evaluate, meets_bind, meets_get, meets_bind]
  cases hskipped : Scene.skipped (Script.ofText text).outcomes with
  | error f =>
      rw [meets_ofExcept_error]
      exact ⟨hrefl, Memo.steps_refl d, Or.inr (Or.inl hskipped)⟩
  | ok lines =>
      rw [meets_ofExcept_ok, meets_bind]
      apply (meets_logAll hM hd lines).imp
      intro _ d₁ h₁
      have hd₁ : d₁.Busy := h₁.busy hd
      have hpoll₁ : d₁.poll = .never := (hrefl.passes h₁).poll
      rw [meets_bind]
      cases hfingerprint : Command.fingerprint (Script.ofText text).commands with
      | error f =>
          rw [meets_ofExcept_error]
          exact ⟨hrefl.passes h₁, (Memo.steps_refl d).passes h₁,
            Or.inr (Or.inr (Or.inl hfingerprint))⟩
      | ok fingerprint =>
          rw [meets_ofExcept_ok, meets_bind, meets_get]
          dsimp only
          have hkeeps₁ := hrefl.passes h₁
          split
          · rename_i hmatch
            rw [meets_bind]
            apply (meets_log_busy hM hd₁ _).imp
            intro _ d₂ h₂
            rw [meets_bind, meets_pure]
            apply meets_published hM hd.parsing
            apply Evaluates.unchanged (hkeeps₁.passes h₂) (h₁.trans h₂) ⟨lines, hskipped⟩
              hfingerprint
            rw [← hmatch, h₁.rest]
          · rw [meets_bind, meets_map]
            apply (meets_rebuild hM hd₁ hpoll₁ _ _ (M.le h₁.rel)).mono
            · rintro report d₂ ⟨hkeeps₂, hremembered, hfollow⟩
              apply meets_published hM hd.parsing
              apply Evaluates.rebuilt hkeeps₁ hkeeps₂ ⟨lines, hskipped⟩ hfingerprint hremembered
                hfollow
            · rintro f d₂ ⟨hkeeps₂, hremembered, hfault⟩
              refine ⟨hkeeps₁.trans hkeeps₂, Or.inr (Or.inl hremembered), ?_⟩
              rcases hfault with hf | hfault
              · exact Or.inl (Or.inl hf)
              · exact Or.inr (Or.inr (Or.inr hfault))

end Desk

end Montage
