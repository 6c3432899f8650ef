import Montage.Proofs.Watch.Lossless

/-!
# The text pushed last

Once the quiet time of the last push is over and no text is waiting, the store shows what the
text that was pushed last comes to from scratch.  A watch that is left alone arrives there by
itself: the clock runs, the last timer expires, and the worker takes up what waits.
-/

namespace Montage.Watch

variable {σ : Type} {a : Audience σ} {media : String → Except Fault Double}
  {d d' : Desk (Watch σ)}

/-- A watch with a given quiet time in which nothing has happened yet, at a desk that is free
and remembers nothing. -/
structure Starts (quiet : Int) (d : Desk (Watch σ)) : Prop where
  free : d.Free
  fingerprint : d.fingerprint = none
  revision : d.revision = 0
  watch : d.surroundings = { coalescer := { quiet }, own := d.surroundings.own }

theorem Starts.kept {quiet : Int} (h : Starts quiet d) :
  Kept media d
  := by
  obtain ⟨hfree, hfingerprint, hrevision, hwatch⟩ := h
  constructor
  · apply hfree
  · rw [Desk.around, Counted, Orderly, hrevision, hwatch]
    exact ⟨Coalescer.orderly_start quiet, rfl⟩
  · rw [hwatch]
    apply Nat.le_refl
  · rw [hwatch]
    rfl
  · left
    apply hfingerprint
  · intro _ _ text htext
    rw [hwatch] at htext
    cases htext

/-! ### A watch left alone -/

/-- The same texts were pushed, and the coalescer is the same. -/
def SamePushes (d d' : Desk (Watch σ)) : Prop :=
  d'.surroundings.coalescer = d.surroundings.coalescer
    ∧ d'.surroundings.pushed = d.surroundings.pushed

/-- If nothing happens during an evaluation then one text less is waiting. -/
theorem Kept.served_alone (h : Kept media d) (hmedia : Lookup.Answering media) :
  Desk.Meets (serve a media []) d (fun _ d' => Kept media d' ∧ SamePushes d d'
    ∧ d'.surroundings.waiting = d.surroundings.waiting.tail) (fun _ _ => False)
  := by
  have hrest : Desk.Meets (serve a media []) d (fun _ d' => SamePushes d d'
      ∧ d'.surroundings.waiting = d.surroundings.waiting.tail) (fun _ _ => False) := by
    rw [serve, Desk.meets_bind, Desk.meets_get]
    split
    · rename_i hwaiting
      rw [Desk.meets_pure, hwaiting]
      exact ⟨⟨rfl, rfl⟩, rfl⟩
    · rename_i text rest hwaiting
      have hfree : Desk.Free { d with surroundings := { d.surroundings with
          taken := d.surroundings.taken + 1, plan := [] } } :=
        ⟨h.free.phase, h.free.poll, h.free.sound⟩
      have hcalm : ∀ result d₂, (manner σ).Keeps { d with surroundings := { d.surroundings with
            taken := d.surroundings.taken + 1, plan := [] } } d₂ →
          Desk.Meets (change fun w => { w with
            evaluated := w.evaluated ++ [(text, result)], plan := [] }) d₂
            (fun _ d' => SamePushes d d'
              ∧ d'.surroundings.waiting = d.surroundings.waiting.tail) (fun _ _ => False) := by
        intro result d₂ hkeeps
        obtain ⟨-, hsame⟩ := hkeeps.rel.2 rfl
        have hwatch : d₂.surroundings = { d.surroundings with
            taken := d.surroundings.taken + 1, plan := [], own := d₂.surroundings.own } := hsame
        rw [meets_change, SamePushes, hwatch, waiting, waiting, List.tail_drop]
        exact ⟨⟨rfl, rfl⟩, rfl⟩
      rw [Desk.meets_bind, meets_change, Desk.meets_bind]
      apply (Desk.meets_submit_free binds_surroundings hfree text).mono
      · rintro result d₂ (⟨pass, -, hpass⟩ | ⟨-, f, hfailed⟩)
        · apply hcalm result d₂ hpass.keeps
        · apply hcalm result d₂ hfailed.keeps
      · rintro f' d₂ ⟨hfalse, -⟩
        apply hfalse
  apply ((h.served a hmedia []).and hrest).mono
  · rintro _ d' ⟨hkept, hsame⟩
    exact ⟨hkept, hsame⟩
  · rintro f d' ⟨hfalse, -⟩
    apply hfalse

theorem SamePushes.trans {d'' : Desk (Watch σ)} (h : SamePushes d d') (h' : SamePushes d' d'') :
  SamePushes d d''
  := ⟨h'.1.trans h.1, h'.2.trans h.2⟩

/-- The worker takes up all that waits. -/
theorem Kept.exists_idle (h : Kept media d) (hmedia : Lookup.Answering media) :
  ∃ n, SamePushes d (Watch.after a media (List.replicate n (.serve [])) d)
    ∧ (Watch.after a media (List.replicate n (.serve [])) d).surroundings.waiting = []
  := by
  generalize hwaiting : d.surroundings.waiting = texts
  induction texts generalizing d with
  | nil => exact ⟨0, ⟨rfl, rfl⟩, hwaiting⟩
  | cons text rest ih =>
      obtain ⟨hkept, hsame, hrest⟩ := (h.served_alone (a := a) hmedia).after_of_never
      rw [hwaiting, List.tail_cons] at hrest
      obtain ⟨n, hsame', hidle⟩ := ih hkept hrest
      exact ⟨n + 1, hsame.trans hsame', hidle⟩

/-- When the clock has run for the quiet time the last push is settled. -/
theorem Kept.settled_advance (h : Kept media d) {ms : Nat}
    (hms : d.surroundings.coalescer.quiet ≤ ms) :
  Desk.Meets (Nudge.perform (.advance ms)) d (fun _ d' => d'.surroundings.coalescer.Settled
    ∧ d'.surroundings.pushed = d.surroundings.pushed) (fun _ _ => False)
  := by
  rw [Nudge.perform, Desk.meets_bind, meets_read]
  apply (meets_advance ms).imp
  rintro _ d' ⟨w, rfl, hticks⟩
  obtain ⟨hticks, hnow, hnone⟩ := hticks h.counted.1
  refine ⟨⟨?_, hnone⟩, ?_⟩
  · intro t ht
    have hdue : some t.due
        = (d.surroundings.coalescer.timers.map (·.due)).getLast? := by
      rw [← hticks.dues, List.getLast?_map, ht]
      rfl
    rw [List.getLast?_map] at hdue
    obtain ⟨last, hlast, heq⟩ := Option.map_eq_some_iff.mp hdue.symm
    have hle : last.due ≤ d.surroundings.coalescer.now + d.surroundings.coalescer.quiet :=
      Coalescer.Orderly.due_le h.counted.1 hlast
    dsimp only
    rw [hnow, ← heq]
    omega
  · rw [hticks.rest]

/-! ### The text pushed last -/

/-- A text that was evaluated collides with given commands. -/
def Collide (w : Watch σ) (cs : List Command) : Prop :=
  ∃ text ∈ w.evaluated.map Prod.fst, Command.Collide cs (Script.ofText text).commands

/-- What a desk shows that remembers a text. -/
theorem UpToDate.submittedFromScratch {text : String} (h : UpToDate text d) (hd : Kept media d)
    (hlength : text.length < 2 ^ 63) :
  ∃ pass, d.surroundings.evaluated.getLast? = some (text, some pass)
    ∧ (∀ report, pass.report = some report → report.cancelled = false)
    ∧ (Timeline.SubmittedFromScratch media text pass.script pass.fingerprint d.store.timeline
      ∨ d.surroundings.Collide (Script.ofText text).commands)
  := by
  obtain ⟨pass, hlast, hscript, hfp, hreport, hremembered⟩ := h
  refine ⟨pass, hlast, hreport, ?_⟩
  rcases hd.coherent with hnone | ⟨text', htext', hrecalls⟩
  · cases hremembered.symm.trans hnone
  · have hlines := Command.writable_ofText hlength
    rcases hrecalls.follow hremembered hfp (Command.readable_ofText text')
      (Command.readable_ofText text) hlines with ⟨report, hfollow, hcomplete⟩ | hcollide
    · left
      rw [hscript]
      apply Timeline.submittedFromScratch_of_follow hfollow hcomplete
        (Scene.skipped_ofText hlength) hfp
    · right
      exact ⟨text', htext', hcollide⟩

/-- No text that was pushed is lost.  Once the quiet time of the last push is over and no text
is waiting, the last evaluation was of the text pushed last, it was not given up, and the
store shows what this text comes to from scratch, however many evaluations were given up
before; the one exception is a text with the same fingerprint as another one.  And any watch
gets there: when the clock has run for the quiet time, and the worker has taken up what waits,
then the same text is the last one pushed. -/
theorem lastPush_evaluated (hmedia : Lookup.Answering media) {quiet : Int}
    (hd : Starts quiet d) (steps : List Step) (h : d' = Watch.after a media steps d) :
  (∀ text, d'.surroundings.pushed.getLast? = some text → text.length < 2 ^ 63 →
    d'.surroundings.coalescer.Settled → d'.surroundings.waiting = [] →
    ∃ pass, d'.surroundings.evaluated.getLast? = some (text, some pass)
      ∧ (∀ report, pass.report = some report → report.cancelled = false)
      ∧ (Timeline.SubmittedFromScratch media text pass.script pass.fingerprint d'.store.timeline
        ∨ d'.surroundings.Collide (Script.ofText text).commands))
    ∧ ∀ ms : Nat, d'.surroundings.coalescer.quiet ≤ ms →
      ∃ n, ∃ d'', d'' = Watch.after a media
          (steps ++ .nudge (.advance ms) :: List.replicate n (.serve [])) d
        ∧ d''.surroundings.coalescer.Settled ∧ d''.surroundings.waiting = []
        ∧ d''.surroundings.pushed = d'.surroundings.pushed
  := by
  have hkept : Kept media d' := h ▸ hd.kept.after a hmedia steps
  constructor
  · intro text htext hlength hsettled hwaiting
    have hpending := hkept.counted.1.pending_of_settled hsettled
    apply (hkept.upToDate hwaiting hpending text htext hlength).submittedFromScratch hkept hlength
  · intro ms hms
    have hadvanced := (hkept.settled_advance hms).after_of_never
    have hkept' := hkept.act a hmedia (.nudge (.advance ms))
    obtain ⟨n, hsame, hidle⟩ := hkept'.exists_idle (a := a) hmedia
    refine ⟨n, _, rfl, ?_⟩
    have hafter : Watch.after a media
        (steps ++ .nudge (.advance ms) :: List.replicate n (.serve [])) d
        = Watch.after a media (List.replicate n (.serve []))
          (Desk.after (Step.act a media (.nudge (.advance ms))) d') := by
      rw [h, Watch.after, List.foldl_append, List.foldl_cons]
      rfl
    rw [hafter, hsame.1, hsame.2]
    exact ⟨hadvanced.1, hidle, hadvanced.2⟩

/-- Counts a call. -/
def count : Run (Watch Nat) Unit :=
  modify fun d => { d with surroundings := { d.surroundings with own := d.surroundings.own + 1 } }

theorem aloof_count :
  Aloof count
  := by
  intro d
  rw [count, Desk.meets_modify, Aside]

/-- Those who count how often they are called. -/
def counting : Audience Nat where
  log _ n := n
  onEvent _ _ := count
  onPass _ _ := count
  onError _ _ := count
  onLookup _ := count
  aloof_onEvent _ _ := aloof_count
  aloof_onPass _ _ := aloof_count
  aloof_onError _ _ := aloof_count
  aloof_onLookup _ := aloof_count

/-- A desk with one listener of each kind, watched with a quiet time of half a second. -/
def halfSecond : Desk (Watch Nat) where
  listeners := [0]
  passListeners := [0]
  errorListeners := [0]
  surroundings := { coalescer := { quiet := 500 }, own := 0 }

/-- A script that loads a file. -/
def oneFile : String :=
  "LOAD b.mp4"

/-- A text is pushed, and while its file is looked up another one. -/
def interruptedSteps : List Step :=
  [.nudge (.push Desk.oneCut), .nudge (.advance 500), .serve [[.advance 100, .push oneFile]],
    .nudge (.advance 400), .nudge (.expire 0), .nudge (.advance 100), .serve []]

/-- The desk in the end. -/
def interruptedEnd : Desk (Watch Nat) :=
  after counting Desk.everyTenSeconds interruptedSteps halfSecond

theorem answering_everyTenSeconds :
  Lookup.Answering Desk.everyTenSeconds
  := by
  intro path f h
  cases h

theorem starts_halfSecond :
  Starts 500 halfSecond
  := ⟨⟨rfl, rfl, Store.sound_of_empty rfl⟩, rfl, rfl, rfl⟩

theorem settled_interruptedEnd :
  interruptedEnd.surroundings.coalescer.Settled
  := by
  have hlast : interruptedEnd.surroundings.coalescer.timers.getLast?
      = some { due := 1100, live := false } := by decide +kernel
  have hnow : interruptedEnd.surroundings.coalescer.now = 1100 := by decide +kernel
  constructor
  · intro t ht
    obtain rfl := Option.some.inj (hlast.symm.trans ht)
    rw [hnow]
  · decide +kernel

theorem not_collide_interruptedEnd :
  ¬ interruptedEnd.surroundings.Collide (Script.ofText oneFile).commands
  := by
  have htexts : interruptedEnd.surroundings.evaluated.map Prod.fst = [Desk.oneCut, oneFile] := by
    decide +kernel
  have hdiffer : (Command.fingerprint (Script.ofText oneFile).commands).toOption
      ≠ (Command.fingerprint (Script.ofText Desk.oneCut).commands).toOption := by
    decide +kernel
  rintro ⟨text, htext, hcollide⟩
  rw [htexts] at htext
  rcases List.mem_pair.mp htext with rfl | rfl
  · obtain ⟨s, s', hs, hs', -, hdigest⟩ := hcollide
    apply hdiffer
    rw [Command.fingerprint, Command.fingerprint, hs, hs']
    exact congrArg some hdigest
  · apply Command.not_collide_self _ hcollide

theorem lastPush_evaluated_interrupted :
  Lookup.Answering Desk.everyTenSeconds ∧ Starts 500 halfSecond
    ∧ interruptedEnd.surroundings.coalescer.Settled
    ∧ interruptedEnd.surroundings.waiting = []
    ∧ interruptedEnd.surroundings.evaluated.map (fun p => p.2.map (·.report.map (·.cancelled)))
      = [some (some true), some (some false)]
    ∧ ∃ pass, interruptedEnd.surroundings.evaluated.getLast? = some (oneFile, some pass)
      ∧ Timeline.SubmittedFromScratch Desk.everyTenSeconds oneFile pass.script pass.fingerprint
        interruptedEnd.store.timeline
  := by
  have hwaiting : interruptedEnd.surroundings.waiting = [] := by decide +kernel
  have hpushed : interruptedEnd.surroundings.pushed.getLast? = some oneFile := by decide +kernel
  refine ⟨answering_everyTenSeconds, starts_halfSecond, settled_interruptedEnd, hwaiting,
    by decide +kernel, ?_⟩
  have hend : interruptedEnd
      = Watch.after counting Desk.everyTenSeconds interruptedSteps halfSecond := by
    rw [interruptedEnd]
  obtain ⟨hevaluated, -⟩ := lastPush_evaluated answering_everyTenSeconds starts_halfSecond
    interruptedSteps hend
  obtain ⟨pass, hlast, -, hscratch⟩ := hevaluated oneFile hpushed (by decide +kernel)
    settled_interruptedEnd hwaiting
  exact ⟨pass, hlast, hscratch.resolve_right not_collide_interruptedEnd⟩

end Montage.Watch
