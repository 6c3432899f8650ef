import Montage.Proofs.Desk.Reentrant
import Montage.Proofs.Desk.Scratch

/-!
# Incremental evaluation

The owner of a desk submits texts, cuts, and notes changes of the document, one move after
the other, and the surroundings may reenter the desk during each of them.  A desk that
remembers a fingerprint then shows what every list of commands of that fingerprint comes to
from scratch, and a text that is evaluated comes to the same as it does from scratch.
-/

namespace Montage

variable {ε : Type}

/-- A call at a desk by its owner, among the surroundings at the time. -/
inductive Move (ε : Type) where
  | submit (host : Surroundings ε) (text : String)
  | cut (host : Surroundings ε) (time : Double)
  | note

namespace Move

/-- The desk that a move leaves, whether it succeeds or fails. -/
def left (d : Desk ε) : Move ε → Desk ε
  | submit host text => Desk.after (Desk.submit host text) d
  | cut host time => Desk.after (Desk.insertCut host time) d
  | note => Desk.after Desk.noteChange d

/-- The text that a move submits. -/
def text? : Move ε → Option String
  | submit _ text => some text
  | cut .. => none
  | note => none

/-- The surroundings of a move reenter the desk at most.  The listeners to the store raise
nothing during a cut, and no failures of commands while a text is evaluated. -/
def Fair (media : String → Except Fault Double) : Move ε → Prop
  | submit host _ => host.Reenters media ∧ ∀ listener event,
    Desk.RaisesOnly (host.onEvent listener event) fun f => ∀ cause, f ≠ .script cause
  | cut host _ => host.Reenters media ∧ ∀ listener event,
    Desk.RaisesOnly (host.onEvent listener event) fun _ => False
  | note => True

end Move

namespace Desk

/-- A desk where nothing has happened yet. -/
structure Fresh (d : Desk ε) : Prop where
  store : d.store = {}
  phase : d.phase = .idle
  poll : d.poll = .never
  fingerprint : d.fingerprint = none

/-- The desk that a sequence of moves leaves. -/
def movedBy (moves : List (Move ε)) (d : Desk ε) : Desk ε :=
  moves.foldl Move.left d

end Desk

/-! ### What is remembered -/

/-- A desk remembers nothing, or the fingerprint of one of given texts and the store that
follows from it. -/
def Memo.Coherent (media : String → Except Fault Double) (texts : List String) (d : Desk ε) :
    Prop :=
  d.fingerprint = none
    ∨ ∃ text ∈ texts, Memo.Recalls media (Script.ofText text).commands d

namespace Memo

variable {media : String → Except Fault Double} {texts : List String} {text : String}
  {M : Manner ε} {d d' : Desk ε}

theorem Coherent.steps (h : Coherent media texts d)
    (hsteps : Steps media (Script.ofText text).commands d d') :
  Coherent media (texts ++ [text]) d'
  := by
  rcases hsteps with ⟨hfingerprint, htimeline⟩ | hnone | hrecalls
  · rw [Coherent] at h ⊢
    simp only [Recalls] at h ⊢
    rw [hfingerprint, htimeline]
    rcases h with hnone | ⟨text', hmem, h⟩
    · left
      apply hnone
    · right
      exact ⟨text', List.mem_append_left [text] hmem, h⟩
  · left
    apply hnone
  · right
    exact ⟨text, List.mem_append_right texts List.mem_cons_self, hrecalls⟩

theorem Coherent.kept (h : Coherent media texts d) (hfingerprint : d'.fingerprint = d.fingerprint)
    (htimeline : d'.store.timeline = d.store.timeline) :
  Coherent media texts d'
  := by
  rw [Coherent] at h ⊢
  simp only [Recalls] at h ⊢
  rw [hfingerprint, htimeline]
  apply h

end Memo

/-- A move leaves a desk free and what it remembers coherent. -/
theorem Move.coherent {media : String → Except Fault Double} {texts : List String} {d : Desk ε}
    {m : Move ε} (hm : m.Fair media) (hd : d.Free) (h : Memo.Coherent media texts d) :
  (m.left d).Free ∧ Memo.Coherent media (texts ++ m.text?.toList) (m.left d)
  := by
  cases m with
  | submit host text =>
      have hM := hm.1.binds (fun cause hf => hf cause rfl) hm.2
      apply Desk.Meets.after (P := fun d' => d'.Free ∧ Memo.Coherent media (texts ++ [text]) d')
      apply (Desk.meets_submit_free hM hd text).mono
      · rintro result d' (⟨pass, -, h'⟩ | ⟨-, f, h'⟩)
        · exact ⟨h'.keeps.free hd, h.steps h'.steps⟩
        · exact ⟨h'.keeps.free hd, h.steps h'.steps⟩
      · rintro f' d' ⟨-, f, h'⟩
        exact ⟨h'.keeps.free hd, h.steps h'.steps⟩
  | cut host time =>
      have hM := hm.1.binds (fun _ hf => hf) hm.2
      simp only [text?, Option.toList_none, List.append_nil]
      apply Desk.Meets.after (P := fun d' => d'.Free ∧ Memo.Coherent media texts d')
      apply (Desk.meets_insertCut_free hM.conduct hd time).mono
      · rintro result d' ⟨hkeeps, hnone | ⟨hfingerprint, htimeline⟩⟩
        · exact ⟨hkeeps.free hd, Or.inl hnone⟩
        · exact ⟨hkeeps.free hd, h.kept hfingerprint htimeline⟩
      · rintro f d' ⟨hkeeps, hfingerprint, htimeline⟩
        exact ⟨hkeeps.free hd, h.kept hfingerprint htimeline⟩
  | note =>
      simp only [text?, Option.toList_none, List.append_nil]
      exact ⟨⟨hd.phase, hd.poll, hd.sound⟩, h⟩

/-- A sequence of moves leaves a desk free and what it remembers coherent. -/
theorem Desk.coherent_movedBy {media : String → Except Fault Double} {texts : List String}
    {d : Desk ε} {moves : List (Move ε)} (hmoves : ∀ m ∈ moves, m.Fair media) (hd : d.Free)
    (h : Memo.Coherent media texts d) :
  (movedBy moves d).Free
    ∧ Memo.Coherent media (texts ++ moves.filterMap Move.text?) (movedBy moves d)
  := by
  induction moves generalizing d texts with
  | nil =>
      rw [List.filterMap_nil, List.append_nil]
      exact ⟨hd, h⟩
  | cons m rest ih =>
      obtain ⟨hd', h'⟩ := Move.coherent (hmoves m List.mem_cons_self) hd h
      have hrest := ih (fun m' hm' => hmoves m' (List.mem_cons_of_mem m hm')) hd' h'
      have htexts : texts ++ (m :: rest).filterMap Move.text?
          = texts ++ m.text?.toList ++ rest.filterMap Move.text? := by
        rw [List.append_assoc, List.filterMap_cons]
        cases m.text? <;> rfl
      rw [htexts]
      apply hrest

/-- What has been submitted in a sequence of moves collides with given commands. -/
def Move.Collide (moves : List (Move ε)) (cs : List Command) : Prop :=
  ∃ text ∈ moves.filterMap Move.text?, Command.Collide cs (Script.ofText text).commands

/-- Incremental evaluation is evaluation from scratch.  After any moves, if a fingerprint is
remembered, then the store shows what any commands that were read and have that fingerprint
come to from scratch; and a text whose evaluation publishes a pass, and was not given up,
comes to the same from scratch.  The exception are commands that collide with those of a
text submitted before. -/
theorem Desk.incremental_eq_fromScratch {media : String → Except Fault Double} {d : Desk ε}
    (hd : d.Fresh) {moves : List (Move ε)} (hmoves : ∀ m ∈ moves, m.Fair media) :
  (∀ fp body offset, (movedBy moves d).fingerprint = some fp →
      Command.fingerprint (Command.ofBody body offset) = .ok fp →
      Command.Writable (Command.ofBody body offset) →
      Timeline.FromScratch media (Command.ofBody body offset) (movedBy moves d).store.timeline
        ∨ Move.Collide moves (Command.ofBody body offset))
    ∧ ∀ host text pass d', (Move.submit host text).Fair media → text.length < 2 ^ 63 →
      Desk.submit host text (movedBy moves d) = .ok (some pass) d' →
      (∀ report, pass.report = some report → report.cancelled = false) →
      Timeline.SubmittedFromScratch media text pass.script pass.fingerprint d'.store.timeline
        ∨ Move.Collide moves (Script.ofText text).commands
  := by
  have hfree : d.Free := ⟨hd.phase, hd.poll, hd.store ▸ Store.sound_of_empty rfl⟩
  have hcoherent : Memo.Coherent media [] d := Or.inl hd.fingerprint
  obtain ⟨hfree', hcoherent'⟩ := coherent_movedBy hmoves hfree hcoherent
  rw [List.nil_append] at hcoherent'
  constructor
  · intro fp body offset hfp hbody hlines
    rcases hcoherent' with hnone | ⟨text, htext, hrecalls⟩
    · rw [hnone] at hfp
      cases hfp
    · rcases hrecalls.follow hfp hbody (Command.readable_ofText text)
        (Command.readable_ofBody body offset) hlines with ⟨report, hfollow, hreport⟩ | hcollide
      · left
        apply Timeline.fromScratch_of_follow hfollow hreport
      · right
        exact ⟨text, htext, hcollide⟩
  · intro host text pass d' hm hlength hsubmit hreport
    have hM := hm.1.binds (fun cause hf => hf cause rfl) hm.2
    have hmeets := (meets_of_ok hsubmit).mp (meets_submit_free hM hfree' text)
    rcases hmeets with ⟨pass', hpass, h'⟩ | ⟨hnone, -⟩
    · obtain rfl := Option.some.inj hpass
      have hremembered := h'.remembered hreport
      rcases hcoherent'.steps h'.steps with hnone | ⟨text', htext', hrecalls⟩
      · rw [hremembered] at hnone
        cases hnone
      · rcases hrecalls.follow hremembered h'.fingerprint (Command.readable_ofText text')
          (Command.readable_ofText text) (Command.writable_ofText hlength) with
          ⟨report, hfollow, hreport'⟩ | hcollide
        · left
          rw [h'.script]
          apply Timeline.submittedFromScratch_of_follow hfollow hreport' h'.readable h'.fingerprint
        · rcases List.mem_append.mp htext' with hmem | hmem
          · right
            exact ⟨text', hmem, hcollide⟩
          · obtain rfl := List.mem_singleton.mp hmem
            apply (Command.not_collide_self _ hcollide).elim
    · cases hnone

namespace Desk

/-! ### One file -/

/-- Every file lasts ten seconds. -/
def everyTenSeconds : String → Except Fault Double :=
  fun _ => .ok (.ofInt 10)

/-- A script that loads a file and cuts it. -/
def oneCut : String :=
  "LOAD a.mp4\nCUT 00:00:05.000"

/-- Surroundings in which listeners submit a text, a hook cuts, and whoever learns of an
evaluation fails. -/
def restless : Surroundings Unit where
  log _ s := s
  onEvent _ _ := discard (submit (.alone everyTenSeconds) "")
  onPass _ _ := throw .closed
  onError _ _ := noteChange
  lookup path := do
    discard (insertCut (.alone everyTenSeconds) .zero)
    ofExcept (everyTenSeconds path)

theorem raisesOnly_restless (R : Fault → Prop) (listener : Nat) (event : Event) :
  RaisesOnly (restless.onEvent listener event) R
  := by
  apply raisesOnly_discard
  intro d hd
  rw [meets_submit_parsing _ hd.parsing]
  trivial

theorem restless_reenters :
  restless.Reenters everyTenSeconds
  := by
  constructor
  · intro listener event
    apply Reentrant.bind (Reentrant.submit _ _)
    intro _
    apply Reentrant.pure
  · intro listener pass
    apply Reentrant.throw
  · intro listener message
    apply Reentrant.noteChange
  · intro path
    refine ⟨discard (insertCut (.alone everyTenSeconds) .zero), ?_, ?_, rfl⟩
    · apply Reentrant.bind (Reentrant.insertCut _ _)
      intro _
      apply Reentrant.pure
    · apply raisesOnly_discard
      intro d hd
      rw [meets_insertCut_parsing _ hd.parsing]
      trivial

/-- A script submitted, a cut that makes the desk forget it, and the script again. -/
def restlessMoves : List (Move Unit) :=
  [.submit restless oneCut, .cut restless (.ofInt 2), .note, .submit restless oneCut]

/-- A desk that all sorts of listeners follow. -/
def followed : Desk Unit where
  listeners := [0]
  passListeners := [0]
  errorListeners := [0]
  surroundings := ()

theorem not_collide_restless :
  ¬ Move.Collide restlessMoves (Script.ofText oneCut).commands
  := by
  rintro ⟨text, htext, hcollide⟩
  have hsame : text = oneCut := by
    simpa [restlessMoves, Move.text?, eq_comm] using htext
  rw [hsame] at hcollide
  apply Command.not_collide_self _ hcollide

theorem fair_restlessMoves :
  ∀ m ∈ restlessMoves, m.Fair everyTenSeconds
  := by
  intro m hm
  simp only [restlessMoves, List.mem_cons, List.not_mem_nil, or_false] at hm
  rcases hm with rfl | rfl | rfl | rfl
  · exact ⟨restless_reenters, raisesOnly_restless _⟩
  · exact ⟨restless_reenters, raisesOnly_restless _⟩
  · trivial
  · exact ⟨restless_reenters, raisesOnly_restless _⟩

theorem incremental_eq_fromScratch_restless :
  followed.Fresh ∧ (∀ m ∈ restlessMoves, m.Fair everyTenSeconds)
    ∧ (movedBy restlessMoves followed).fingerprint.isSome = true
    ∧ Timeline.FromScratch everyTenSeconds (Script.ofText oneCut).commands
      (movedBy restlessMoves followed).store.timeline
    ∧ ∃ pass d', submit (.alone everyTenSeconds) oneCut (movedBy restlessMoves followed)
        = .ok (some pass) d'
      ∧ Timeline.SubmittedFromScratch everyTenSeconds oneCut pass.script pass.fingerprint
        d'.store.timeline
  := by
  have hfresh : followed.Fresh := ⟨rfl, rfl, rfl, rfl⟩
  have hlength : oneCut.length < 2 ^ 63 := by decide +kernel
  have hlines := Command.writable_ofText hlength
  have hremembered : (movedBy restlessMoves followed).fingerprint.isSome = true := by
    decide +kernel
  have hsame : (movedBy restlessMoves followed).fingerprint
      = (Command.fingerprint (Script.ofText oneCut).commands).toOption := by
    decide +kernel
  have hskipped : (published? (.alone everyTenSeconds) oneCut
      (movedBy restlessMoves followed)).map (·.report.isNone) = some true := by
    decide +kernel
  obtain ⟨hscratch, hsubmitted⟩ := incremental_eq_fromScratch hfresh fair_restlessMoves
  refine ⟨hfresh, fair_restlessMoves, hremembered, ?_, ?_⟩
  · cases hfp : Command.fingerprint (Script.ofText oneCut).commands with
    | error f =>
        rw [hsame, hfp] at hremembered
        cases hremembered
    | ok fp =>
        rw [hfp] at hsame
        have hno := not_collide_restless
        rw [Command.commands_ofText] at hfp hlines hno ⊢
        apply (hscratch fp _ _ hsame hfp hlines).resolve_right hno
  · obtain ⟨pass, hpass, hnone⟩ := Option.map_eq_some_iff.mp hskipped
    obtain ⟨d', hsubmit⟩ := of_published? hpass
    have hreport : ∀ report, pass.report = some report → report.cancelled = false := by
      intro report h
      rw [h] at hnone
      cases hnone
    refine ⟨pass, d', hsubmit, ?_⟩
    apply (hsubmitted _ oneCut pass d'
      ⟨Surroundings.reenters_alone _, Surroundings.raisesOnly_alone _⟩ hlength hsubmit
      hreport).resolve_right not_collide_restless

/-- A listener that fails as a command would when it learns that a segment is removed. -/
def interrupted : Surroundings Unit :=
  { Surroundings.alone everyTenSeconds with
    onEvent := fun _ event =>
      if event.kind = .removed then throw (.script (.reported .unknown "interrupted"))
      else pure () }

/-- What a listener to the store raises is taken for the failure of a command if it is one.
The cut of the script is then left half done, and the fingerprint of the script is remembered
all the same. -/
theorem interrupted_ne_fromScratch :
  interrupted.Reenters everyTenSeconds
    ∧ ∃ fp, (movedBy [.submit interrupted oneCut] followed).fingerprint = some fp
      ∧ Command.fingerprint (Script.ofText oneCut).commands = .ok fp
      ∧ ¬ Timeline.FromScratch everyTenSeconds (Script.ofText oneCut).commands
        (movedBy [.submit interrupted oneCut] followed).store.timeline
  := by
  have hremembered : (movedBy [.submit interrupted oneCut] followed).fingerprint.isSome = true := by
    decide +kernel
  have hsame : (movedBy [.submit interrupted oneCut] followed).fingerprint
      = (Command.fingerprint (Script.ofText oneCut).commands).toOption := by
    decide +kernel
  constructor
  · obtain ⟨-, hpass, herror, hlookup⟩ := Surroundings.reenters_alone everyTenSeconds
    refine ⟨?_, hpass, herror, hlookup⟩
    intro listener event
    rw [interrupted]
    dsimp only
    split
    · apply Reentrant.throw
    · apply Reentrant.pure
  · cases hfp : Command.fingerprint (Script.ofText oneCut).commands with
    | error f =>
        rw [hsame, hfp] at hremembered
        cases hremembered
    | ok fp =>
        rw [hfp] at hsame
        refine ⟨fp, hsame, rfl, ?_⟩
        intro h
        rw [Timeline.FromScratch] at h
        have hafter := Meets.after (P := fun d => d.store.timeline
          = (movedBy [.submit interrupted oneCut] followed).store.timeline)
          (h.mono (fun _ _ h' => h'.2) fun _ _ h' => h'.elim)
        apply absurd hafter
        decide +kernel

end Desk

end Montage
