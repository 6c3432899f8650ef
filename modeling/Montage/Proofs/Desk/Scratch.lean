import Montage.Proofs.Command.Canonical
import Montage.Proofs.Command.Writable
import Montage.Proofs.Desk.Batch
import Montage.Proofs.Desk.Memo

/-!
# From scratch

With nobody around, a batch comes to what `Timeline.follow` says, and so does the evaluation
of a text at a desk where nothing has happened yet.  What a desk remembers is therefore what
every list of commands of the same fingerprint comes to from scratch, as long as the canonical
texts of the commands do not collide.
-/

namespace Montage

/-! ### Nobody around -/

/-- The conduct of those who do nothing, at desks where no batch is given up. -/
def Conduct.still (ε : Type) : Conduct ε where
  Holds d := d.poll = .never
  Allows d d' := d' = d
  Raises _ := False
  refl _ := rfl
  trans h h' := h'.trans h
  store h := by rw [h]
  withStore h s := by rw [h]
  holds hd h := by rw [h, hd]
  holds_withStore h _ := h
  asked {d} h := by
    unfold Desk.asked
    rw [h]
  not_script h := h

/-- The manner of those who do nothing. -/
def Manner.still (ε : Type) : Manner ε where
  Rel p q := p = q
  refl _ := rfl
  trans h h' := h.trans h'
  le h := by rw [h]

variable {media : String → Except Fault Double}

namespace Desk

theorem lookupAt_alone {d : Desk Unit} (h : pollAnswer d = false) (path : String) :
  lookupAt (.alone media) d path = Lookup.undisturbed media path
  := by
  rw [lookupAt_table rfl, h, Lookup.undisturbed]

/-- A batch comes to what following its commands comes to. -/
theorem meets_executeAll_alone {d : Desk Unit} (hd : d.poll = .never) (hs : d.store.Sound)
    (commands : List Command) :
  Meets (executeAll (.alone media) commands) d
    (fun report d' => d.store.timeline.follow media commands = .ok (d'.store.timeline, report))
    (fun f _ => d.store.timeline.follow media commands = .error f)
  := by
  have hC := (Conduct.still Unit).binds_alone media
  have hlook : ∀ c ∈ commands, ∀ path, c.edit = .load path → ∀ d' : Desk Unit, d'.poll = .never →
      (lookupAt (.alone media) d' path).answer = media path
        ∧ ((lookupAt (.alone media) d' path).overtaken = true → False) := by
    intro c _ path _ d' hd'
    have hnever : pollAnswer d' = false := by rw [pollAnswer, hd']
    rw [lookupAt_alone hnever]
    exact ⟨rfl, Bool.false_ne_true⟩
  apply (meets_batch hC.unheard commands hlook hd hs).mono
  · rintro report d' (⟨hlate, -⟩ | ⟨t, hfollow, h'⟩)
    · apply hlate.elim
    · obtain rfl := h'.timeline
      apply hfollow
  · rintro f d' (⟨hraises, -⟩ | hfollow | ⟨hlate, -⟩)
    · apply hraises.elim
    · apply hfollow
    · apply hlate.elim

/-- Nobody around keeps to any manner. -/
theorem binds_alone (M : Manner Unit) {R P : Fault → Prop} (hR : ∀ cause, ¬ R (.script cause)) :
  M.Binds R P hR media (.alone media)
  := by
  have hnothing : ∀ d : Desk Unit, Meets (pure ()) d (fun _ => M.Passes d) (fun _ _ => False) := by
    intro d
    rw [meets_pure]
    apply Manner.Passes.refl
  constructor
  · apply Conduct.binds_alone
  · intro d _ path
    apply (lookup_of_hook (hnothing d) rfl).1
  · intro d _ listener pass
    apply (hnothing d).mono (fun _ _ h => h) fun _ _ h => h.elim
  · intro d _ listener message
    apply (hnothing d).mono (fun _ _ h => h) fun _ _ h => h.elim

end Desk

/-! ### What comes of commands and texts from scratch -/

/-- Carrying out commands at an empty desk with nobody around leads to a timeline, and none
of them is given up. -/
def Timeline.FromScratch (media : String → Except Fault Double) (cs : List Command)
    (t : Timeline) : Prop :=
  Desk.Meets (Desk.execute (.alone media) cs .never) { surroundings := () }
    (fun report d => report.cancelled = false ∧ d.store.timeline = t) (fun _ _ => False)

/-- Submitting a text at an empty desk with nobody around publishes a pass with a given script
and fingerprint and leads to a timeline. -/
def Timeline.SubmittedFromScratch (media : String → Except Fault Double) (text : String)
    (script : Script) (fingerprint : String) (t : Timeline) : Prop :=
  Desk.Meets (Desk.submit (.alone media) text) { surroundings := () }
    (fun result d => ∃ pass, result = some pass ∧ pass.script = script
      ∧ pass.fingerprint = fingerprint ∧ d.store.timeline = t)
    (fun _ _ => False)

variable {cs : List Command} {t : Timeline} {report : Report} {text fp : String}

theorem Timeline.fromScratch_of_follow (h : Timeline.follow media {} cs = .ok (t, report))
    (hreport : report.cancelled = false) :
  Timeline.FromScratch media cs t
  := by
  rw [FromScratch, Desk.execute, Desk.meets_bind, Desk.setPoll, Desk.meets_modify,
    Desk.meets_finally]
  apply (Desk.meets_executeAll_alone rfl (Store.sound_of_empty rfl) cs).mono
  · intro report' d hfollow
    obtain ⟨rfl, rfl⟩ := Prod.mk.inj (Except.ok.inj (hfollow.symm.trans h))
    exact ⟨hreport, rfl⟩
  · intro f d hfollow
    cases hfollow.symm.trans h

theorem Timeline.submittedFromScratch_of_follow
    (h : Timeline.follow media {} (Script.ofText text).commands = .ok (t, report))
    (hreport : report.cancelled = false)
    (hreadable : ∃ lines, Scene.skipped (Script.ofText text).outcomes = .ok lines)
    (hfp : Command.fingerprint (Script.ofText text).commands = .ok fp) :
  Timeline.SubmittedFromScratch media text (Script.ofText text) fp t
  := by
  have hM : (Manner.still Unit).Binds (fun _ => False) (fun _ => False) (fun _ h => h) media
      (.alone media) := Desk.binds_alone _ _
  have hfree : Desk.Free ({ surroundings := () } : Desk Unit) :=
    ⟨rfl, rfl, Store.sound_of_empty rfl⟩
  rw [SubmittedFromScratch]
  apply (Desk.meets_submit_free hM hfree text).mono
  · rintro result d (⟨pass, rfl, hpass⟩ | ⟨rfl, f, hfailed⟩)
    · have hrevision : d.revision = 0 := (congrArg Prod.fst hpass.keeps.rel).symm
      have hsame := Except.ok.inj (hpass.fingerprint.symm.trans hfp)
      refine ⟨pass, rfl, hpass.script, hsame, ?_⟩
      have hran : ∀ report', pass.report = some report' → report'.cancelled = false := by
        intro report' hreport'
        have hfollow := hpass.undisturbed hrevision report' hreport'
        obtain ⟨-, rfl⟩ := Prod.mk.inj (Except.ok.inj (hfollow.symm.trans h))
        apply hreport
      have hremembered := hpass.remembered hran
      rcases hpass.steps with ⟨hkept, -⟩ | hnone | ⟨-, report', -, -, hfollow, -⟩
      · rw [hremembered] at hkept
        cases hkept
      · rw [hremembered] at hnone
        cases hnone
      · apply (Prod.mk.inj (Except.ok.inj (hfollow.symm.trans h))).1
    · have hrevision : d.revision = 0 := (congrArg Prod.fst hfailed.keeps.rel).symm
      obtain ⟨lines, hlines⟩ := hreadable
      rcases hfailed.cause with (hf | hf) | hf | hf | hf
      · apply hf.elim
      · apply hf.elim
      · cases hf.symm.trans hlines
      · cases hf.symm.trans hfp
      · cases (hf hrevision).symm.trans h
  · rintro f d ⟨hf, -⟩
    apply hf

/-- The store of a desk follows from all commands of the fingerprint that is remembered. -/
theorem Memo.Recalls.follow {ε : Type} {d : Desk ε} {cs' : List Command}
    (h : Memo.Recalls media cs d) (hd : d.fingerprint = some fp)
    (hfp : Command.fingerprint cs' = .ok fp) (hcs : Command.Readable cs)
    (hcs' : Command.Readable cs') (hlines : Command.Writable cs') :
  (∃ report, Timeline.follow media {} cs' = .ok (d.store.timeline, report)
      ∧ report.cancelled = false)
    ∨ Command.Collide cs' cs
  := by
  obtain ⟨fp', report, hfp', hd', hfollow, hreport⟩ := h
  obtain rfl := Option.some.inj (hd.symm.trans hd')
  rcases hcs'.edits_eq_of_fingerprint hcs hfp hfp' with hedits | hcollide
  · left
    obtain ⟨report', hfollow', hsame⟩ := Timeline.follow_congr hfollow hedits hlines
    exact ⟨report', hfollow', hsame.trans hreport⟩
  · right
    apply hcollide

end Montage
