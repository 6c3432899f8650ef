import Montage.Proofs.Command.Canonical
import Montage.Proofs.Desk.Lookup
import Montage.Proofs.Desk.Turn

/-!
# Texts whose commands have not changed

The canonical texts of two bodies agree exactly if their commands ask for the same edits in
the same order, whatever lines they stand on.  So a text is published without running its
commands exactly if they ask for the edits whose fingerprint is remembered, unless different
canonical texts collide.
-/

namespace Montage

namespace Command

/-- The canonical text of commands depends on their edits alone. -/
theorem mapM_text_congr {cs cs' : List Command} (h : cs.map (·.edit) = cs'.map (·.edit)) :
  cs.mapM text = cs'.mapM text
  := by
  have hedits : ∀ l : List Command, l.mapM text = (l.map (·.edit)).mapM Edit.text := by
    intro l
    rw [List.mapM_map]
    rfl
  rw [hedits, hedits, h]

/-- Commands that were read have the same canonical text exactly if they ask for the same
edits. -/
theorem Readable.canonical_iff {cs cs' : List Command} {s s' : String} (h : Readable cs)
    (h' : Readable cs') (hs : canonical cs = .ok s) (hs' : canonical cs' = .ok s') :
  s = s' ↔ cs.map (·.edit) = cs'.map (·.edit)
  := by
  constructor
  · rintro rfl
    apply h.edits_eq_of_canonical h' hs hs'
  · intro hedits
    rw [canonical, mapM_text_congr hedits] at hs
    apply Except.ok.inj (hs.symm.trans hs')

/-- Commands that were read have the same fingerprint exactly if they ask for the same edits,
unless their canonical texts collide. -/
theorem Readable.fingerprint_iff {cs cs' : List Command} {fp fp' : String} (h : Readable cs)
    (h' : Readable cs') (hfp : fingerprint cs = .ok fp) (hfp' : fingerprint cs' = .ok fp') :
  (fp = fp' ↔ cs.map (·.edit) = cs'.map (·.edit)) ∨ Collide cs cs'
  := by
  by_cases hcollide : Collide cs cs'
  · right
    apply hcollide
  · left
    constructor
    · rintro rfl
      apply (h.edits_eq_of_fingerprint h' hfp hfp').resolve_right hcollide
    · intro hedits
      rw [fingerprint, canonical, mapM_text_congr hedits] at hfp
      apply Except.ok.inj (hfp.symm.trans hfp')

/-- Commands that ask for the same edits do not collide. -/
theorem Readable.not_collide {cs cs' : List Command} (h : Readable cs) (h' : Readable cs')
    (hedits : cs.map (·.edit) = cs'.map (·.edit)) :
  ¬ Collide cs cs'
  := by
  rintro ⟨s, s', hs, hs', hne, -⟩
  apply hne ((h.canonical_iff h' hs hs').mpr hedits)

end Command

namespace Desk

variable {ε : Type} {host : Surroundings ε} {d : Desk ε}

/-- Lines that are noted leave what is remembered as it is. -/
theorem meets_logAll_fingerprint (lines : List String) {E : Fault → Desk ε → Prop} :
  Meets (logAll host lines) d (fun _ d' => d'.fingerprint = d.fingerprint) E
  := by
  induction lines generalizing d with
  | nil => rw [logAll, meets_pure]
  | cons line rest ih =>
      rw [logAll, meets_bind, log, meets_modify]
      apply ih

/-- The pass of an evaluation holds the script of its text, and has run the commands exactly if
their fingerprint was not the one remembered. -/
theorem meets_evaluate_executed (text : String) :
  Meets (evaluate host text) d
    (fun pass _ => pass.script = Script.ofText text
      ∧ ∃ fp, Command.fingerprint (Script.ofText text).commands = .ok fp
        ∧ (pass.executed = false ↔ d.fingerprint = some fp))
    (fun _ _ => True)
  := by
  have hpublish : ∀ (pass : Pass) (d₁ : Desk ε), Meets (do
      modify fun d => { d with last := some pass }
      let d ← get
      publish host pass d.passListeners
      return pass) d₁ (fun pass' _ => pass' = pass) (fun _ _ => True) := by
    intro pass d₁
    rw [meets_bind, meets_modify, meets_bind, meets_get, meets_bind]
    apply (meets_trivial _ _).imp
    intro _ d₂ _
    rw [meets_pure]
  rw [evaluate, meets_bind, meets_get, meets_bind]
  cases Scene.skipped (Script.ofText text).outcomes with
  | error f =>
      rw [meets_ofExcept_error]
      trivial
  | ok lines =>
      rw [meets_ofExcept_ok, meets_bind]
      apply (meets_logAll_fingerprint lines).imp
      intro _ d₁ h₁
      rw [meets_bind]
      cases Command.fingerprint (Script.ofText text).commands with
      | error f =>
          rw [meets_ofExcept_error]
          trivial
      | ok fingerprint =>
          rw [meets_ofExcept_ok, meets_bind, meets_get, ← h₁]
          dsimp only
          split
          · rename_i hsame
            rw [meets_bind]
            apply (meets_trivial _ _).imp
            intro _ d₂ _
            rw [meets_bind, meets_pure]
            apply (hpublish _ _).imp
            rintro _ d₃ rfl
            exact ⟨rfl, fingerprint, rfl, fun _ => hsame, fun _ => rfl⟩
          · rename_i hdiffer
            rw [meets_bind, meets_map]
            apply (meets_trivial _ _).imp
            intro report d₂ _
            apply (hpublish _ _).imp
            rintro _ d₃ rfl
            exact ⟨rfl, fingerprint, rfl, nofun, fun hsame => (hdiffer hsame).elim⟩

/-- The pass of a text that was submitted holds the script of the text. -/
theorem script_of_submit {text : String} {pass : Pass} {d' : Desk ε}
    (h : submit host text d = .ok (some pass) d') :
  pass.script = Script.ofText text
  := by
  apply of_submit h
  apply (meets_evaluate_executed text).imp
  intro _ _ hpass
  apply hpass.1

/-- The pass of a text that was submitted has run its commands exactly if their fingerprint was
not the one remembered. -/
theorem executed_of_submit {text : String} {pass : Pass} {d' : Desk ε}
    (h : submit host text d = .ok (some pass) d') :
  ∃ fp, Command.fingerprint (Script.ofText text).commands = .ok fp
    ∧ (pass.executed = false ↔ d.fingerprint = some fp)
  := by
  apply of_submit h
  apply (meets_evaluate_executed text).imp
  intro _ _ hpass
  apply hpass.2

/-- The canonical text identifies the commands.  Every body has one, and two bodies have the
same exactly if their commands ask for the same edits in the same order, whatever the lines
they are counted from.  So where the fingerprint of the commands of a body is remembered, a
text is published without running its commands exactly if they ask for the same edits, unless
two different canonical texts collide. -/
theorem canonical_identifies (body body' : String) (offset offset' : Int) :
  (∃ s s', Command.canonical (Command.ofBody body offset) = .ok s
      ∧ Command.canonical (Command.ofBody body' offset') = .ok s'
      ∧ (s = s' ↔ (Command.ofBody body offset).map (·.edit)
        = (Command.ofBody body' offset').map (·.edit)))
    ∧ ∀ {ε : Type} (host : Surroundings ε) (d d' : Desk ε) (fp text : String) (pass : Pass),
      Command.fingerprint (Command.ofBody body offset) = .ok fp → d.fingerprint = some fp →
      submit host text d = .ok (some pass) d' →
      (pass.executed = false ↔ (Command.ofBody body offset).map (·.edit)
          = (Script.ofText text).commands.map (·.edit))
        ∨ Command.Collide (Command.ofBody body offset) (Script.ofText text).commands
  := by
  have hread := Command.readable_ofBody body offset
  constructor
  · obtain ⟨s, hs⟩ := hread.canonical_ok
    obtain ⟨s', hs'⟩ := (Command.readable_ofBody body' offset').canonical_ok
    exact ⟨s, s', hs, hs', hread.canonical_iff (Command.readable_ofBody body' offset') hs hs'⟩
  · intro ε host d d' fp text pass hfp hremembered hsubmit
    obtain ⟨fp', hfp', hexecuted⟩ := executed_of_submit hsubmit
    rw [hexecuted, hremembered, Option.some.injEq]
    apply hread.fingerprint_iff (Command.readable_ofText text) hfp hfp'

/-- A body that loads a file and cuts it after a minute. -/
def minuteCut : String :=
  "LOAD a.mp4\nCUT 00:01:00.000"

/-- A text with the same commands in another spelling and on other lines. -/
def respelledCut : String :=
  "FRAMERATE 25\n===\nload \"a.mp4\"\n\n  CUT 00:00:60.000 "

/-- The desk after the first of them has been submitted. -/
def minuteDesk : Desk Unit :=
  after (submit (.alone fun _ => .ok (.ofInt 90)) minuteCut) { surroundings := () }

theorem canonical_identifies_respelled :
  ∃ fp pass d', Command.fingerprint (Command.ofBody minuteCut 0) = .ok fp
    ∧ minuteDesk.fingerprint = some fp
    ∧ submit (.alone fun _ => .ok (.ofInt 90)) respelledCut minuteDesk = .ok (some pass) d'
    ∧ pass.executed = false
  := by
  have hedits : (Command.ofBody minuteCut 0).map (·.edit)
      = (Script.ofText respelledCut).commands.map (·.edit) := by decide +kernel
  have hsame : (Command.fingerprint (Command.ofBody minuteCut 0)).toOption
      = minuteDesk.fingerprint := by decide +kernel
  have hpublished : (published? (.alone fun _ => .ok (.ofInt 90)) respelledCut
      minuteDesk).isSome = true := by
    decide +kernel
  have hread := Command.readable_ofBody minuteCut 0
  have hno := hread.not_collide (Command.readable_ofText respelledCut) hedits
  obtain ⟨fp, hfp⟩ := hread.fingerprint_ok
  rw [hfp] at hsame
  obtain ⟨pass, hpass⟩ := Option.isSome_iff_exists.mp hpublished
  obtain ⟨d', hsubmit⟩ := of_published? hpass
  obtain ⟨-, hskipped⟩ := canonical_identifies minuteCut minuteCut 0 0
  have hiff := (hskipped _ minuteDesk d' fp respelledCut pass hfp hsame.symm
    hsubmit).resolve_right hno
  exact ⟨fp, pass, d', hfp, hsame.symm, hsubmit, hiff.mpr hedits⟩

end Desk

end Montage
