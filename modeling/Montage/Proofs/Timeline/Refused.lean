import Montage.Proofs.Timeline.Execute

/-!
# Why edits are refused

An edit that has a text fails for a reason of its own, which gives no batch up, or of what the
lookup of its file fails of.
-/

namespace Montage

/-- Failures of the system, of values and of the running program are those of a file. -/
theorem Desk.lookupFault_of_family {f : Fault} (path : String) (h : f.family ≠ .other) :
  lookupFault path f = .script (.lookupFailed path f.message)
  := by
  unfold lookupFault
  split
  · apply absurd rfl h
  · split
    · rfl
    · rfl
    · rfl
    · rename_i hother
      apply absurd hother h

/-- A fault that is not of the system, of a value or of the running program goes on. -/
theorem Desk.lookupFault_of_other {f : Fault} (path : String) (h : f.family = .other) :
  lookupFault path f = f
  := by
  unfold lookupFault
  split
  · rfl
  · rw [h]

/-- A file that is not to be loaded could not be found, or the reason is that of the command. -/
theorem Lookup.of_playable_error {media : String → Except Fault Double} {path : String}
    {f : Fault} (h : (undisturbed media path).playable path = .error f) :
  (∃ cause, f = .script cause ∧ cause.kind ≠ .cancelled)
    ∨ ∃ f', media path = .error f' ∧ f = Desk.lookupFault path f'
  := by
  rw [playable] at h
  split at h
  · cases h
    left
    exact ⟨.pathMissing, rfl, by decide⟩
  · cases hmedia : media path with
    | error f' =>
        simp only [undisturbed, hmedia] at h
        cases h
        right
        exact ⟨f', rfl, rfl⟩
    | ok duration =>
        simp only [undisturbed, hmedia] at h
        split at h
        · cases h
          left
          exact ⟨.unplayable path duration, rfl, by rw [ScriptFault.kind]; decide⟩
        · cases h

/-- A time at which a command with a text cuts can be written. -/
theorem Edit.stamp_of_text {time : Double} {s : String} (h : Edit.text (.cut time) = .ok s) :
  ∃ stamp, Timecode.stamp time = .ok stamp
  := by
  rw [Edit.text] at h
  cases hstamp : Timecode.stamp time with
  | ok stamp => exact ⟨stamp, rfl⟩
  | error f =>
      rw [hstamp] at h
      cases h

namespace Timeline

variable {media : String → Except Fault Double} {t : Timeline}

/-- A cut that is refused at a time that can be written fails for a reason of its own. -/
theorem cutFault_of_stamp (t : Timeline) {time : Double} {stamp : String}
    (h : Timecode.stamp time = .ok stamp) :
  ∃ cause, t.cutFault time = .script cause ∧ cause.kind ≠ .cancelled
  := by
  rw [cutFault, h]
  dsimp only
  split
  · exact ⟨.onBoundary stamp, rfl, by rw [ScriptFault.kind]; decide⟩
  · exact ⟨.uncovered stamp, rfl, by rw [ScriptFault.kind]; decide⟩

/-- An edit that has a text fails for a reason of its own, or of the lookup of its file. -/
theorem of_edit_error {e : Edit} {s : String} (htext : e.text = .ok s) {f : Fault}
    (h : t.edit (Lookup.undisturbed media) e = .error f) :
  (∃ cause, f = .script cause ∧ cause.kind ≠ .cancelled)
    ∨ ∃ path f', media path = .error f' ∧ f = Desk.lookupFault path f'
  := by
  cases e with
  | load path =>
      rw [edit] at h
      cases hplayable : (Lookup.undisturbed media path).playable path with
      | ok duration =>
          rw [hplayable] at h
          cases h
      | error f' =>
          rw [hplayable] at h
          cases h
          apply (Lookup.of_playable_error hplayable).imp id
          rintro ⟨f'', hmedia, hf⟩
          exact ⟨path, f'', hmedia, hf⟩
  | cut time =>
      obtain ⟨stamp, hstamp⟩ := Edit.stamp_of_text htext
      rw [edit] at h
      split at h
      · cases h
      · cases h
        left
        apply t.cutFault_of_stamp hstamp
  | range verb start stop => cases h

end Timeline

end Montage
