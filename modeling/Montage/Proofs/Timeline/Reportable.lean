import Montage.Proofs.Timeline.Expressible

/-!
# Commands whose failure can be reported

A cut that is refused says at which time, and the report of a failure says on which line, so a
failure can be reported unless the line is too long to be written or the command cuts at a time
that cannot be expressed.  Files that cannot be looked up are no obstacle, as long as they fail
of what is reported: `Timeline.execute_ok_iff`.
-/

namespace Montage

/-! ### Times without a stamp -/

theorem Double.isFinite_of_mul {a b : Double} (h : (a * b).isFinite = true) :
  a.isFinite = true
  := by
  change (mul a b).isFinite = true at h
  cases a with
  | fin => rfl
  | nan =>
      rw [mul] at h
      exact h
  | inf s =>
      cases b with
      | nan => exact h
      | inf t => exact h
      | fin t n hn =>
          rw [mul] at h
          split at h
          · exact h
          · exact h

/-- A time without a stamp is none that can be expressed, and what is wrong with it is nothing that
is reported of a command. -/
theorem Timecode.of_stamp_error {time : Double} {f : Fault} (h : Timecode.stamp time = .error f) :
  ¬ Timecode.Expressible time ∧ ∀ cause, f ≠ .script cause
  := by
  constructor
  · intro hexpressible
    obtain ⟨s, hs⟩ := hexpressible.stamp
    rw [hs] at h
    cases h
  · rintro cause rfl
    unfold Timecode.stamp Timecode.millisOf at h
    generalize time * Double.ofInt 1000 = scaled at h
    cases scaled with
    | fin => cases h
    | nan => cases h
    | inf => cases h

theorem Timecode.expressible_of_stamp {time : Double} {s : String}
    (h : Timecode.stamp time = .ok s) :
  Timecode.Expressible time
  := by
  have hscaled : (time * Double.ofInt 1000).isFinite = true := by
    unfold Timecode.stamp Timecode.millisOf at h
    generalize time * Double.ofInt 1000 = scaled at h ⊢
    cases scaled with
    | fin => rfl
    | nan => cases h
    | inf => cases h
  exact ⟨Double.isFinite_of_mul hscaled, hscaled⟩

/-! ### Commands -/

/-- A command whose line can be written and which does not cut at a time that cannot be
expressed. -/
def Command.Reportable (c : Command) : Prop :=
  Text.isWritable c.line = true ∧ ∀ time, c.edit = .cut time → Timecode.Expressible time

namespace Timeline

variable {look : String → Lookup} {t t' : Timeline} {c : Command} {e : Edit} {f : Fault}

/-- An edit that a timeline refuses. -/
def Refuses (t : Timeline) (look : String → Lookup) (e : Edit) : Prop :=
  ∃ f, t.edit look e = .error f

/-- A cut is refused where no segment encloses its time. -/
theorem refuses_cut_iff {time : Double} :
  t.Refuses look (.cut time) ↔ ¬ t.segments.any (·.encloses time) = true
  := by
  rw [Refuses, edit]
  split <;> simp [*]

/-- An edit that is refused has a text if its time can be expressed. -/
theorem text_of_refused (h : t.edit look e = .error f)
    (htime : ∀ time, e = .cut time → Timecode.Expressible time) :
  ∃ s, e.text = .ok s
  := by
  apply Edit.Expressible.text
  cases e with
  | load path => trivial
  | cut time => exact htime time rfl
  | range verb start stop => cases h

variable (hlook : Lookup.Reporting fun path => (look path).answer)

include hlook

/-- A file that is not loaded fails of what is reported. -/
theorem script_of_playable {path : String} (h : (look path).playable path = .error f) :
  ∃ cause, f = .script cause
  := by
  rw [Lookup.playable] at h
  split at h
  · cases h
    exact ⟨_, rfl⟩
  · split at h
    · rename_i f' hanswer
      cases h
      exact hlook.script hanswer
    · split at h
      · cases h
        exact ⟨_, rfl⟩
      · split at h
        · cases h
          exact ⟨_, rfl⟩
        · cases h

/-- An edit that is refused fails of what is reported, unless it is a cut at a time that cannot
be expressed. -/
theorem script_iff (h : t.edit look e = .error f) :
  (∃ cause, f = .script cause) ↔ ∀ time, e = .cut time → Timecode.Expressible time
  := by
  cases e with
  | load path =>
      rw [edit] at h
      cases hplayable : (look path).playable path with
      | ok duration =>
          rw [hplayable] at h
          cases h
      | error f' =>
          rw [hplayable] at h
          cases h
          apply iff_of_true (script_of_playable hlook hplayable)
          intro time heq
          cases heq
  | range verb start stop => cases h
  | cut time =>
      have hf : t.cutFault time = f := by
        rw [edit] at h
        split at h
        · cases h
        · exact Except.error.inj h
      cases hstamp : Timecode.stamp time with
      | ok stamp =>
          obtain ⟨cause, hcause, -⟩ := t.cutFault_of_stamp hstamp
          apply iff_of_true ⟨cause, hf.symm.trans hcause⟩
          rintro _ ⟨⟩
          exact Timecode.expressible_of_stamp hstamp
      | error f' =>
          obtain ⟨hexpressible, hscript⟩ := Timecode.of_stamp_error hstamp
          rw [cutFault, hstamp] at hf
          subst hf
          apply iff_of_false
          · rintro ⟨cause, hcause⟩
            exact hscript cause hcause
          · exact fun hall => hexpressible (hall time rfl)

/-- A command comes to a result, unless it is refused and this cannot be reported. -/
theorem execute_ok_iff :
  (∃ p, t.execute look c = .ok p) ↔ (t.Refuses look c.edit → c.Reportable)
  := by
  rw [Refuses, execute]
  cases hedit : t.edit look c.edit with
  | ok p =>
      apply iff_of_true ⟨_, rfl⟩
      rintro ⟨f, hf⟩
      cases hf
  | error f =>
      rw [forall_prop_of_true ⟨f, rfl⟩, Command.Reportable, ← script_iff hlook hedit]
      by_cases hscript : ∃ cause, f = .script cause
      · obtain ⟨cause, rfl⟩ := hscript
        obtain ⟨s, htext⟩ := text_of_refused hedit ((script_iff hlook hedit).mp ⟨cause, rfl⟩)
        rw [and_iff_left ⟨cause, rfl⟩]
        cases hline : Text.isWritable c.line with
        | true =>
            rw [Command.mention_ok hline htext]
            exact iff_of_true ⟨_, rfl⟩ rfl
        | false =>
            rw [Command.mention_of_unwritable hline]
            apply iff_of_false _ Bool.false_ne_true
            rintro ⟨p, hp⟩
            cases hp
      · apply iff_of_false _ fun h => hscript h.2
        rintro ⟨p, hp⟩
        cases f with
        | script cause => exact hscript ⟨cause, rfl⟩
        | _ => cases hp

end Timeline

end Montage
