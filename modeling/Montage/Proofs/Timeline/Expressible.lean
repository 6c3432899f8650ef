import Montage.Proofs.Timeline.Follow
import Montage.Proofs.Timeline.Refused

/-!
# Commands at times that can be expressed

A time can be expressed if it is finite and its milliseconds are.  Commands at such times have a
text, so the only thing about them that stands in the way of reporting a failure is a line
number that is too long to be written.
-/

namespace Montage

/-- A finite time whose milliseconds are finite too. -/
def Timecode.Expressible (time : Double) : Prop :=
  time.isFinite = true ∧ (time * Double.ofInt 1000).isFinite = true

instance (time : Double) : Decidable (Timecode.Expressible time) :=
  inferInstanceAs (Decidable (_ ∧ _))

theorem Timecode.Expressible.stamp {time : Double} (h : Timecode.Expressible time) :
  ∃ stamp, Timecode.stamp time = .ok stamp
  := by
  have hfinite := h.2
  unfold Timecode.stamp Timecode.millisOf
  generalize time * Double.ofInt 1000 = scaled at hfinite
  cases scaled with
  | fin neg units fits => exact ⟨_, rfl⟩
  | inf neg => cases hfinite
  | nan => cases hfinite

/-- An edit at times that can be expressed. -/
def Edit.Expressible : Edit → Prop
  | load _ => True
  | cut time => Timecode.Expressible time
  | range _ start stop => Timecode.Expressible start ∧ Timecode.Expressible stop

instance (e : Edit) : Decidable e.Expressible :=
  match e with
  | .load _ => inferInstanceAs (Decidable True)
  | .cut time => inferInstanceAs (Decidable (Timecode.Expressible time))
  | .range _ _ _ => inferInstanceAs (Decidable (_ ∧ _))

theorem Edit.Expressible.text {e : Edit} (h : e.Expressible) :
  ∃ s, e.text = .ok s
  := by
  cases e with
  | load path => exact ⟨_, rfl⟩
  | cut time =>
      obtain ⟨stamp, hstamp⟩ := Timecode.Expressible.stamp h
      rw [Edit.text, hstamp]
      exact ⟨_, rfl⟩
  | range verb start stop =>
      obtain ⟨s, hs⟩ := h.1.stamp
      obtain ⟨s', hs'⟩ := h.2.stamp
      rw [Edit.text, hs, hs']
      exact ⟨_, rfl⟩

/-- A table of files that cannot all be looked up, but fail only of what is reported as the
failure of a command. -/
def Lookup.Reporting (media : String → Except Fault Double) : Prop :=
  ∀ path f, media path = .error f → (∃ cause, f = .script cause) ∨ f.family ≠ .other

theorem Lookup.Reporting.script {media : String → Except Fault Double}
    (h : Lookup.Reporting media) {path : String} {f : Fault} (hf : media path = .error f) :
  ∃ cause, Desk.lookupFault path f = .script cause
  := by
  rcases h path f hf with ⟨cause, rfl⟩ | hfamily
  · exact ⟨cause, rfl⟩
  · exact ⟨_, Desk.lookupFault_of_family path hfamily⟩

theorem Command.mention_of_unwritable {c : Command} (h : Text.isWritable c.line = false) :
  c.mention = .error .tooLongToWrite
  := by
  rw [mention, Text.writeInteger, h]
  rfl

/-- A command with a text can be mentioned, unless its line is too long to be written. -/
theorem Command.mention_cases {c : Command} {s : String} (h : c.text = .ok s) :
  (∃ m, c.mention = .ok m)
    ∨ Text.isWritable c.line = false ∧ c.mention = .error .tooLongToWrite
  := by
  cases hline : Text.isWritable c.line with
  | true =>
      left
      exact ⟨_, Command.mention_ok hline h⟩
  | false =>
      right
      exact ⟨rfl, Command.mention_of_unwritable hline⟩

namespace Timeline

variable {look : String → Lookup} {t t' : Timeline} {c : Command}

/-- A command whose edit succeeds is reported as such. -/
theorem execute_ok {ids : List Int} (hedit : t.edit look c.edit = .ok (t', ids)) :
  t.execute look c = .ok (t', ⟨c, .ok ids⟩)
  := by
  rw [execute, hedit]

/-- A command whose edit is refused is reported as such. -/
theorem execute_refused {cause : ScriptFault}
    (hedit : t.edit look c.edit = .error (.script cause)) (hc : c.edit.Expressible)
    (hline : Text.isWritable c.line = true) :
  t.execute look c = .ok (t, ⟨c, .error cause⟩)
  := by
  obtain ⟨s, hs⟩ := hc.text
  rw [execute, hedit]
  dsimp only
  rw [Command.mention_ok hline hs]
  rfl

variable {media : String → Except Fault Double} (hmedia : Lookup.Reporting media)

include hmedia

/-- A command is carried out, unless its failure cannot be reported for its line. -/
theorem execute_expressible {c : Command} (hc : c.edit.Expressible) (t : Timeline) :
  (∃ t' r, t.execute (Lookup.undisturbed media) c = .ok (t', r))
    ∨ Text.isWritable c.line = false
      ∧ t.execute (Lookup.undisturbed media) c = .error .tooLongToWrite
  := by
  obtain ⟨s, htext⟩ := hc.text
  rw [execute]
  cases hedit : t.edit (Lookup.undisturbed media) c.edit with
  | ok p =>
      left
      exact ⟨p.1, _, rfl⟩
  | error f =>
      have hscript : ∃ cause, f = .script cause := by
        rcases of_edit_error htext hedit with ⟨cause, rfl, -⟩ | ⟨path, f', hf', rfl⟩
        · exact ⟨cause, rfl⟩
        · apply hmedia.script hf'
      obtain ⟨cause, rfl⟩ := hscript
      rcases Command.mention_cases htext with ⟨m, hmention⟩ | ⟨hline, hmention⟩
      · left
        rw [hmention]
        exact ⟨t, _, rfl⟩
      · right
        rw [hmention]
        exact ⟨hline, rfl⟩

/-- Commands are carried out, unless the failure of one cannot be reported for its line. -/
theorem follow_expressible {cs : List Command} (hcs : ∀ c ∈ cs, c.edit.Expressible)
    (t : Timeline) :
  (∃ t' report, t.follow media cs = .ok (t', report))
    ∨ (∃ c ∈ cs, Text.isWritable c.line = false)
      ∧ t.follow media cs = .error .tooLongToWrite
  := by
  induction cs generalizing t with
  | nil =>
      left
      exact ⟨t, {}, rfl⟩
  | cons c rest ih =>
      obtain ⟨hc, hrest⟩ := List.forall_mem_cons.mp hcs
      rw [follow]
      rcases execute_expressible hmedia hc t with ⟨t₁, r, hexecute⟩ | ⟨hline, hexecute⟩
      · rw [hexecute]
        dsimp only
        split
        · left
          exact ⟨t₁, _, rfl⟩
        · rcases ih hrest t₁ with ⟨t₂, report, hfollow⟩ | ⟨⟨c', hc', hline⟩, hfollow⟩
          · left
            rw [hfollow]
            exact ⟨t₂, _, rfl⟩
          · right
            rw [hfollow]
            exact ⟨⟨c', List.mem_cons_of_mem c hc', hline⟩, rfl⟩
      · right
        rw [hexecute]
        exact ⟨⟨c, List.mem_cons_self, hline⟩, rfl⟩

end Timeline

end Montage
