import Montage.Proofs.Command.Canonical
import Montage.Proofs.Command.Writable
import Montage.Proofs.Timeline.Follow
import Montage.Proofs.Timeline.Refused

/-!
# Scripts are carried out to the end

Commands that were read never stop a batch: whatever they fail of is the failure of a
command, as long as the files that cannot be looked up fail of something that concerns the
file.  So every text that fits into memory has a fingerprint, and its commands are carried
out from the first to the last.
-/

namespace Montage

/-- What the lookup of a file may fail of: the media, the system, a value, or a condition
found while running. -/
def Fault.OfLookup : Fault → Prop
  | script cause => cause.kind = .mediaUnavailable
  | f => f.family ≠ .other

namespace Lookup

/-- A table of files that cannot all be looked up, but fail only of what they may. -/
def Answering (media : String → Except Fault Double) : Prop :=
  ∀ path f, media path = .error f → f.OfLookup

variable {media : String → Except Fault Double}

/-- A failed lookup is the failure of its command. -/
theorem lookupFault_of_ofLookup {f : Fault} (path : String) (h : f.OfLookup) :
  ∃ cause, Desk.lookupFault path f = .script cause ∧ cause.kind = .mediaUnavailable
  := by
  cases f with
  | script cause => exact ⟨cause, rfl, h⟩
  | _ => exact ⟨_, Desk.lookupFault_of_family path h, rfl⟩

end Lookup

namespace Timeline

variable {media : String → Except Fault Double} (hmedia : Lookup.Answering media)

include hmedia

/-- An edit that was read succeeds, or fails without being given up. -/
theorem edit_complete {e : Edit} (he : e.Readable) (t : Timeline) :
  (∃ p, t.edit (Lookup.undisturbed media) e = .ok p)
    ∨ ∃ cause, t.edit (Lookup.undisturbed media) e = .error (.script cause)
      ∧ cause.kind ≠ .cancelled
  := by
  obtain ⟨s, -, htext, -⟩ := he.text
  cases hedit : t.edit (Lookup.undisturbed media) e with
  | ok p =>
      left
      exact ⟨p, rfl⟩
  | error f =>
      right
      rcases of_edit_error htext hedit with ⟨cause, rfl, hkind⟩ | ⟨path, f', hf', rfl⟩
      · exact ⟨cause, rfl, hkind⟩
      · obtain ⟨cause, hcause, hkind⟩ := Lookup.lookupFault_of_ofLookup path (hmedia path f' hf')
        refine ⟨cause, congrArg Except.error hcause, ?_⟩
        rw [hkind]
        decide

/-- A command that was read is carried out. -/
theorem execute_complete {c : Command} (hc : c.edit.Readable)
    (hline : Text.isWritable c.line = true) (t : Timeline) :
  ∃ t' r, t.execute (Lookup.undisturbed media) c = .ok (t', r) ∧ r.isCancelled = false
  := by
  rw [execute]
  rcases edit_complete hmedia hc t with ⟨⟨t', ids⟩, hok⟩ | ⟨cause, herror, hkind⟩
  · rw [hok]
    exact ⟨t', _, rfl, rfl⟩
  · obtain ⟨text, -, htext, -⟩ := hc.text
    rw [herror, Command.mention_ok hline htext]
    refine ⟨t, ⟨c, .error cause⟩, rfl, ?_⟩
    simpa [Result.isCancelled, Result.fault?] using hkind

/-- Commands that were read are carried out from the first to the last. -/
theorem follow_complete {cs : List Command} (hcs : Command.Readable cs)
    (hlines : Command.Writable cs) (t : Timeline) :
  ∃ t' report, t.follow media cs = .ok (t', report) ∧ report.cancelled = false
  := by
  induction cs generalizing t with
  | nil => exact ⟨t, {}, rfl, rfl⟩
  | cons c rest ih =>
      obtain ⟨t₁, r, hexecute, hr⟩ := execute_complete hmedia (hcs c List.mem_cons_self)
        (hlines c List.mem_cons_self) t
      obtain ⟨t₂, report, hfollow, hreport⟩ := ih
        (fun c' hc' => hcs c' (List.mem_cons_of_mem c hc'))
        (fun c' hc' => hlines c' (List.mem_cons_of_mem c hc')) t₁
      rw [follow, hexecute]
      simp only [hr, Bool.false_eq_true, if_false, hfollow]
      exact ⟨t₂, _, rfl, hreport⟩

end Timeline

/-! ### Texts -/

namespace Scene

theorem line_of_mem_failed {lines : List (List Char)} {number : Int} {p : Int × Fault}
    (h : p ∈ failed (outcomes lines number)) :
  number ≤ p.1 ∧ p.1 < number + lines.length
  := by
  induction lines generalizing number with
  | nil => cases h
  | cons line rest ih =>
      have hrest : p ∈ failed (outcomes rest (number + 1)) →
          number ≤ p.1 ∧ p.1 < number + (line :: rest).length := by
        intro hmem
        have hbounds := ih hmem
        rw [List.length_cons]
        omega
      rw [outcomes] at h
      split at h
      · rename_i start stop _
        cases hblock : ofBlock start stop number rest with
        | ok scene =>
            rw [hblock] at h
            apply hrest h
        | error f =>
            rw [hblock] at h
            rcases List.mem_cons.mp h with rfl | hmem
            · dsimp only
              rw [List.length_cons]
              omega
            · apply hrest hmem
      · apply hrest h

theorem skippedLine_ok {line : Int} (h : Text.isWritable line = true) (f : Fault) :
  ∃ report, skippedLine line f = .ok report
  := by
  rw [skippedLine, Text.writeInteger, if_pos h]
  exact ⟨_, rfl⟩

/-- What became of separators can be reported if their lines can be written. -/
theorem skipped_ok {os : List Outcome}
    (h : ∀ p ∈ failed os, Text.isWritable p.1 = true) :
  ∃ lines, skipped os = .ok lines
  := by
  rw [skipped]
  generalize failed os = faults at h
  induction faults with
  | nil => exact ⟨[], rfl⟩
  | cons p rest ih =>
      obtain ⟨lines, hlines⟩ := ih fun p' hp' => h p' (List.mem_cons_of_mem p hp')
      obtain ⟨line, f⟩ := p
      obtain ⟨report, hreport⟩ := skippedLine_ok (h (line, f) List.mem_cons_self) f
      rw [List.mapM_cons, hlines]
      dsimp only at hreport ⊢
      rw [hreport]
      exact ⟨_, rfl⟩

theorem outcomes_ofText (text : String) :
  (Script.ofText text).outcomes
    = ofBody (Header.bodyText text (Header.split text).2) (Header.split text).2
  := by
  rw [Script.ofText]

/-- What became of the separators of a text that fits into memory can be reported. -/
theorem skipped_ofText {text : String} (h : text.length < 2 ^ 63) :
  ∃ lines, skipped (Script.ofText text).outcomes = .ok lines
  := by
  apply skipped_ok
  intro p hp
  have hstart := Header.split_le text
  have hbody := Header.length_bodyText_le text (Header.split text).2
  have hlines := Text.length_splitLines_le (Header.bodyText text (Header.split text).2).toList
  rw [outcomes_ofText, ofBody] at hp
  have hbounds := line_of_mem_failed hp
  simp only [String.length_toList] at hbody hstart hlines
  apply Text.isWritable_of_lt
  omega

end Scene

end Montage
