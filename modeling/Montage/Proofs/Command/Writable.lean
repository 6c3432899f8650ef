import Montage.Proofs.Command.Canonical

/-!
# Line numbers of scripts

The numbers of the lines on which the commands of a text stand are at most twice as large as
the text is long, and two more.  So they can be written, unless the text is longer than any
that fits into memory.
-/

namespace Montage

namespace Text

theorem isWritable_of_lt {n : Int} (h : n.natAbs < 10 ^ 20) :
  isWritable n = true
  := by
  have hdigits : 20 ≤ Fault.maxDigits := by decide
  rw [isWritable, decide_eq_true_eq]
  generalize Fault.maxDigits = digits at hdigits
  apply Nat.lt_of_lt_of_le h (Nat.pow_le_pow_right (by decide) hdigits)

theorem length_splitLines_le (cs : List Char) :
  (splitLines cs).length ≤ cs.length + 1
  := by
  fun_induction splitLines cs <;> simp_all <;> omega

/-- Joining the lines of a text adds nothing to it. -/
theorem length_joinLines_splitLines_le (cs : List Char) :
  (joinLines (splitLines cs)).length ≤ cs.length
  := by
  fun_induction splitLines cs with
  | case1 => simp [joinLines]
  | case2 cs ih =>
      rw [joinLines_cons]
      split <;> simp only [List.length_cons, List.length_nil, List.nil_append] <;> omega
  | case3 cs ih =>
      rw [joinLines_cons]
      split <;> simp only [List.length_cons, List.length_nil, List.nil_append] <;> omega
  | case4 c cs _ _ hnil ih => simp [joinLines]
  | case5 c cs _ _ line rest hcons ih =>
      rw [hcons, joinLines_cons] at ih
      rw [joinLines_cons]
      split <;> simp_all

theorem length_joinLines_drop_le (k : Nat) (ls : List (List Char)) :
  (joinLines (ls.drop k)).length ≤ (joinLines ls).length
  := by
  induction k generalizing ls with
  | zero => simp
  | succ k ih =>
      cases ls with
      | nil => simp
      | cons l rest =>
          apply Nat.le_trans (ih rest)
          rw [joinLines_cons]
          split
          · simp_all [joinLines]
          · simp only [List.length_append, List.length_cons]
            omega

end Text

theorem Header.length_bodyText_le (text : String) (start : Int) :
  (bodyText text start).toList.length ≤ text.toList.length
  := by
  rw [bodyText, String.toList_ofList]
  apply Nat.le_trans (Text.length_joinLines_drop_le _ _)
  apply Text.length_joinLines_splitLines_le

theorem Header.splitFrom_le {c c' : Config} {before n : Nat} {lines : List (List Char)}
    (h : splitFrom c before lines = some (c', n)) :
  n ≤ before + lines.length
  := by
  induction lines generalizing c before with
  | nil => cases h
  | cons line rest ih =>
      rw [splitFrom] at h
      rw [List.length_cons]
      split at h
      · cases h
        omega
      · have hle := ih h
        omega

theorem Header.split_le (text : String) :
  (split text).2 ≤ text.toList.length + 1
  := by
  rw [split]
  cases h : splitFrom {} 0 (Text.splitLines text.toList) with
  | none => simp
  | some p =>
      have hle := splitFrom_le h
      have hlength := Text.length_splitLines_le text.toList
      rw [Option.getD_some]
      omega

namespace Command

theorem line_of_mem_ofLines {lines : List String} {first : Int} {c : Command}
    (h : c ∈ ofLines lines first) :
  first ≤ c.line ∧ c.line < first + lines.length
  := by
  induction lines generalizing first with
  | nil => cases h
  | cons line rest ih =>
      have hrest : c ∈ ofLines rest (first + 1) →
          first ≤ c.line ∧ c.line < first + (line :: rest).length := by
        intro hmem
        have hbounds := ih hmem
        rw [List.length_cons]
        omega
      rw [ofLines] at h
      cases hline : ofLine? line first with
      | none =>
          rw [hline] at h
          apply hrest h
      | some c' =>
          rw [hline] at h
          obtain ⟨e, -, rfl⟩ := Option.map_eq_some_iff.mp hline
          rcases List.mem_cons.mp h with rfl | hmem
          · dsimp only
            rw [List.length_cons]
            omega
          · apply hrest hmem

/-- Commands on lines whose numbers can be written. -/
def Writable (cs : List Command) : Prop :=
  ∀ c ∈ cs, Text.isWritable c.line = true

theorem line_of_mem_ofText {text : String} {c : Command}
    (h : c ∈ (Script.ofText text).commands) :
  c.line.natAbs ≤ 2 * text.toList.length + 2
  := by
  have hstart := Header.split_le text
  have hbody := Header.length_bodyText_le text (Header.split text).2
  have hlines := Text.length_splitLines_le (Header.bodyText text (Header.split text).2).toList
  rw [commands_ofText, ofBody] at h
  have hbounds := line_of_mem_ofLines h
  rw [Text.lines, List.length_map] at hbounds
  omega

/-- The commands of a text that fits into memory stand on lines that can be written. -/
theorem writable_ofText {text : String} (h : text.length < 2 ^ 63) :
  Writable (Script.ofText text).commands
  := by
  intro c hc
  have hline := line_of_mem_ofText hc
  rw [String.length_toList] at hline
  apply Text.isWritable_of_lt
  omega

end Command

end Montage
