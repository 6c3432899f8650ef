import Montage.Proofs.Command.Regenerate
import Montage.Proofs.Text.Keyword
import Montage.Proofs.Timecode.Nearest
import Montage.RangePicker

/-!
# The line of a range that was picked

Two presses pick the range between their times, whichever comes first.  The line that applies a
verb to it is read as a command of that verb, for nearly the same range and in the same order,
and the line is the canonical text of this command: `presses_make_line`.
-/

namespace Montage

namespace Text

/-- No character of the basic alphabet has several capitals. -/
theorem lookup_capitalSequences {n : Nat} (h : n < 128) :
  capitalSequences.lookup n = none
  := by
  have hcodes : ∀ p ∈ capitalSequences, 128 ≤ p.1 := by decide +kernel
  rw [List.lookup_eq_none_iff]
  intro p hp
  have hlow := hcodes p hp
  rw [bne_iff_ne]
  omega

/-- The basic alphabet has its capitals by the first run of letters. -/
theorem find?_capitals {n : Nat} (h : n < 128) {holds : Nat × Nat × Nat × Int → Bool}
    (hholds : ∀ run, holds run = true → run.1 ≤ n) :
  capitals.find? holds = if holds (97, 122, 1, -32) then some (97, 122, 1, -32) else none
  := by
  have hruns : ∀ run ∈ capitals.tail, 128 ≤ run.1 := by decide +kernel
  have hrest : capitals.tail.find? holds = none := by
    rw [List.find?_eq_none]
    intro run hrun hholds'
    have hlow := hruns run hrun
    have hhigh := hholds run hholds'
    omega
  have hcapitals : capitals = (97, 122, 1, -32) :: capitals.tail := rfl
  rw [hcapitals, List.find?_cons, hrest]
  cases holds (97, 122, 1, -32) <;> rfl

/-- The basic alphabet has single capitals. -/
theorem upperChar_of_lt {c : Char} (h : c.toNat < 128) :
  upperChar c = [c.toUpper]
  := by
  have hletters : ∀ n < 128, (if 97 ≤ n ∧ n ≤ 122 then Char.ofNat (n - 32) else Char.ofNat n)
      = (Char.ofNat n).toUpper := by
    decide +kernel
  have hc := hletters c.toNat h
  rw [Char.ofNat_toNat] at hc
  rw [upperChar, lookup_capitalSequences h]
  dsimp only
  rw [find?_capitals h, ← hc]
  · by_cases hletter : 97 ≤ c.toNat ∧ c.toNat ≤ 122
    · have hcapital : ((c.toNat : Int) + -32).toNat = c.toNat - 32 := by omega
      simp [hletter, Nat.mod_one, hcapital]
    · simp [hletter, Nat.mod_one]
  · intro run hrun
    simp only [Bool.and_eq_true, decide_eq_true_eq] at hrun
    exact hrun.1.1

/-- A text whose letters are of the basic alphabet has their capitals in upper case. -/
theorem upper_eq {s word : String} (hword : ∀ c ∈ word.toList, c.toNat < 97)
    (h : s.toList.map Char.toUpper = word.toList) :
  upper s = word
  := by
  have hsmall : ∀ c ∈ s.toList, c.toNat < 128 := by
    intro c hc
    have hupper : c.toUpper ∈ word.toList := h ▸ List.mem_map_of_mem hc
    rcases toUpper_eq_or c with hself | ⟨-, hhigh⟩
    · have hlt := hword _ hupper
      rw [hself] at hlt
      omega
    · omega
  have hmap : s.toList.flatMap upperChar = s.toList.map Char.toUpper := by
    rw [List.map_eq_flatMap]
    exact List.flatMap_congr fun c hc => upperChar_of_lt (hsmall c hc)
  rw [upper, hmap, h, String.ofList_toList]

end Text

namespace RangePicker

variable {picker : RangePicker} {a b p t : Double} {keyword : String} {verb : RangeVerb}

/-- The verb of its keyword in any letter case. -/
theorem verbOf_eq (h : keyword.toList.map Char.toUpper = verb.keyword.toList) :
  verbOf keyword = .ok verb
  := by
  have hword : ∀ c ∈ verb.keyword.toList, c.toNat < 97 := by
    cases verb <;> simp [RangeVerb.keyword]
  rw [verbOf, Text.upper_eq hword h]
  cases verb <;> rfl

/-! ### Presses -/

/-- The range between two numbers has them in order.  Of equal numbers, which zeros of either
sign are, it has the first one twice. -/
theorem between_spec (hp : p ≠ .nan) (ht : t ≠ .nan) :
  (between p t).1 ≤ (between p t).2
    ∧ (between p t = (p, t) ∨ between p t = (t, p)
      ∨ p.equals t = true ∧ between p t = (p, p))
  := by
  rw [between, Double.least, Double.greatest]
  by_cases htp : t < p
  · rw [if_pos htp, if_neg (Double.lt_asymm htp)]
    exact ⟨Double.le_of_lt htp, .inr (.inl rfl)⟩
  · rw [if_neg htp]
    by_cases hpt : p < t
    · rw [if_pos hpt]
      exact ⟨Double.le_of_lt hpt, .inl rfl⟩
    · rw [if_neg hpt]
      have hle : p ≤ t := by
        by_contra hle
        exact htp (Double.lt_of_not_le hp ht hle)
      have hequals := (Double.lt_or_equals_of_le hle).resolve_left hpt
      exact ⟨Double.le_refl hp, .inr (.inr ⟨hequals, rfl⟩)⟩

theorem press_of_idle (h : picker.isRecording = false) :
  picker.press p = (⟨some p⟩, none)
  := by
  rw [isRecording, Option.isSome_eq_false_iff, Option.isNone_iff_eq_none] at h
  rw [press, h]

/-! ### Lines -/

/-- The line for a range that can be stamped is read as a command for what the stamps show. -/
theorem commandLine_regenerates (hkeyword : keyword.toList.map Char.toUpper = verb.keyword.toList)
    (ha : Timecode.Stampable a) (hb : Timecode.Stampable b) (hab : a ≤ b) (number : Int) :
  ∃ line start stop, commandLine keyword a b = .ok line
    ∧ Command.ofLine? line number = some ⟨.range verb start stop, number⟩ ∧ start ≤ stop
    ∧ |start.value - a.value| ≤ 51 / 100000 ∧ |stop.value - b.value| ≤ 51 / 100000
    ∧ Command.text ⟨.range verb start stop, number⟩ = .ok line
  := by
  obtain ⟨k, hk⟩ := ha.shows
  obtain ⟨l, hl⟩ := hb.shows
  have hstart := Timecode.stamp_ofTotal hk.below
  have hstop := Timecode.stamp_ofTotal hl.below
  have htime : ∀ {j}, j < 360000000 → Edit.IsTime (Timecode.ofTotal j).time :=
    fun hj => ⟨_, Timecode.ofTotal_proper hj, rfl⟩
  have hlt : ∀ {j}, j < 360000000 → (Timecode.ofTotal j).time < Timecode.hundredHours := by
    intro j hj
    have htotal := Timecode.total_ofTotal j
    rw [Timecode.total_eq] at htotal
    rw [(Timecode.ofTotal_proper hj).time_lt_hundredHours]
    omega
  refine ⟨verb.keyword ++ " " ++ Timecode.ofMillis k ++ " " ++ Timecode.ofMillis l,
    (Timecode.ofTotal k).time, (Timecode.ofTotal l).time, ?_, ?_,
    Timecode.time_ofTotal_mono (hk.le hl hab) hl.below, hk.abs_sub_le, hl.abs_sub_le, ?_⟩
  · rw [commandLine, verbOf_eq hkeyword]
    simp only [bind, Except.bind, Edit.text, hk.stamp, hl.stamp]
    rfl
  · rw [Command.ofLine?, Edit.ofLine?_range verb (htime hk.below) (htime hl.below) hstart hstop,
      if_pos ⟨hlt hk.below, hlt hl.below⟩]
    rfl
  · rw [Command.text, Edit.text, hstart, hstop]
    rfl

/-- Two presses at times that can be stamped, the first one while none is awaited, confirm the
range between them, which is what was previewed before the second one.  Its line, for a keyword
in any letter case, is read as a command of that verb whose range is in order and less than
0.00051 seconds off at each end, and the line is the canonical text of the command. -/
theorem presses_make_line (number : Int) (hidle : picker.isRecording = false)
    (hp : Timecode.Stampable p) (ht : Timecode.Stampable t)
    (hkeyword : keyword.toList.map Char.toUpper = verb.keyword.toList) :
  (picker.press p).2 = none
    ∧ ∃ a b, ((picker.press p).1.press t).2 = some (a, b)
      ∧ (picker.press p).1.preview t = some (a, b)
      ∧ ((picker.press p).1.press t).1.isRecording = false
      ∧ a ≤ b ∧ (a = p ∧ b = t ∨ a = t ∧ b = p ∨ p.equals t = true ∧ a = p ∧ b = p)
      ∧ ∃ line start stop, commandLine keyword a b = .ok line
        ∧ Command.ofLine? line number = some ⟨.range verb start stop, number⟩ ∧ start ≤ stop
        ∧ |start.value - a.value| ≤ 51 / 100000 ∧ |stop.value - b.value| ≤ 51 / 100000
        ∧ Command.text ⟨.range verb start stop, number⟩ = .ok line
  := by
  rw [press_of_idle hidle]
  refine ⟨rfl, (between p t).1, (between p t).2, rfl, rfl, rfl, ?_⟩
  obtain ⟨hle, hmade⟩ := between_spec (Double.ne_nan_of_le_right hp.nonneg)
    (Double.ne_nan_of_le_right ht.nonneg)
  obtain ⟨hstart, hstop⟩ : Timecode.Stampable (between p t).1
      ∧ Timecode.Stampable (between p t).2 := by
    rcases hmade with hmade | hmade | ⟨-, hmade⟩ <;> rw [hmade]
    · exact ⟨hp, ht⟩
    · exact ⟨ht, hp⟩
    · exact ⟨hp, hp⟩
  refine ⟨hle, ?_, commandLine_regenerates hkeyword hstart hstop hle number⟩
  simpa only [Prod.ext_iff] using hmade

/-- The second press is before the first one, at no whole number of milliseconds. -/
theorem presses_make_line_backwards :
  ((press ⟨none⟩ (.quotient 21 2)).1.press (.quotient 1 3)).2
      = some (.quotient 1 3, .quotient 21 2)
    ∧ ∃ line start stop, commandLine "dElEtE" (.quotient 1 3) (.quotient 21 2) = .ok line
      ∧ Command.ofLine? line 5 = some ⟨.range .delete start stop, 5⟩ ∧ start ≤ stop
      ∧ Command.text ⟨.range .delete start stop, 5⟩ = .ok line
  := by
  have hfirst : Timecode.Stampable (.quotient 21 2) :=
    ⟨by decide +kernel, by decide +kernel, 10500, by decide +kernel, by decide⟩
  have hsecond : Timecode.Stampable (.quotient 1 3) :=
    ⟨by decide +kernel, by decide +kernel, 333, by decide +kernel, by decide⟩
  have hidle : isRecording ⟨none⟩ = false := rfl
  have hkeyword : "dElEtE".toList.map Char.toUpper = RangeVerb.delete.keyword.toList := by decide
  obtain ⟨-, a, b, hrange, -, -, -, -, line, start, stop, hline, hcommand, hle, -, -, htext⟩ :=
    presses_make_line 5 hidle hfirst hsecond hkeyword
  have hpicked : ((press ⟨none⟩ (.quotient 21 2)).1.press (.quotient 1 3)).2
      = some (.quotient 1 3, .quotient 21 2) := by
    decide +kernel
  obtain ⟨ha, hb⟩ := Prod.mk.inj (Option.some.inj (hrange.symm.trans hpicked))
  rw [ha, hb] at hline
  exact ⟨hpicked, line, start, stop, hline, hcommand, hle, htext⟩

end RangePicker

end Montage
