import Montage.Proofs.Double.Order
import Montage.Proofs.Text.Number
import Montage.Proofs.Timecode.Stamp

/-!
# Stamps that are read back

The stamp of less than a hundred hours is a timecode, that of the same number of milliseconds
with minutes and seconds below 60, and it denotes the time that was stamped.  From a hundred
hours on the hours take three digits, and what is written is no timecode.
-/

namespace Montage

namespace Text

/-- Plain digits are scanned as a whole. -/
theorem scanDigits?_append {cs : List Char} (h : ∀ c ∈ cs, c.isDigit = true) (rest : List Char) :
  scanDigits? cs.length (cs ++ rest) = some (Nat.ofDigitChars 10 cs 0, rest)
  := by
  have hall : cs.all isDigit = true := by
    rw [List.all_eq_true]
    intro c hc
    apply isDigit_of_isDigit (h c hc)
  rw [scanDigits?, List.take_left, List.drop_left, hall, digitsValue_eq h]
  simp

theorem scanDigits?_padded {width n : Nat} (hwidth : 0 < width) (h : n < 10 ^ width)
    (rest : List Char) :
  scanDigits? width ((Double.padded width n).toList ++ rest) = some (n, rest)
  := by
  have hdigits : ∀ c ∈ (Double.padded width n).toList, c.isDigit = true :=
    fun c hc => Double.isDigit_of_mem_padded hc
  have hscan := scanDigits?_append hdigits rest
  rw [Double.length_padded hwidth h, Double.ofDigitChars_padded] at hscan
  apply hscan

end Text

namespace Timecode

/-- The timecode of a number of milliseconds, with minutes and seconds below 60. -/
def ofTotal (n : Nat) : Timecode where
  hours := n / 3600000
  minutes := n % 3600000 / 60000
  seconds := n % 60000 / 1000
  millis := n % 1000

/-- The time of a timecode depends on the number of its milliseconds alone. -/
theorem time_ofTotal {t : Timecode} (h : t.millis < 1000) :
  (ofTotal (1000 * t.wholeSeconds + t.millis)).time = t.time
  := by
  have hwhole : (ofTotal (1000 * t.wholeSeconds + t.millis)).wholeSeconds = t.wholeSeconds := by
    generalize t.wholeSeconds = whole
    simp only [ofTotal, wholeSeconds]
    omega
  have hmillis : (ofTotal (1000 * t.wholeSeconds + t.millis)).millis = t.millis := by
    simp only [ofTotal]
    omega
  rw [time_eq, time_eq, hwhole, hmillis]

/-- The stamp of less than a hundred hours is a timecode. -/
theorem scan?_ofMillis {n : Nat} (h : n < 360000000) (rest : List Char) :
  scan? ((ofMillis n).toList ++ rest) = some (ofTotal n, rest)
  := by
  have hhours : n / 3600000 < 10 ^ 2 := by omega
  have hminutes : n % 3600000 / 60000 < 10 ^ 2 := by omega
  have hseconds : n % 60000 / 1000 < 10 ^ 2 := by omega
  have hmillis : n % 1000 < 10 ^ 3 := by omega
  simp only [toList_ofMillis, List.append_assoc, List.cons_append, scan?, Option.bind_eq_bind,
    Text.scanDigits?_padded (by decide : 0 < 2) hhours,
    Text.scanDigits?_padded (by decide : 0 < 2) hminutes,
    Text.scanDigits?_padded (by decide : 0 < 2) hseconds,
    Text.scanDigits?_padded (by decide : 0 < 3) hmillis, Option.bind_some, Text.keyword?, if_true]
  rfl

/-- The stamp of a hundred hours or more has three digits in front. -/
theorem scan?_ofMillis_eq_none {n : Nat} (h : 360000000 ≤ n) (rest : List Char) :
  scan? ((ofMillis n).toList ++ rest) = none
  := by
  have hdigits : ∀ c ∈ (Double.padded 2 (n / 3600000)).toList, c.isDigit = true :=
    fun c hc => Double.isDigit_of_mem_padded hc
  have hlength : 2 < (Double.padded 2 (n / 3600000)).toList.length := by
    have hlong : ¬ (Nat.toDigits 10 (n / 3600000)).length ≤ 2 := by
      rw [Nat.length_toDigits_le_iff (by decide) (by decide)]
      omega
    rw [Double.toList_padded, List.length_append]
    omega
  rw [toList_ofMillis]
  generalize (Double.padded 2 (n / 3600000)).toList = cs at hdigits hlength ⊢
  obtain ⟨a, b, c, more, rfl⟩ : ∃ a b c more, cs = a :: b :: c :: more := by
    match cs, hlength with
    | a :: b :: c :: more, _ => exact ⟨a, b, c, more, rfl⟩
  have hc : ':' ≠ c := Ne.symm (Text.ne_of_isDigit (hdigits c (by simp)) rfl)
  have hfront : ∀ d ∈ [a, b], d.isDigit = true := by
    intro d hd
    apply hdigits d
    rcases List.mem_cons.mp hd with rfl | hd
    · simp
    · simp [List.mem_singleton.mp hd]
  rw [scan?, List.append_assoc]
  change (Text.scanDigits? [a, b].length ([a, b] ++ c :: (more ++ _))).bind _ = none
  rw [Text.scanDigits?_append hfront, Option.bind_some]
  change (Text.keyword? [':'] (c :: (more ++ _))).bind _ = none
  rw [Text.keyword?, if_neg hc, Option.bind_none]

/-- A stamp starts with no blank. -/
theorem trimStart_ofMillis (n : Nat) (rest : List Char) :
  Text.trimStart ((ofMillis n).toList ++ rest) = (ofMillis n).toList ++ rest
  := by
  have hnil : (ofMillis n).toList ≠ [] := by simp [toList_ofMillis]
  apply Text.trimStart_eq
  intro c hc
  rw [List.head?_append, List.head?_eq_some_head hnil, Option.some_or, Option.some.injEq] at hc
  rcases mem_ofMillis (hc ▸ List.head_mem hnil) with hdigit | rfl | rfl
  · apply Text.isBlank_of_isDigit hdigit
  · rfl
  · rfl

/-! ### A hundred hours -/

/-- The first time that takes three digits for its hours. -/
def hundredHours : Double :=
  .ofInt 360000

/-- A time is below a hundred hours exactly if its whole seconds are. -/
theorem Proper.time_lt_hundredHours {t : Timecode} (h : t.Proper) :
  t.time < hundredHours ↔ t.wholeSeconds < 360000
  := by
  have hU := unitsPerOne_eq
  have hw := errorUnit_pos
  obtain ⟨hH, hhundred⟩ := Double.ofInt_natCast (n := 360000) (by decide)
  have hhundred' : hundredHours = .fin false (360000 * Double.unitsPerOne) hH := hhundred
  by_cases hexact : t.wholeSeconds = 360000 ∧ t.millis = 0
  · -- Here the bounds on the error of a time decide nothing, but there is only one such time.
    rw [time_eq, hexact.1, hexact.2]
    decide +kernel
  · obtain ⟨b, c, hc, htime, hb₁, hb₂, hc₁, hc₂⟩ := h.time_approximates
    rw [htime, hhundred', Double.fin_lt_fin]
    have hmillis : t.millis * Double.unitsPerOne ≤ 999 * Double.unitsPerOne :=
      Nat.mul_le_mul_right _ (Nat.le_of_lt_succ h.millis)
    rcases Nat.lt_trichotomy t.wholeSeconds 360000 with hlt | heq | hgt
    · have hwhole : t.wholeSeconds * Double.unitsPerOne ≤ 359999 * Double.unitsPerOne :=
        Nat.mul_le_mul_right _ (Nat.le_of_lt_succ hlt)
      omega
    · have hpos : 1 * Double.unitsPerOne ≤ t.millis * Double.unitsPerOne :=
        Nat.mul_le_mul_right _ (Nat.pos_of_ne_zero fun hzero => hexact ⟨heq, hzero⟩)
      rw [heq] at hc₁ hc₂ ⊢
      omega
    · have hwhole : 360001 * Double.unitsPerOne ≤ t.wholeSeconds * Double.unitsPerOne :=
        Nat.mul_le_mul_right _ hgt
      omega

end Timecode

end Montage
