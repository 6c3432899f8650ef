import Montage.Proofs.Double.Error
import Montage.Proofs.Text.Lines
import Montage.Timecode

/-!
# Stamps of timecodes

The time of a timecode is a double near a whole number of milliseconds, and rounding brings
that number back.  So the stamp of the time of a timecode tells the time.
-/

namespace Montage

/-! ### Digits -/

namespace Double

theorem toList_padded (width n : Nat) :
  (padded width n).toList
    = List.replicate (width - (Nat.toDigits 10 n).length) '0' ++ Nat.toDigits 10 n
  := by
  rw [padded, String.toList_ofList, Nat.toString_eq_repr, Nat.toList_repr]

theorem length_padded {width n : Nat} (hwidth : 0 < width) (h : n < 10 ^ width) :
  (padded width n).toList.length = width
  := by
  have hlength : (Nat.toDigits 10 n).length ≤ width :=
    (Nat.length_toDigits_le_iff (by decide) hwidth).mpr h
  rw [toList_padded, List.length_append, List.length_replicate]
  omega

theorem isDigit_of_mem_padded {width n : Nat} {c : Char} (h : c ∈ (padded width n).toList) :
  c.isDigit = true
  := by
  rw [toList_padded] at h
  rcases List.mem_append.mp h with hzero | hdigit
  · obtain rfl := List.eq_of_mem_replicate hzero
    rfl
  · apply Nat.isDigit_of_mem_toDigits (b := 10) (by decide) (by decide) hdigit

/-- The digits of a number denote it, whatever zeros stand in front of them. -/
theorem ofDigitChars_padded (width n : Nat) :
  Nat.ofDigitChars 10 (padded width n).toList 0 = n
  := by
  simp [toList_padded, Nat.ofDigitChars_append]

/-- A number is known by its digits. -/
theorem padded_injective {width n k : Nat}
    (h : (padded width n).toList = (padded width k).toList) :
  n = k
  := by
  rw [← ofDigitChars_padded width n, h, ofDigitChars_padded]

end Double

namespace Timecode

/-! ### Whole milliseconds -/

theorem toList_field (width n : Nat) :
  (field width n).toList = (Double.padded width n).toList
  := by
  rw [field, if_neg (by omega), Int.natAbs_natCast]

/-- The characters of a stamp before zero are digits, colons and points. -/
theorem toList_ofMillis (n : Nat) :
  (ofMillis n).toList = (Double.padded 2 (n / 3600000)).toList
    ++ ':' :: ((Double.padded 2 (n % 3600000 / 60000)).toList
    ++ ':' :: ((Double.padded 2 (n % 60000 / 1000)).toList
    ++ '.' :: (Double.padded 3 (n % 1000)).toList))
  := by
  have hhours : (n : Int) / 3600000 = ((n / 3600000 : Nat) : Int) := by omega
  have hminutes : (n : Int) % 3600000 / 60000 = ((n % 3600000 / 60000 : Nat) : Int) := by omega
  have hseconds : (n : Int) % 60000 / 1000 = ((n % 60000 / 1000 : Nat) : Int) := by omega
  have hmillis : (n : Int) % 1000 = ((n % 1000 : Nat) : Int) := by omega
  have hcolon : ":".toList = [':'] := rfl
  have hpoint : ".".toList = ['.'] := rfl
  rw [ofMillis, hhours, hminutes, hseconds, hmillis]
  simp only [String.toList_append, toList_field, hcolon, hpoint, List.append_assoc,
    List.cons_append, List.nil_append]

theorem mem_ofMillis {n : Nat} {c : Char} (h : c ∈ (ofMillis n).toList) :
  c.isDigit = true ∨ c = ':' ∨ c = '.'
  := by
  have hdigit : ∀ width k, c ∈ (Double.padded width k).toList → c.isDigit = true :=
    fun _ _ => Double.isDigit_of_mem_padded
  rw [toList_ofMillis] at h
  simp only [List.mem_append, List.mem_cons] at h
  rcases h with h | rfl | h | rfl | h | rfl | h
  · exact Or.inl (hdigit _ _ h)
  · exact Or.inr (Or.inl rfl)
  · exact Or.inl (hdigit _ _ h)
  · exact Or.inr (Or.inl rfl)
  · exact Or.inl (hdigit _ _ h)
  · exact Or.inr (Or.inr rfl)
  · exact Or.inl (hdigit _ _ h)

/-- Different numbers of milliseconds have different stamps. -/
theorem ofMillis_injective {n k : Nat} (h : (ofMillis n).toList = (ofMillis k).toList) :
  n = k
  := by
  have hcolon : ∀ width j, ':' ∉ (Double.padded width j).toList :=
    fun _ _ hmem => absurd (Double.isDigit_of_mem_padded hmem) (by decide)
  have hpoint : ∀ width j, '.' ∉ (Double.padded width j).toList :=
    fun _ _ hmem => absurd (Double.isDigit_of_mem_padded hmem) (by decide)
  have h := (toList_ofMillis n).symm.trans (h.trans (toList_ofMillis k))
  obtain ⟨hhours, h⟩ := Text.append_cons_inj (hcolon _ _) (hcolon _ _) h
  obtain ⟨hminutes, h⟩ := Text.append_cons_inj (hcolon _ _) (hcolon _ _) h
  obtain ⟨hseconds, hmillis⟩ := Text.append_cons_inj (hpoint _ _) (hpoint _ _) h
  have hhours := Double.padded_injective hhours
  have hminutes := Double.padded_injective hminutes
  have hseconds := Double.padded_injective hseconds
  have hmillis := Double.padded_injective hmillis
  omega

/-! ### Times of timecodes -/

/-- A timecode with two digits each for hours, minutes and seconds and three for
milliseconds. -/
structure Proper (t : Timecode) : Prop where
  hours : t.hours < 100
  minutes : t.minutes < 100
  seconds : t.seconds < 100
  millis : t.millis < 1000

/-- The whole seconds of a timecode. -/
def wholeSeconds (t : Timecode) : Nat :=
  t.hours * 3600 + t.minutes * 60 + t.seconds

theorem time_eq (t : Timecode) :
  t.time = Double.ofInt t.wholeSeconds + Double.quotient t.millis 1000
  := by
  rw [time, secondsOf, wholeSeconds]
  push_cast
  rfl

theorem Proper.wholeSeconds_lt {t : Timecode} (h : t.Proper) :
  t.wholeSeconds < 362440
  := by
  obtain ⟨hhours, hminutes, hseconds, -⟩ := h
  rw [wholeSeconds]
  omega

/-- The unit in which the rounding errors of times are counted, 2⁻⁵³. -/
def errorUnit : Nat :=
  Double.twoPow 1021

theorem errorUnit_pos :
  0 < errorUnit
  := Double.twoPow_pos 1021

theorem unitsPerOne_eq :
  Double.unitsPerOne = 9007199254740992 * errorUnit
  := by
  have hpow : Double.twoPow 53 = 9007199254740992 := by decide
  rw [← hpow, errorUnit, ← Double.twoPow_add]
  rfl

theorem twoPow_eq {e k n : Nat} (he : e = k + 1021) (hn : Double.twoPow k = n) :
  Double.twoPow e = n * errorUnit
  := by
  rw [he, Double.twoPow_add, hn, errorUnit]

/-- A time of less than 362440 seconds is off its milliseconds by less than half of one. -/
theorem divNearest_millis {w whole millis b c d : Nat} (hw : 0 < w)
    (hb : 2 * (millis * (9007199254740992 * w)) ≤ 2 * (b * 1000) + 1000 * w)
    (hb' : 2 * (b * 1000) ≤ 2 * (millis * (9007199254740992 * w)) + 1000 * w)
    (hc : 2 * (whole * (9007199254740992 * w) + b) ≤ 2 * c + 524288 * w)
    (hc' : 2 * c ≤ 2 * (whole * (9007199254740992 * w) + b) + 524288 * w)
    (hd : 2 * (c * 1000) ≤ 2 * d + 536870912 * w)
    (hd' : 2 * d ≤ 2 * (c * 1000) + 536870912 * w) :
  divNearest d (9007199254740992 * w) = 1000 * whole + millis
  := by
  have hexact : (1000 * whole + millis) * (9007199254740992 * w)
      = 1000 * (whole * (9007199254740992 * w)) + millis * (9007199254740992 * w) := by
    rw [Nat.add_mul, Nat.mul_assoc]
  generalize millis * (9007199254740992 * w) = p at *
  generalize whole * (9007199254740992 * w) = q at *
  apply divNearest_eq <;> omega

theorem millisOf_eq {time : Double} {n : Int} (h : (time * Double.ofInt 1000).round? = some n) :
  millisOf time = .ok n
  := by
  rw [millisOf]
  simp only [h]

theorem round?_fin {d : Nat} (hd : Double.Fits d) :
  (Double.fin false d hd).round? = some (divNearest d Double.unitsPerOne : Int)
  := by
  rw [Double.round?, Double.signed, if_neg Bool.false_ne_true]

/-- A number of units `c` that stands for whole seconds and milliseconds, up to the errors of
one quotient, `b`, and one sum. -/
structure Approximates (c whole millis : Nat) (b : Nat) : Prop where
  quotient_le : 2 * (millis * Double.unitsPerOne) ≤ 2 * (b * 1000) + 1000 * errorUnit
  le_quotient : 2 * (b * 1000) ≤ 2 * (millis * Double.unitsPerOne) + 1000 * errorUnit
  sum_le : 2 * (whole * Double.unitsPerOne + b) ≤ 2 * c + 524288 * errorUnit
  le_sum : 2 * c ≤ 2 * (whole * Double.unitsPerOne + b) + 524288 * errorUnit

/-- The time of a timecode is finite, and close to its seconds and milliseconds. -/
theorem Proper.time_approximates {t : Timecode} (h : t.Proper) :
  ∃ b c hc, t.time = .fin false c hc ∧ Approximates c t.wholeSeconds t.millis b
  := by
  have hU := unitsPerOne_eq
  have hw := errorUnit_pos
  have h1074 : Double.twoPow (1021 + 53) = 9007199254740992 * errorUnit :=
    twoPow_eq (k := 53) rfl (by decide)
  have h1093 : Double.twoPow (1040 + 53) = 4722366482869645213696 * errorUnit :=
    twoPow_eq (k := 72) rfl (by decide)
  have h1040 : Double.twoPow 1040 = 524288 * errorUnit := twoPow_eq (k := 19) rfl (by decide)
  have h1021 : Double.twoPow 1021 = errorUnit := rfl
  have hsmall : t.wholeSeconds * Double.unitsPerOne ≤ 362439 * Double.unitsPerOne :=
    Nat.mul_le_mul_right _ (Nat.le_of_lt_succ h.wholeSeconds_lt)
  have hmillis : t.millis * Double.unitsPerOne < Double.twoPow (1021 + 53) * 1000 := by
    have hle : t.millis * Double.unitsPerOne ≤ 999 * Double.unitsPerOne :=
      Nat.mul_le_mul_right _ (Nat.le_of_lt_succ h.millis)
    omega
  have hwhole : t.wholeSeconds ≤ Double.twoPow 53 := by
    have hlt := h.wholeSeconds_lt
    have hpow : 362440 ≤ Double.twoPow 53 := by decide
    omega
  obtain ⟨hS, hwholeSeconds⟩ := Double.ofInt_natCast hwhole
  obtain ⟨b, hb, hquotient, hb₁, hb₂⟩ :=
    Double.quotient_error (e := 1021) (by decide) (d := 1000) (by decide) hmillis
  obtain ⟨c, hc, hsum, hc₁, hc₂⟩ :=
    Double.add_error (e := 1040) (by decide) hS hb (by omega)
  rw [h1021] at hb₁ hb₂
  rw [h1040] at hc₁ hc₂
  refine ⟨b, c, hc, ?_, hb₁, hb₂, hc₁, hc₂⟩
  rw [time_eq, hwholeSeconds, hquotient, hsum]

/-- The time of a timecode, in milliseconds. -/
theorem millisOf_time {t : Timecode} (h : t.Proper) :
  millisOf t.time = .ok ((1000 * t.wholeSeconds + t.millis : Nat) : Int)
  := by
  have hU := unitsPerOne_eq
  have hw := errorUnit_pos
  have h1103 : Double.twoPow (1050 + 53) = 4835703278458516698824704 * errorUnit :=
    twoPow_eq (k := 82) rfl (by decide)
  have h1050 : Double.twoPow 1050 = 536870912 * errorUnit := twoPow_eq (k := 29) rfl (by decide)
  have hsmall : t.wholeSeconds * Double.unitsPerOne ≤ 362439 * Double.unitsPerOne :=
    Nat.mul_le_mul_right _ (Nat.le_of_lt_succ h.wholeSeconds_lt)
  have hmillis : t.millis * Double.unitsPerOne ≤ 999 * Double.unitsPerOne :=
    Nat.mul_le_mul_right _ (Nat.le_of_lt_succ h.millis)
  obtain ⟨b, c, hc, htime, hb₁, hb₂, hc₁, hc₂⟩ := h.time_approximates
  obtain ⟨hK, hthousand⟩ := Double.ofInt_natCast (n := 1000) (by decide)
  have hscaled : c * (1000 * Double.unitsPerOne)
      < Double.twoPow (1050 + 53) * Double.unitsPerOne := by
    rw [← Nat.mul_assoc]
    apply Nat.mul_lt_mul_of_pos_right _ Double.unitsPerOne_pos
    omega
  obtain ⟨d, hd, hproduct, hd₁, hd₂⟩ := Double.mul_error (e := 1050) (by decide) hc hK hscaled
  have hd₃ : 2 * (c * 1000) ≤ 2 * d + Double.twoPow 1050 := by
    apply Nat.le_of_mul_le_mul_right _ Double.unitsPerOne_pos
    calc 2 * (c * 1000) * Double.unitsPerOne = 2 * (c * (1000 * Double.unitsPerOne)) := by ring
      _ ≤ 2 * (d * Double.unitsPerOne) + Double.unitsPerOne * Double.twoPow 1050 := hd₁
      _ = (2 * d + Double.twoPow 1050) * Double.unitsPerOne := by ring
  have hd₄ : 2 * d ≤ 2 * (c * 1000) + Double.twoPow 1050 := by
    apply Nat.le_of_mul_le_mul_right _ Double.unitsPerOne_pos
    calc 2 * d * Double.unitsPerOne = 2 * (d * Double.unitsPerOne) := by ring
      _ ≤ 2 * (c * (1000 * Double.unitsPerOne)) + Double.unitsPerOne * Double.twoPow 1050 := hd₂
      _ = (2 * (c * 1000) + Double.twoPow 1050) * Double.unitsPerOne := by ring
  have hround : divNearest d Double.unitsPerOne = 1000 * t.wholeSeconds + t.millis := by
    rw [hU] at hb₁ hb₂ hc₁ hc₂ ⊢
    rw [h1050] at hd₃ hd₄
    apply divNearest_millis hw hb₁ hb₂ hc₁ hc₂ hd₃ hd₄
  have hthousand' : Double.ofInt 1000 = .fin false (1000 * Double.unitsPerOne) hK := hthousand
  have hscaledTime : t.time * Double.ofInt 1000 = .fin false d hd := by
    rw [htime, hthousand', hproduct]
  apply millisOf_eq
  rw [hscaledTime, round?_fin, hround]

theorem stamp_time {t : Timecode} (h : t.Proper) :
  stamp t.time = .ok (ofMillis (1000 * t.wholeSeconds + t.millis : Nat))
  := by
  rw [stamp, millisOf_time h]
  rfl

/-- The stamp of a timecode tells its time. -/
theorem time_eq_of_ofMillis {t t' : Timecode} (h : t.Proper) (h' : t'.Proper)
    (heq : (ofMillis (1000 * t.wholeSeconds + t.millis : Nat)).toList
      = (ofMillis (1000 * t'.wholeSeconds + t'.millis : Nat)).toList) :
  t.time = t'.time
  := by
  have hsame := ofMillis_injective heq
  have hmillis := h.millis
  have hmillis' := h'.millis
  have hwhole : t.wholeSeconds = t'.wholeSeconds := by omega
  have hrest : t.millis = t'.millis := by omega
  rw [time_eq, time_eq, hwhole, hrest]

end Timecode

end Montage
