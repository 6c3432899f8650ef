import Montage.Double.Text
import Montage.Proofs.Double.Order
import Montage.Proofs.Timecode.Stamp

/-!
# Decimals that are read back

Rounding a quotient depends on its value alone.  So a decimal between 0 and 1 reads as the
quotient of whole numbers that it stands for, however many zeros stand at its end; and the
double nearest to a number of ten-thousandths shows that number when it is written with four
places.
-/

namespace Montage

theorem divNearest_mul {n d c : Nat} (hc : 0 < c) :
  divNearest (n * c) (d * c) = divNearest n d
  := by
  have hlow : 2 * (n % d * c) < d * c ↔ 2 * (n % d) < d := by
    rw [← Nat.mul_assoc]
    apply Nat.mul_lt_mul_right hc
  have hhigh : d * c < 2 * (n % d * c) ↔ d < 2 * (n % d) := by
    rw [← Nat.mul_assoc]
    apply Nat.mul_lt_mul_right hc
  unfold divNearest
  simp only [Nat.mul_div_mul_right n d hc, Nat.mul_mod_mul_right c n d, hlow, hhigh]

namespace Double

/-! ### Quotients of the same value -/

theorem roundUnits_mul {n d c : Nat} (hc : 0 < c) :
  roundUnits (n * c) (d * c) = roundUnits n d
  := by
  unfold roundUnits
  simp only [Nat.mul_div_mul_right n d hc, Nat.mul_right_comm d c, divNearest_mul hc]

theorem ofQuotient_mul (neg : Bool) {n d c : Nat} (hc : 0 < c) (hd : 0 < d) (hdc : 0 < d * c) :
  ofQuotient neg (n * c) (d * c) hdc = ofQuotient neg n d hd
  := by
  have hround : roundUnits (n * c * unitsPerOne) (d * c) = roundUnits (n * unitsPerOne) d := by
    rw [Nat.mul_right_comm, roundUnits_mul hc]
  simp only [ofQuotient, ofUnits, hround]

/-! ### Reading -/

theorem Decimal.num_neg (v m : Nat) :
  Decimal.num ⟨v, -(m : Int)⟩ = v
  := by
  have hzero : (-(m : Int)).toNat = 0 := by omega
  change v * Nat.pow 10 (-(m : Int)).toNat = v
  rw [hzero]
  apply Nat.mul_one

theorem Decimal.den_neg (v m : Nat) :
  Decimal.den ⟨v, -(m : Int)⟩ = 10 ^ m
  := by
  change Nat.pow 10 (-(-(m : Int))).toNat = 10 ^ m
  rw [Int.neg_neg, Int.toNat_natCast]
  rfl

/-- The first digit of a decimal below 1 is after the point. -/
theorem Decimal.magnitude_neg {v m : Nat} (hpos : 0 < m) (hlt : v < 10 ^ m) :
  -(m : Int) ≤ Decimal.magnitude ⟨v, -(m : Int)⟩ ∧ Decimal.magnitude ⟨v, -(m : Int)⟩ < 0
  := by
  have hdigits : 0 < (Nat.toDigits 10 v).length :=
    List.length_pos_iff.mpr Nat.toDigits_ne_nil
  have hlength : (Nat.toDigits 10 v).length ≤ m :=
    (Nat.length_toDigits_le_iff (by decide) hpos).mpr hlt
  have hmagnitude : Decimal.magnitude ⟨v, -(m : Int)⟩
      = -(m : Int) + (Nat.toDigits 10 v).length - 1 := rfl
  omega

/-- A positive decimal below 1 reads as the quotient that it stands for. -/
theorem ofDecimal_eq_quotient {v m : Nat} (j : Nat) (hv : v ≠ 0) (hm : m ≤ 300)
    (hlt : v < 10 ^ m) :
  ofDecimal false ⟨v, 0 - (m : Int)⟩ = quotient (v * 10 ^ j : Nat) (10 ^ m * 10 ^ j)
  := by
  have hpos : 0 < m := by
    apply Nat.pos_of_ne_zero
    rintro rfl
    omega
  obtain ⟨hlow, hhigh⟩ := Decimal.magnitude_neg hpos hlt
  have hneg : decide (((v * 10 ^ j : Nat) : Int) < 0) = false := by
    rw [decide_eq_false_iff_not]
    omega
  have hten : 0 < 10 ^ j := Nat.pow_pos (by decide)
  have hm' : 0 < 10 ^ m := Nat.pow_pos (by decide)
  rw [Int.zero_sub, ofDecimal, if_neg hv, if_neg (by omega), if_neg (by omega), quotient,
    dif_pos (Nat.mul_pos hm' hten), Int.natAbs_natCast, hneg, ofQuotient_mul false hten hm']
  simp only [Decimal.num_neg, Decimal.den_neg]

/-! ### Numbers from 0 to 1 -/

/-- Rounding does not go beyond what is a magnitude itself. -/
theorem roundUnits_le {n d m : Nat} (hd : 0 < d) (hn : n ≤ m * d) (hm : spacing (n / d) ∣ m) :
  roundUnits n d ≤ m
  := by
  obtain ⟨q, rfl⟩ := hm
  have hstep : 0 < d * spacing (n / d) := Nat.mul_pos hd (spacing_pos _)
  rw [roundUnits, Nat.mul_comm (spacing (n / d)) q]
  apply Nat.mul_le_mul_right
  apply divNearest_le hstep
  rw [Nat.mul_comm d, ← Nat.mul_assoc, Nat.mul_comm q]
  exact hn

theorem spacing_dvd_twoPow {n e : Nat} (h : n ≤ twoPow e) :
  spacing n ∣ twoPow e
  := by
  have hlog : n.log2 ≤ e := by
    by_cases hn : n = 0
    · rw [hn, Nat.log2_zero]
      apply Nat.zero_le
    · have hlt : n < twoPow (e + 1) := Nat.lt_of_le_of_lt h (twoPow_lt (Nat.lt_succ_self e))
      apply Nat.le_of_lt_succ
      exact (Nat.log2_lt hn).mpr hlt
  apply Nat.pow_dvd_pow 2
  omega

/-- What is at most 1 is rounded to at most 1. -/
theorem ofQuotient_le_one {n d : Nat} (hd : 0 < d) (h : n ≤ d) :
  ∃ r hr, ofQuotient false n d hd = fin false r hr ∧ r ≤ unitsPerOne
  := by
  have hscaled : n * unitsPerOne ≤ unitsPerOne * d := by
    rw [Nat.mul_comm]
    exact Nat.mul_le_mul_left _ h
  have hquotient : n * unitsPerOne / d ≤ unitsPerOne := by
    apply Nat.div_le_of_le_mul
    rwa [Nat.mul_comm d]
  have hround := roundUnits_le hd hscaled (spacing_dvd_twoPow hquotient)
  have hlarge : roundUnits (n * unitsPerOne) d < overflowUnits := by
    apply Nat.lt_of_le_of_lt hround
    apply twoPow_lt
    decide
  refine ⟨roundUnits (n * unitsPerOne) d, ⟨hlarge, roundUnits_spacing _ d hd⟩, ?_, hround⟩
  rw [ofQuotient, ofUnits, dif_pos hlarge]

/-- A decimal below 1 reads as a number from 0 to 1. -/
theorem ofDecimal_unit {v m : Nat} (hpos : 0 < m) (hlt : v < 10 ^ m) :
  zero ≤ ofDecimal false ⟨v, -(m : Int)⟩ ∧ ofDecimal false ⟨v, -(m : Int)⟩ ≤ ofInt 1
  := by
  have hone : zero ≤ ofInt 1 := by decide +kernel
  obtain ⟨-, hmagnitude⟩ := Decimal.magnitude_neg hpos hlt
  rw [ofDecimal]
  split
  · exact ⟨zero_le_zero, hone⟩
  · rw [if_neg (by omega)]
    split
    · exact ⟨zero_le_zero, hone⟩
    · have hle : Decimal.num ⟨v, -(m : Int)⟩ ≤ Decimal.den ⟨v, -(m : Int)⟩ := by
        rw [Decimal.num_neg, Decimal.den_neg]
        exact Nat.le_of_lt hlt
      obtain ⟨r, hr, hvalue, hbound⟩ := ofQuotient_le_one (Decimal.den_pos _) hle
      obtain ⟨hfits, hofInt⟩ := ofInt_one
      rw [hvalue, hofInt, zero, fin_le_fin, fin_le_fin]
      exact ⟨Nat.zero_le r, hbound⟩

/-! ### Writing -/

/-- The double nearest to a number of ten-thousandths between 0 and 1. -/
theorem quotient_between {k : Nat} (hpos : 0 < k) (hlt : k < 10000) :
  ∃ r h, quotient k 10000 = fin false r h ∧ 0 < r ∧ r < unitsPerOne
    ∧ divNearest (r * Nat.pow 10 4) unitsPerOne = k
  := by
  have hU := Timecode.unitsPerOne_eq
  have hw := Timecode.errorUnit_pos
  have hlow : 1 * unitsPerOne ≤ k * unitsPerOne := Nat.mul_le_mul_right _ hpos
  have hhigh : k * unitsPerOne ≤ 9999 * unitsPerOne :=
    Nat.mul_le_mul_right _ (Nat.le_of_lt_succ hlt)
  have hfour : Nat.pow 10 4 = 10000 := rfl
  have h1021 : twoPow 1021 = Timecode.errorUnit := rfl
  have h1074 : twoPow (1021 + 53) = unitsPerOne := rfl
  obtain ⟨r, h, hquotient, herror₁, herror₂⟩ :=
    quotient_error (e := 1021) (by decide) (d := 10000) (by decide) (n := k) (by omega)
  rw [h1021] at herror₁ herror₂
  refine ⟨r, h, hquotient, by omega, by omega, ?_⟩
  rw [hfour]
  apply divNearest_eq <;> omega

end Double

end Montage
