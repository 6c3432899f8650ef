import Mathlib.Data.Nat.Log
import Montage.Proofs.Double.Error

/-!
# Rounding keeps the order

Of two numbers the larger one is not rounded to less than the other.  Between two powers of two
the doubles are equally spaced, so that rounding there is rounding to whole numbers; and no power
of two is passed by rounding.
-/

namespace Montage

variable {n m d k : Nat}

/-- A whole number that is not exceeded by a quotient is not exceeded by the nearest one. -/
theorem le_divNearest (hd : 0 < d) (h : k * d ≤ n) :
  k ≤ divNearest n d
  := by
  have hquotient : k ≤ n / d := (Nat.le_div_iff_mul_le hd).mpr h
  rw [divNearest]
  split
  · exact hquotient
  · split <;> omega

theorem divNearest_mono (hd : 0 < d) (h : n ≤ m) :
  divNearest n d ≤ divNearest m d
  := by
  rcases Nat.lt_or_eq_of_le (Nat.div_le_div_right (c := d) h) with hlt | heq
  · -- There is a whole number between the two quotients.
    have hn : n ≤ m / d * d := by
      have hnext : n < (n / d + 1) * d := Nat.lt_mul_of_div_lt (Nat.lt_succ_self _) hd
      have hle : (n / d + 1) * d ≤ m / d * d := Nat.mul_le_mul_right d hlt
      omega
    exact Nat.le_trans (divNearest_le hd hn) (le_divNearest hd (Nat.div_mul_le_self m d))
  · have hrest : n % d ≤ m % d := by
      have hn : d * (n / d) + n % d = n := Nat.div_add_mod n d
      have hm : d * (m / d) + m % d = m := Nat.div_add_mod m d
      rw [heq] at hn
      omega
    have hparity := Nat.mod_lt (m / d) Nat.two_pos
    simp only [divNearest, heq]
    split_ifs <;> omega

namespace Double

/-- Powers of two are not passed downwards. -/
theorem twoPow_le_roundUnits (hd : 0 < d) (h : n / d ≠ 0) :
  twoPow (n / d).log2 ≤ roundUnits n d
  := by
  have hlow : twoPow (n / d).log2 ≤ n / d := Nat.log2_self_le h
  have hpow : twoPow (n / d).log2
      = twoPow ((n / d).log2 - ((n / d).log2 - 52)) * spacing (n / d) := by
    rw [spacing, ← twoPow_add]
    congr 1
    omega
  rw [roundUnits]
  conv_lhs => rw [hpow]
  apply Nat.mul_le_mul_right
  apply le_divNearest (Nat.mul_pos hd (spacing_pos _))
  calc twoPow ((n / d).log2 - ((n / d).log2 - 52)) * (d * spacing (n / d))
      = d * twoPow (n / d).log2 := by
        rw [Nat.mul_left_comm, ← hpow]
    _ ≤ d * (n / d) := Nat.mul_le_mul_left d hlow
    _ ≤ n := Nat.mul_div_le n d

/-- Powers of two are not passed upwards. -/
theorem roundUnits_le_twoPow {e : Nat} (hd : 0 < d) (he : (n / d).log2 - 52 ≤ e)
    (h : n ≤ twoPow e * d) :
  roundUnits n d ≤ twoPow e
  := by
  have hpow : twoPow e = twoPow (e - ((n / d).log2 - 52)) * spacing (n / d) := by
    rw [spacing, ← twoPow_add]
    congr 1
    omega
  rw [roundUnits]
  conv_rhs => rw [hpow]
  apply Nat.mul_le_mul_right
  apply divNearest_le (Nat.mul_pos hd (spacing_pos _))
  calc n ≤ twoPow e * d := h
    _ = twoPow (e - ((n / d).log2 - 52)) * (d * spacing (n / d)) := by
      rw [hpow]
      ring

theorem log2_le_log2 (h : n ≤ m) :
  n.log2 ≤ m.log2
  := by
  rw [Nat.log2_eq_log_two, Nat.log2_eq_log_two]
  exact Nat.log_mono_right h

theorem roundUnits_mono (hd : 0 < d) (h : n ≤ m) :
  roundUnits n d ≤ roundUnits m d
  := by
  have hlog : (n / d).log2 ≤ (m / d).log2 := log2_le_log2 (Nat.div_le_div_right h)
  by_cases hspacing : (n / d).log2 - 52 = (m / d).log2 - 52
  · rw [roundUnits, roundUnits, spacing, hspacing]
    exact Nat.mul_le_mul_right _ (divNearest_mono (Nat.mul_pos hd (twoPow_pos _)) h)
  · -- A power of two lies between the two numbers.
    have hzero : m / d ≠ 0 := by
      intro hzero
      rw [hzero, Nat.log2_zero] at hlog hspacing
      omega
    refine Nat.le_trans (roundUnits_le_twoPow hd ?_ ?_) (twoPow_le_roundUnits hd hzero)
    · omega
    · have hlow : n / d < twoPow (m / d).log2 :=
        Nat.lt_of_lt_of_le Nat.lt_log2_self (twoPow_le (by omega))
      exact Nat.le_of_lt ((Nat.div_lt_iff_lt_mul hd).mp hlow)

/-- What is rounded to less than a power of two is less than it. -/
theorem lt_of_roundUnits_lt {e : Nat} (hd : 0 < d) (h : roundUnits n d < twoPow e) :
  n < twoPow e * d
  := by
  by_contra hle
  have hpow : twoPow e ≤ n / d := (Nat.le_div_iff_mul_le hd).mpr (Nat.not_lt.mp hle)
  have hzero : n / d ≠ 0 := Nat.ne_of_gt (Nat.lt_of_lt_of_le (twoPow_pos e) hpow)
  have hlog : e ≤ (n / d).log2 := (Nat.le_log2 hzero).mpr hpow
  have hround := Nat.le_trans (twoPow_le hlog) (twoPow_le_roundUnits hd hzero)
  omega

end Double

end Montage
