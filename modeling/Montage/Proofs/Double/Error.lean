import Mathlib.Tactic.Common
import Mathlib.Tactic.Ring
import Montage.Double.Arith

/-!
# Rounding errors

A rounded magnitude differs from the exact one by at most half the spacing of the doubles
around it.  The bounds are stated without division: `m` is within half of `step` of `n / d`
if `2 n ≤ 2 m d + d step` and `2 m d ≤ 2 n + d step`.
-/

namespace Montage

theorem divNearest_error (n d : Nat) (hd : 0 < d) :
  2 * n ≤ 2 * (divNearest n d * d) + d ∧ 2 * (divNearest n d * d) ≤ 2 * n + d
  := by
  have hr : n % d < d := Nat.mod_lt n hd
  have hn : n / d * d + n % d = n := by
    rw [Nat.mul_comm]
    apply Nat.div_add_mod
  have hup : (n / d + 1) * d = n / d * d + d := Nat.succ_mul _ _
  rw [divNearest]
  split
  · omega
  · split
    · omega
    · rcases Nat.mod_two_eq_zero_or_one (n / d) with heven | hodd
      · rw [heven, Nat.add_zero]
        omega
      · rw [hodd]
        omega

/-- An integer that is nearer than one half is the nearest one. -/
theorem divNearest_eq {n d m : Nat} (hlow : 2 * (m * d) < 2 * n + d)
    (hhigh : 2 * n < 2 * (m * d) + d) :
  divNearest n d = m
  := by
  have hd : 0 < d := by omega
  have herror := divNearest_error n d hd
  generalize divNearest n d = q at herror ⊢
  rcases Nat.lt_trichotomy q m with hlt | heq | hgt
  · have h : (q + 1) * d ≤ m * d := Nat.mul_le_mul_right d hlt
    rw [Nat.succ_mul] at h
    omega
  · apply heq
  · have h : (m + 1) * d ≤ q * d := Nat.mul_le_mul_right d hgt
    rw [Nat.succ_mul] at h
    omega

namespace Double

theorem twoPow_add (e k : Nat) :
  twoPow (e + k) = twoPow e * twoPow k
  := Nat.pow_add 2 e k

theorem twoPow_le {e k : Nat} (h : e ≤ k) :
  twoPow e ≤ twoPow k
  := Nat.pow_le_pow_right Nat.two_pos h

theorem twoPow_lt {e k : Nat} (h : e < k) :
  twoPow e < twoPow k
  := Nat.pow_lt_pow_right Nat.one_lt_two h

theorem spacing_le {n e : Nat} (h : n < twoPow (e + 53)) :
  spacing n ≤ twoPow e
  := by
  apply twoPow_le
  by_cases hn : n = 0
  · subst hn
    rw [Nat.log2_zero]
    omega
  · have hlog : n.log2 < e + 53 := (Nat.log2_lt hn).mpr h
    omega

theorem roundUnits_error (n d : Nat) (hd : 0 < d) :
  2 * n ≤ 2 * (roundUnits n d * d) + d * spacing (n / d)
    ∧ 2 * (roundUnits n d * d) ≤ 2 * n + d * spacing (n / d)
  := by
  have hscale : roundUnits n d * d
      = divNearest n (d * spacing (n / d)) * (d * spacing (n / d)) := by
    rw [roundUnits]
    ring
  rw [hscale]
  apply divNearest_error n _ (Nat.mul_pos hd (spacing_pos _))

/-- A whole number of units below 2⁵³⁺ᵉ is rounded to within half of 2ᵉ. -/
theorem roundUnits_mul_error {n d e : Nat} (hd : 0 < d) (hn : n < twoPow (e + 53)) :
  2 * n ≤ 2 * roundUnits (n * d) d + twoPow e ∧ 2 * roundUnits (n * d) d ≤ 2 * n + twoPow e
  := by
  obtain ⟨hlow, hhigh⟩ := roundUnits_error (n * d) d hd
  rw [Nat.mul_div_cancel _ hd] at hlow hhigh
  have hspacing : spacing n ≤ twoPow e := spacing_le hn
  have hlow' : 2 * n ≤ 2 * roundUnits (n * d) d + spacing n := by
    apply Nat.le_of_mul_le_mul_right _ hd
    calc 2 * n * d = 2 * (n * d) := Nat.mul_assoc 2 n d
      _ ≤ 2 * (roundUnits (n * d) d * d) + d * spacing n := hlow
      _ = (2 * roundUnits (n * d) d + spacing n) * d := by ring
  have hhigh' : 2 * roundUnits (n * d) d ≤ 2 * n + spacing n := by
    apply Nat.le_of_mul_le_mul_right _ hd
    calc 2 * roundUnits (n * d) d * d = 2 * (roundUnits (n * d) d * d) := Nat.mul_assoc 2 _ d
      _ ≤ 2 * (n * d) + d * spacing n := hhigh
      _ = (2 * n + spacing n) * d := by ring
  omega

/-- Nothing is lost where a magnitude has at most 53 significant bits. -/
theorem roundUnits_of_dvd {n : Nat} (h : spacing n ∣ n) :
  roundUnits n 1 = n
  := by
  obtain ⟨q, hq⟩ := h
  have hpos : 0 < spacing n := spacing_pos n
  rw [roundUnits, Nat.div_one, Nat.one_mul]
  have hnearest : divNearest n (spacing n) = q := by
    have hq' : q * spacing n = n := by
      rw [Nat.mul_comm]
      apply hq.symm
    apply divNearest_eq
    · rw [hq']
      omega
    · rw [hq']
      omega
  rw [hnearest, Nat.mul_comm]
  apply hq.symm

/-- A magnitude below 2⁵³⁺ᵉ units is rounded to within half of 2ᵉ units. -/
theorem ofUnits_error (neg : Bool) {n d e : Nat} (hd : 0 < d) (hn : n < twoPow (e + 53) * d)
    (he : e + 54 ≤ overflowExponent) :
  ∃ r h, ofUnits neg n d hd = fin neg r h
    ∧ 2 * n ≤ 2 * (r * d) + d * twoPow e ∧ 2 * (r * d) ≤ 2 * n + d * twoPow e
  := by
  have hspacing : spacing (n / d) ≤ twoPow e := by
    apply spacing_le
    apply Nat.div_lt_of_lt_mul
    rw [Nat.mul_comm]
    apply hn
  have hstep : d * spacing (n / d) ≤ d * twoPow e := Nat.mul_le_mul_left d hspacing
  obtain ⟨hlow, hhigh⟩ := roundUnits_error n d hd
  have hlarge : roundUnits n d < overflowUnits := by
    have hscaled : roundUnits n d * d < twoPow (e + 54) * d := by
      have hdouble : twoPow (e + 54) * d = 2 * (twoPow (e + 53) * d) := by
        rw [show e + 54 = (e + 53) + 1 from rfl, twoPow_add (e + 53) 1, show twoPow 1 = 2 from rfl]
        ring
      have hsmall : d * twoPow e ≤ twoPow (e + 53) * d := by
        rw [Nat.mul_comm]
        apply Nat.mul_le_mul_right d (twoPow_le (Nat.le_add_right e 53))
      omega
    have hunits := Nat.lt_of_mul_lt_mul_right hscaled
    apply Nat.lt_of_lt_of_le hunits (twoPow_le he)
  refine ⟨roundUnits n d, ⟨hlarge, roundUnits_spacing n d hd⟩, ?_, by omega, by omega⟩
  rw [ofUnits, dif_pos hlarge]

/-- A magnitude that is already one of a finite value. -/
theorem ofUnits_of_fits (neg : Bool) {n : Nat} (h : Fits n) :
  ofUnits neg n 1 Nat.one_pos = fin neg n h
  := by
  have hround : roundUnits n 1 = n := roundUnits_of_dvd h.2
  have hlarge : roundUnits n 1 < overflowUnits := by
    rw [hround]
    apply h.1
  rw [ofUnits, dif_pos hlarge]
  simp only [hround]

/-- Integers of at most 53 bits are doubles. -/
theorem ofInt_natCast {n : Nat} (hn : n ≤ twoPow 53) :
  ∃ h, ofInt n = fin false (n * unitsPerOne) h
  := by
  have hlarge : n * unitsPerOne < overflowUnits := by
    have hle : n * unitsPerOne ≤ twoPow 53 * unitsPerOne := Nat.mul_le_mul_right _ hn
    apply Nat.lt_of_le_of_lt hle
    rw [unitsPerOne, ← twoPow_add]
    apply twoPow_lt
    decide
  have hfits : Fits (n * unitsPerOne) := ⟨hlarge, spacing_dvd_of_le hn⟩
  have hneg : decide ((n : Int) < 0) = false := by simp
  refine ⟨hfits, ?_⟩
  rw [ofInt, ofQuotient, Int.natAbs_natCast, hneg]
  apply ofUnits_of_fits

theorem ofInt_one :
  ∃ h, ofInt 1 = fin false unitsPerOne h
  := by
  obtain ⟨h, hofInt⟩ := ofInt_natCast (n := 1) (by decide)
  simp only [Nat.one_mul] at hofInt
  exact ⟨_, hofInt⟩

/-! ### Operations on finite doubles -/

theorem fin_add_fin (s t : Bool) {m n : Nat} (hm : Fits m) (hn : Fits n) :
  fin s m hm + fin t n hn = ofSignedUnits (s && t) (signed s m + signed t n)
  := by
  change add _ _ = _
  rw [add]

theorem fin_mul_fin (s t : Bool) {m n : Nat} (hm : Fits m) (hn : Fits n) :
  fin s m hm * fin t n hn = ofUnits (s != t) (m * n) unitsPerOne unitsPerOne_pos
  := by
  change mul _ _ = _
  rw [mul]

variable {m n e : Nat} (he : e + 54 ≤ overflowExponent)

include he

theorem quotient_error {d : Nat} (hd : 0 < d) (h : n * unitsPerOne < twoPow (e + 53) * d) :
  ∃ r hr, quotient n d = fin false r hr
    ∧ 2 * (n * unitsPerOne) ≤ 2 * (r * d) + d * twoPow e
    ∧ 2 * (r * d) ≤ 2 * (n * unitsPerOne) + d * twoPow e
  := by
  have hneg : decide ((n : Int) < 0) = false := by simp
  rw [quotient, dif_pos hd, ofQuotient, Int.natAbs_natCast, hneg]
  apply ofUnits_error false hd h he

theorem add_error (hm : Fits m) (hn : Fits n) (h : m + n < twoPow (e + 53)) :
  ∃ r hr, fin false m hm + fin false n hn = fin false r hr
    ∧ 2 * (m + n) ≤ 2 * r + twoPow e ∧ 2 * r ≤ 2 * (m + n) + twoPow e
  := by
  rw [fin_add_fin]
  change ∃ r hr, ofSignedUnits false ((m : Int) + n) = fin false r hr ∧ _
  rw [ofSignedUnits]
  split
  · rename_i hzero
    refine ⟨0, fits_zero, rfl, ?_, ?_⟩ <;> omega
  · have hneg : decide ((m : Int) + n < 0) = false := by
      rw [decide_eq_false_iff_not]
      omega
    have habs : ((m : Int) + n).natAbs = m + n := by omega
    rw [hneg, habs]
    have herror := ofUnits_error false Nat.one_pos (by rwa [Nat.mul_one]) he
    simpa only [Nat.mul_one, Nat.one_mul] using herror

theorem mul_error (hm : Fits m) (hn : Fits n) (h : m * n < twoPow (e + 53) * unitsPerOne) :
  ∃ r hr, fin false m hm * fin false n hn = fin false r hr
    ∧ 2 * (m * n) ≤ 2 * (r * unitsPerOne) + unitsPerOne * twoPow e
    ∧ 2 * (r * unitsPerOne) ≤ 2 * (m * n) + unitsPerOne * twoPow e
  := by
  rw [fin_mul_fin]
  apply ofUnits_error false unitsPerOne_pos h he

end Double

end Montage
