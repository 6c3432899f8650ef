import Mathlib.Algebra.Order.Field.Rat
import Mathlib.Tactic.FieldSimp
import Mathlib.Tactic.Linarith
import Mathlib.Tactic.Positivity
import Montage.Proofs.Double.Decimal

/-!
# Exact values

A finite double and a decimal each stand for a rational number.  Errors that are bounded by
whole numbers of units are errors of these numbers.
-/

namespace Montage.Double

/-- The number that a finite double is; zero for what is none. -/
def value : Double → ℚ
  | fin s n _ => signed s n / unitsPerOne
  | _ => 0

/-- The number that a decimal is. -/
def Decimal.value (d : Decimal) : ℚ :=
  d.num / d.den

theorem unitsPerOne_pos' :
  (0 : ℚ) < unitsPerOne
  := Nat.cast_pos.mpr unitsPerOne_pos

theorem value_fin {n : Nat} (h : Fits n) :
  (fin false n h).value = n / unitsPerOne
  := by
  rw [value, signed, if_neg Bool.false_ne_true, Int.cast_natCast]

/-- A finite double is its place in units. -/
theorem value_of_place {x : Double} {p : Int} (hx : x.isFinite = true) (hp : x.place? = some p) :
  x.value = p / unitsPerOne
  := by
  cases x with
  | nan | inf => cases hx
  | fin s n h =>
      obtain rfl : signed s n = p := Option.some.inj hp
      rfl

theorem value_zero :
  zero.value = 0
  := by
  rw [zero, value_fin, Nat.cast_zero, zero_div]

theorem value_ofInt_one :
  (ofInt 1).value = 1
  := by
  obtain ⟨hfits, hofInt⟩ := ofInt_one
  rw [hofInt, value_fin, div_self (ne_of_gt unitsPerOne_pos')]

theorem Decimal.value_neg (v m : Nat) :
  Decimal.value ⟨v, -(m : Int)⟩ = v / 10 ^ m
  := by
  rw [Decimal.value, Decimal.num_neg, Decimal.den_neg, Nat.cast_pow, Nat.cast_ofNat]

/-! ### Numbers from 0 to 1 -/

theorem place?_ofInt_one :
  (ofInt 1).place? = some (unitsPerOne : Int)
  := by
  obtain ⟨hfits, hofInt⟩ := ofInt_one
  exact congrArg place? hofInt

/-- What is from 0 to 1 is finite, and so is its place. -/
theorem exists_place_unit {x : Double} (hzero : zero ≤ x) (hone : x ≤ ofInt 1) :
  ∃ p : Int, x.place? = some p ∧ x.isFinite = true ∧ 0 ≤ p ∧ p ≤ unitsPerOne
  := by
  obtain ⟨z, p, hz, hp, hlow⟩ := le_iff.mp hzero
  obtain ⟨p', o, hp', ho, hhigh⟩ := le_iff.mp hone
  obtain rfl := Option.some.inj (hp.symm.trans hp')
  obtain rfl := Option.some.inj (place?_ofInt_one.symm.trans ho)
  obtain rfl : 0 = z := Option.some.inj hz
  refine ⟨p, hp, ?_, hlow, hhigh⟩
  cases x with
  | fin => rfl
  | nan => cases hp
  | inf neg =>
      have hlarge : unitsPerOne < overflowUnits := twoPow_lt (by decide)
      have hplace : signed neg overflowUnits = p := Option.some.inj hp
      generalize overflowUnits = bound at hlarge hplace
      generalize unitsPerOne = one at hlarge hhigh
      cases neg <;> simp only [signed, Bool.false_eq_true, if_true, if_false] at hplace <;> omega

/-! ### Errors -/

/-- An error in whole numbers is one of the quotients. -/
theorem abs_div_sub_div_le {a b c d w : Nat} (hb : 0 < b) (hd : 0 < d)
    (hlow : 2 * (c * b) ≤ 2 * (a * d) + w) (hhigh : 2 * (a * d) ≤ 2 * (c * b) + w) :
  |(a : ℚ) / b - c / d| ≤ w / (2 * (b * d))
  := by
  have hb' : (0 : ℚ) < b := Nat.cast_pos.mpr hb
  have hd' : (0 : ℚ) < d := Nat.cast_pos.mpr hd
  have hlow' : (2 * (c * b) : ℚ) ≤ 2 * (a * d) + w := by exact_mod_cast hlow
  have hhigh' : (2 * (a * d) : ℚ) ≤ 2 * (c * b) + w := by exact_mod_cast hhigh
  have hdiff : (a : ℚ) / b - c / d = (a * d - c * b) / (b * d) := by
    field_simp
  rw [hdiff, abs_div, abs_of_pos (mul_pos hb' hd'), div_le_div_iff₀ (mul_pos hb' hd') (by positivity)]
  have habs : |(a * d - c * b : ℚ)| ≤ w / 2 := by
    rw [abs_le]
    constructor <;> linarith
  calc |(a * d - c * b : ℚ)| * (2 * (b * d)) ≤ w / 2 * (2 * (b * d)) := by gcongr
    _ = w * (b * d) := by ring

/-- Rounding to ten-thousandths moves a number by at most half of one. -/
theorem abs_round_sub_le {r k : Nat} (h : Fits r)
    (hround : divNearest (r * Nat.pow 10 4) unitsPerOne = k) :
  |(k : ℚ) / 10000 - (fin false r h).value| ≤ 1 / 20000
  := by
  have herror := divNearest_error (r * Nat.pow 10 4) unitsPerOne unitsPerOne_pos
  rw [hround] at herror
  have hbound := abs_div_sub_div_le (a := k) (b := 10000) (c := r) (d := unitsPerOne)
    (by decide) unitsPerOne_pos herror.1 herror.2
  have hhalf : (unitsPerOne : ℚ) / (2 * (10000 * unitsPerOne)) = 1 / 20000 := by
    have hne := ne_of_gt unitsPerOne_pos'
    field_simp
    norm_num
  rw [value_fin, ← hhalf]
  exact_mod_cast hbound

/-- The double nearest to a number of ten-thousandths below 1. -/
theorem abs_quotient_sub_le {k : Nat} (hlt : k < 10000) :
  |(quotient k 10000).value - k / 10000| ≤ 1 / 2 ^ 54
  := by
  have hU := Timecode.unitsPerOne_eq
  have hw := Timecode.errorUnit_pos
  have h1021 : twoPow 1021 = Timecode.errorUnit := rfl
  have h1074 : twoPow (1021 + 53) = unitsPerOne := rfl
  have hsmall : k * unitsPerOne < twoPow (1021 + 53) * 10000 := by
    rw [h1074, Nat.mul_comm]
    exact Nat.mul_lt_mul_of_pos_left hlt unitsPerOne_pos
  obtain ⟨r, h, hquotient, hlow, hhigh⟩ :=
    quotient_error (e := 1021) (by decide) (d := 10000) (by decide) hsmall
  rw [h1021] at hlow hhigh
  have hbound := abs_div_sub_div_le (a := r) (b := unitsPerOne) (c := k) (d := 10000)
    unitsPerOne_pos (by decide) hlow hhigh
  have hunit : ((10000 * Timecode.errorUnit : Nat) : ℚ) / (2 * (unitsPerOne * (10000 : Nat)))
      = 1 / 2 ^ 54 := by
    have hne : (Timecode.errorUnit : ℚ) ≠ 0 := by exact_mod_cast ne_of_gt hw
    rw [hU]
    push_cast
    field_simp
    norm_num
  rw [hquotient, value_fin, ← hunit]
  exact_mod_cast hbound

end Montage.Double
