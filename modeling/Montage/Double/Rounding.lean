import Montage.Double.Basic

/-!
# Rounding to nearest

`divNearest n d` is the integer nearest to `n / d`, and `Double.ofQuotient` is the double
nearest to a quotient of natural numbers; in both a tie goes to the even neighbour.  Every
arithmetic operation on doubles, and the reading of decimals, is one such rounding of an
exact quotient.
-/

namespace Montage

/-- The integer nearest to `n / d`; of two equally near ones the even one. -/
def divNearest (n d : Nat) : Nat :=
  let q := n / d
  let r := n % d
  if 2 * r < d then q
  else if d < 2 * r then q + 1
  else q + q % 2

theorem divNearest_le {n d m : Nat} (hd : 0 < d) (h : n ≤ m * d) :
  divNearest n d ≤ m
  := by
  have hq : n / d ≤ m := Nat.div_le_of_le_mul (Nat.mul_comm m d ▸ h)
  have hr : d * (n / d) + n % d = n := Nat.div_add_mod n d
  by_cases hm : n / d = m
  · have h0 : n % d = 0 := by
      have h1 := h
      rw [← hr, hm, Nat.mul_comm m d] at h1
      omega
    simp [divNearest, h0, hd, hm]
  · unfold divNearest
    dsimp only
    split
    · exact hq
    · split <;> omega

namespace Double

/-- The spacing of the doubles around a magnitude of `n` units, in units. -/
def spacing (n : Nat) : Nat :=
  twoPow (n.log2 - 52)

theorem spacing_pos (n : Nat) :
  0 < spacing n
  := twoPow_pos _

/-- The magnitude nearest to `n / d` units that has at most 53 significant bits. -/
def roundUnits (n d : Nat) : Nat :=
  let step := spacing (n / d)
  divNearest n (d * step) * step

private theorem log2_mul_two_pow (m e : Nat) (hm : m ≠ 0) :
  (m * twoPow e).log2 = m.log2 + e
  := by
  simp only [twoPow, Nat.pow_eq]
  have hm' : m * 2 ^ e ≠ 0 := Nat.mul_ne_zero hm (Nat.pos_iff_ne_zero.1 (Nat.two_pow_pos e))
  apply (Nat.log2_eq_iff hm').2
  have h := (Nat.log2_eq_iff hm).1 rfl
  constructor
  · rw [Nat.pow_add]
    exact Nat.mul_le_mul_right _ h.1
  · rw [show m.log2 + e + 1 = (m.log2 + 1) + e by omega, Nat.pow_add]
    exact Nat.mul_lt_mul_of_pos_right h.2 (Nat.two_pow_pos e)

theorem spacing_dvd_of_le {m e : Nat} (hm : m ≤ twoPow 53) :
  spacing (m * twoPow e) ∣ m * twoPow e
  := by
  by_cases h0 : m = 0
  · simp [h0]
  rw [spacing, log2_mul_two_pow m e h0]
  simp only [twoPow, Nat.pow_eq] at hm ⊢
  by_cases htop : m = 2 ^ 53
  · subst htop
    rw [← Nat.pow_add, Nat.log2_two_pow]
    exact Nat.pow_dvd_pow 2 (by omega)
  · have hlog : m.log2 < 53 := (Nat.log2_lt h0).2 (by omega)
    exact Nat.dvd_trans (Nat.pow_dvd_pow 2 (by omega)) (Nat.dvd_mul_left _ _)

theorem roundUnits_spacing (n d : Nat) (hd : 0 < d) :
  spacing (roundUnits n d) ∣ roundUnits n d
  := by
  apply spacing_dvd_of_le
  have hstep : 0 < d * spacing (n / d) := Nat.mul_pos hd (spacing_pos _)
  apply divNearest_le hstep
  have hlog : n / d < 2 ^ 53 * spacing (n / d) := by
    rw [spacing, twoPow, Nat.pow_eq, ← Nat.pow_add]
    exact Nat.lt_of_lt_of_le Nat.lt_log2_self (Nat.pow_le_pow_right (by decide) (by omega))
  have h1 : n < (n / d + 1) * d := by
    rw [Nat.mul_comm]
    exact Nat.lt_mul_div_succ n hd
  have h2 : (n / d + 1) * d ≤ (2 ^ 53 * spacing (n / d)) * d := Nat.mul_le_mul_right d hlog
  calc n ≤ (2 ^ 53 * spacing (n / d)) * d := by omega
    _ = 2 ^ 53 * (d * spacing (n / d)) := by rw [Nat.mul_assoc, Nat.mul_comm d]

/-- The double nearest to `n / d` units, negated if `neg`; infinite from the overflow
threshold on. -/
def ofUnits (neg : Bool) (n : Nat) (d : Nat) (hd : 0 < d) : Double :=
  if h : roundUnits n d < overflowUnits then
    fin neg (roundUnits n d) ⟨h, roundUnits_spacing n d hd⟩
  else
    inf neg

/-- The double nearest to the quotient `n / d`, negated if `neg`. -/
def ofQuotient (neg : Bool) (n : Nat) (d : Nat) (hd : 0 < d) : Double :=
  ofUnits neg (n * unitsPerOne) d hd

end Double

end Montage
