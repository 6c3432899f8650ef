import Mathlib.Tactic.Common
import Montage.Double.Basic

/-!
# The order of doubles

Doubles are compared by their places, which are integers, so the laws of an order hold of
all numbers.  What is not a number has no place: nothing is below it, above it or equal to
it, and each law that mentions `<` or `≤` between two doubles tells that both are numbers.
-/

namespace Montage.Double

theorem related_iff {r : Int → Int → Bool} {a b : Double} :
  related r a b = true ↔ ∃ x y, a.place? = some x ∧ b.place? = some y ∧ r x y = true
  := by
  cases ha : a.place? <;> cases hb : b.place? <;> simp [related, ha, hb]

theorem lt_iff {a b : Double} :
  a < b ↔ ∃ x y, a.place? = some x ∧ b.place? = some y ∧ x < y
  := by
  change related _ a b = true ↔ _
  rw [related_iff]
  simp only [decide_eq_true_eq]

theorem le_iff {a b : Double} :
  a ≤ b ↔ ∃ x y, a.place? = some x ∧ b.place? = some y ∧ x ≤ y
  := by
  change related _ a b = true ↔ _
  rw [related_iff]
  simp only [decide_eq_true_eq]

/-- Two numbers are in the order of their places. -/
theorem le_iff_of_place {a b : Double} {p q : Int} (ha : a.place? = some p)
    (hb : b.place? = some q) :
  a ≤ b ↔ p ≤ q
  := by
  rw [le_iff]
  constructor
  · rintro ⟨x, y, hx, hy, hle⟩
    rwa [Option.some.inj (ha.symm.trans hx), Option.some.inj (hb.symm.trans hy)]
  · intro hle
    exact ⟨p, q, ha, hb, hle⟩

theorem equals_iff {a b : Double} :
  a.equals b = true ↔ ∃ x, a.place? = some x ∧ b.place? = some x
  := by
  rw [equals, related_iff]
  constructor
  · rintro ⟨x, y, hx, hy, h⟩
    obtain rfl := eq_of_beq h
    use x
  · rintro ⟨x, hx, hy⟩
    use x, x, hx, hy
    simp

/-- A number is what has a place. -/
theorem place?_isSome {a : Double} :
  a.place?.isSome = true ↔ a ≠ nan
  := by
  cases a <;> simp [place?]

theorem exists_place {a : Double} (h : a ≠ nan) :
  ∃ x, a.place? = some x
  := Option.isSome_iff_exists.mp (place?_isSome.mpr h)

theorem ne_nan_of_place {a : Double} {x : Int} (h : a.place? = some x) :
  a ≠ nan
  := place?_isSome.mp (Option.isSome_iff_exists.mpr ⟨x, h⟩)

theorem lt_irrefl (a : Double) :
  ¬ a < a
  := by
  intro h
  obtain ⟨x, y, hx, hy, hlt⟩ := lt_iff.mp h
  obtain rfl := Option.some.inj (hx.symm.trans hy)
  apply Int.lt_irrefl _ hlt

theorem lt_trans {a b c : Double} (hab : a < b) (hbc : b < c) :
  a < c
  := by
  obtain ⟨x, y, hx, hy, hxy⟩ := lt_iff.mp hab
  obtain ⟨y', z, hy', hz, hyz⟩ := lt_iff.mp hbc
  obtain rfl := Option.some.inj (hy.symm.trans hy')
  apply lt_iff.mpr ⟨x, z, hx, hz, Int.lt_trans hxy hyz⟩

theorem lt_of_lt_of_le {a b c : Double} (hab : a < b) (hbc : b ≤ c) :
  a < c
  := by
  obtain ⟨x, y, hx, hy, hxy⟩ := lt_iff.mp hab
  obtain ⟨y', z, hy', hz, hyz⟩ := le_iff.mp hbc
  obtain rfl := Option.some.inj (hy.symm.trans hy')
  apply lt_iff.mpr ⟨x, z, hx, hz, Int.lt_of_lt_of_le hxy hyz⟩

theorem lt_of_le_of_lt {a b c : Double} (hab : a ≤ b) (hbc : b < c) :
  a < c
  := by
  obtain ⟨x, y, hx, hy, hxy⟩ := le_iff.mp hab
  obtain ⟨y', z, hy', hz, hyz⟩ := lt_iff.mp hbc
  obtain rfl := Option.some.inj (hy.symm.trans hy')
  apply lt_iff.mpr ⟨x, z, hx, hz, Int.lt_of_le_of_lt hxy hyz⟩

theorem le_trans {a b c : Double} (hab : a ≤ b) (hbc : b ≤ c) :
  a ≤ c
  := by
  obtain ⟨x, y, hx, hy, hxy⟩ := le_iff.mp hab
  obtain ⟨y', z, hy', hz, hyz⟩ := le_iff.mp hbc
  obtain rfl := Option.some.inj (hy.symm.trans hy')
  apply le_iff.mpr ⟨x, z, hx, hz, Int.le_trans hxy hyz⟩

theorem lt_asymm {a b : Double} (hab : a < b) :
  ¬ b < a
  := fun hba => lt_irrefl a (lt_trans hab hba)

theorem le_of_lt {a b : Double} (h : a < b) :
  a ≤ b
  := by
  obtain ⟨x, y, hx, hy, hlt⟩ := lt_iff.mp h
  apply le_iff.mpr ⟨x, y, hx, hy, Int.le_of_lt hlt⟩

theorem not_lt_of_le {a b : Double} (h : a ≤ b) :
  ¬ b < a
  := fun hba => lt_irrefl a (lt_of_le_of_lt h hba)

theorem not_le_of_lt {a b : Double} (h : a < b) :
  ¬ b ≤ a
  := fun hba => lt_irrefl a (lt_of_lt_of_le h hba)

/-- A number is as large as itself. -/
theorem le_refl {a : Double} (h : a ≠ nan) :
  a ≤ a
  := by
  obtain ⟨x, hx⟩ := exists_place h
  apply le_iff.mpr ⟨x, x, hx, hx, Int.le_refl x⟩

/-- Of two numbers the second is below the first unless the first is at most the second. -/
theorem lt_of_not_le {a b : Double} (ha : a ≠ nan) (hb : b ≠ nan) (h : ¬ a ≤ b) :
  b < a
  := by
  obtain ⟨x, hx⟩ := exists_place ha
  obtain ⟨y, hy⟩ := exists_place hb
  have hyx : y < x := by
    by_contra hyx
    apply h
    apply le_iff.mpr ⟨x, y, hx, hy, Int.not_lt.mp hyx⟩
  apply lt_iff.mpr ⟨y, x, hy, hx, hyx⟩

theorem lt_or_equals_of_le {a b : Double} (h : a ≤ b) :
  a < b ∨ a.equals b = true
  := by
  obtain ⟨x, y, hx, hy, hle⟩ := le_iff.mp h
  rcases Int.lt_or_eq_of_le hle with hlt | rfl
  · left
    apply lt_iff.mpr ⟨x, y, hx, hy, hlt⟩
  · right
    apply equals_iff.mpr ⟨x, hx, hy⟩

theorem le_of_equals {a b : Double} (h : a.equals b = true) :
  a ≤ b ∧ b ≤ a
  := by
  obtain ⟨x, ha, hb⟩ := equals_iff.mp h
  exact ⟨le_iff.mpr ⟨x, x, ha, hb, Int.le_refl x⟩, le_iff.mpr ⟨x, x, hb, ha, Int.le_refl x⟩⟩

theorem ne_nan_of_lt_left {a b : Double} (h : a < b) :
  a ≠ nan
  := by
  obtain ⟨x, y, hx, -, -⟩ := lt_iff.mp h
  apply ne_nan_of_place hx

theorem ne_nan_of_lt_right {a b : Double} (h : a < b) :
  b ≠ nan
  := by
  obtain ⟨x, y, -, hy, -⟩ := lt_iff.mp h
  apply ne_nan_of_place hy

theorem ne_nan_of_le_right {a b : Double} (h : a ≤ b) :
  b ≠ nan
  := by
  obtain ⟨x, y, -, hy, -⟩ := le_iff.mp h
  apply ne_nan_of_place hy

/-- What lies below another number does not equal it. -/
theorem equals_eq_false_of_lt {a b : Double} (h : a < b) :
  a.equals b = false
  := by
  apply Bool.eq_false_iff.mpr
  intro heq
  obtain ⟨x, y, hx, hy, hlt⟩ := lt_iff.mp h
  obtain ⟨z, hz, hz'⟩ := equals_iff.mp heq
  obtain rfl := Option.some.inj (hx.symm.trans hz)
  obtain rfl := Option.some.inj (hy.symm.trans hz')
  apply Int.lt_irrefl _ hlt

/-- A finite value that is not at most zero is positive. -/
theorem zero_lt_of_not_le_zero {a : Double} (ha : a.isFinite = true) (h : ¬ a ≤ zero) :
  zero < a
  := by
  apply lt_of_not_le _ _ h
  · rintro rfl
    cases ha
  · exact (nofun)

/-- Finite values that are not negative are in the order of their magnitudes. -/
theorem fin_le_fin {m n : Nat} (hm : Fits m) (hn : Fits n) :
  fin false m hm ≤ fin false n hn ↔ m ≤ n
  := by
  rw [le_iff]
  simp [place?, signed]

theorem fin_lt_fin {m n : Nat} (hm : Fits m) (hn : Fits n) :
  fin false m hm < fin false n hn ↔ m < n
  := by
  rw [lt_iff]
  simp [place?, signed]

theorem zero_le_zero :
  zero ≤ zero
  := le_refl (nofun)

/-- A number in a positive place is positive infinity or has positive sign. -/
theorem of_place {a : Double} {x : Int} (h : a.place? = some x) (hx : 0 < x) :
  (a = inf false ∧ x = overflowUnits) ∨ ∃ n hn, a = fin false n hn ∧ x = n
  := by
  cases a with
  | nan => cases h
  | inf neg =>
      cases neg with
      | false =>
          left
          exact ⟨rfl, (Option.some.inj h).symm⟩
      | true =>
          have hneg : -(overflowUnits : Int) = x := Option.some.inj h
          generalize overflowUnits = bound at hneg
          omega
  | fin neg units fits =>
      cases neg with
      | false =>
          right
          exact ⟨units, fits, rfl, (Option.some.inj h).symm⟩
      | true =>
          have hneg : -(units : Int) = x := Option.some.inj h
          omega

/-- Numbers in the same positive place are the same. -/
theorem eq_of_place {a b : Double} {x : Int} (ha : a.place? = some x) (hb : b.place? = some x)
    (hx : 0 < x) :
  a = b
  := by
  rcases of_place ha hx with ⟨rfl, hbound⟩ | ⟨n, hn, rfl, hunits⟩
  · rcases of_place hb hx with ⟨rfl, -⟩ | ⟨n, hn, rfl, hunits⟩
    · rfl
    · apply absurd hn.1
      rw [Int.ofNat.inj (hbound.symm.trans hunits)]
      apply Nat.lt_irrefl
  · rcases of_place hb hx with ⟨rfl, hbound⟩ | ⟨m, hm, rfl, hunits'⟩
    · apply absurd hn.1
      rw [Int.ofNat.inj (hbound.symm.trans hunits)]
      apply Nat.lt_irrefl
    · obtain rfl := Int.ofNat.inj (hunits.symm.trans hunits')
      rfl

/-- Of two different positive numbers one is below the other. -/
theorem lt_or_lt_of_ne {a b : Double} (ha : zero < a) (hb : zero < b) (hne : a ≠ b) :
  a < b ∨ b < a
  := by
  obtain ⟨_, x, hzero, hx, hpos⟩ := lt_iff.mp ha
  obtain ⟨y, hy⟩ := exists_place (ne_nan_of_lt_right hb)
  obtain rfl := Option.some.inj (hzero.symm.trans rfl)
  have hxy : x ≠ y := by
    rintro rfl
    apply hne (eq_of_place hx hy hpos)
  rcases Int.lt_or_gt_of_ne hxy with hlt | hlt
  · left
    apply lt_iff.mpr ⟨x, y, hx, hy, hlt⟩
  · right
    apply lt_iff.mpr ⟨y, x, hy, hx, hlt⟩

end Montage.Double
