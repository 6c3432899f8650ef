import Montage.Proofs.Double.Monotone
import Montage.Proofs.Double.Value
import Montage.Proofs.Timecode.Lossless

/-!
# Times near whole milliseconds

The stamp of a time that is not negative tells a whole number of milliseconds: the product with
a thousand is rounded, and then the nearest whole number is taken.  Later times have no smaller
numbers.  Below a hundred hours the stamp is that of a timecode, whose time is off the stamped
one by little more than half a millisecond; and these times keep the order as well.
-/

namespace Montage

namespace Double

/-- A finite number that is not negative stands at its magnitude. -/
theorem exists_fin_of_zero_le {a : Double} (hfinite : a.isFinite = true) (h : zero ≤ a) :
  ∃ s n hn, a = fin s n hn ∧ a.place? = some (n : Int) ∧ (s = true → n = 0)
  := by
  cases a with
  | nan | inf => cases hfinite
  | fin s n hn =>
      obtain ⟨x, y, hx, hy, hle⟩ := le_iff.mp h
      obtain rfl : 0 = x := Option.some.inj hx
      obtain rfl : signed s n = y := Option.some.inj hy
      cases s with
      | false => exact ⟨false, n, hn, rfl, rfl, nofun⟩
      | true =>
          have hzero : n = 0 := by
            rw [signed, if_pos rfl] at hle
            omega
          subst hzero
          exact ⟨true, 0, hn, rfl, rfl, fun _ => rfl⟩

end Double

namespace Timecode

variable {k l m n : Nat}

/-- The whole number of milliseconds that is found for a number of units. -/
def nearestMillis (n : Nat) : Nat :=
  divNearest (Double.roundUnits (n * (1000 * Double.unitsPerOne)) Double.unitsPerOne)
    Double.unitsPerOne

theorem nearestMillis_mono (h : m ≤ n) :
  nearestMillis m ≤ nearestMillis n
  := divNearest_mono Double.unitsPerOne_pos
    (Double.roundUnits_mono Double.unitsPerOne_pos (Nat.mul_le_mul_right _ h))

theorem nearestMillis_zero :
  nearestMillis 0 = 0
  := by
  have hround : Double.roundUnits (0 * (1000 * Double.unitsPerOne)) Double.unitsPerOne ≤ 0 := by
    rw [Nat.zero_mul, Double.roundUnits, Nat.le_zero, Nat.mul_eq_zero]
    left
    rw [← Nat.le_zero]
    apply divNearest_le (Nat.mul_pos Double.unitsPerOne_pos (Double.spacing_pos _))
    exact Nat.zero_le _
  rw [nearestMillis, Nat.le_zero.mp hround, ← Nat.le_zero]
  exact divNearest_le Double.unitsPerOne_pos (Nat.zero_le _)

/-- A stamp shows the milliseconds found for the units of its time. -/
theorem millisOf_eq_ok {time : Double} {millis : Int} (hfinite : time.isFinite = true)
    (hzero : .zero ≤ time) (h : millisOf time = .ok millis) :
  ∃ n : Nat, time.place? = some (n : Int) ∧ millis = nearestMillis n
  := by
  obtain ⟨s, n, hn, rfl, hplace, hs⟩ := Double.exists_fin_of_zero_le hfinite hzero
  obtain ⟨hK, hthousand⟩ := Double.ofInt_natCast (n := 1000) (by decide)
  have hthousand' : Double.ofInt 1000 = .fin false (1000 * Double.unitsPerOne) hK := hthousand
  refine ⟨n, hplace, ?_⟩
  rw [millisOf, hthousand', Double.fin_mul_fin, Bool.bne_false] at h
  by_cases hlarge : Double.roundUnits (n * (1000 * Double.unitsPerOne)) Double.unitsPerOne
      < Double.overflowUnits
  · rw [Double.ofUnits, dif_pos hlarge] at h
    obtain rfl := Except.ok.inj h
    cases s with
    | false => rfl
    | true =>
        rw [hs rfl, ← nearestMillis, nearestMillis_zero]
        rfl
  · rw [Double.ofUnits, dif_neg hlarge] at h
    cases h

/-- The milliseconds found for less than a hundred hours are little more than half of one off. -/
theorem nearestMillis_error (h : nearestMillis n < 360000000) :
  2000 * n ≤ 2 * (nearestMillis n * Double.unitsPerOne) + Double.unitsPerOne
      + 536870912 * errorUnit
    ∧ 2 * (nearestMillis n * Double.unitsPerOne)
      ≤ 2000 * n + Double.unitsPerOne + 536870912 * errorUnit
  := by
  have hU := Double.unitsPerOne_pos
  have hunits := unitsPerOne_eq
  have h1050 : Double.twoPow 1050 = 536870912 * errorUnit := twoPow_eq (k := 29) rfl (by decide)
  have h1103 : Double.twoPow (1050 + 53) = 4835703278458516698824704 * errorUnit :=
    twoPow_eq (k := 82) rfl (by decide)
  have hscaled : n * (1000 * Double.unitsPerOne) = 1000 * n * Double.unitsPerOne := by ring
  obtain ⟨hlow, hhigh⟩ := divNearest_error
    (Double.roundUnits (n * (1000 * Double.unitsPerOne)) Double.unitsPerOne) _ hU
  rw [← nearestMillis] at hlow hhigh
  have hmillis : nearestMillis n * Double.unitsPerOne ≤ 360000000 * Double.unitsPerOne :=
    Nat.mul_le_mul_right _ (Nat.le_of_lt h)
  rw [hscaled] at hlow hhigh
  -- The product is below 2²⁹ seconds, since it is not rounded beyond.
  have hsmall : 1000 * n < Double.twoPow (1050 + 53) := by
    apply Nat.lt_of_mul_lt_mul_right
    apply Double.lt_of_roundUnits_lt hU
    omega
  obtain ⟨hlow', hhigh'⟩ := Double.roundUnits_mul_error hU hsmall
  omega

/-! ### The times of whole milliseconds -/

theorem ofTotal_proper (h : k < 360000000) :
  (ofTotal k).Proper
  := by
  constructor <;> simp only [ofTotal] <;> omega

theorem total_ofTotal (k : Nat) :
  (ofTotal k).total = k
  := by
  simp only [ofTotal, total]
  omega

theorem stamp_ofTotal (h : k < 360000000) :
  stamp (ofTotal k).time = .ok (ofMillis k)
  := by
  rw [stamp_time (ofTotal_proper h), ← total_eq, total_ofTotal]

/-- The time of a number of milliseconds, in units. -/
theorem exists_time_ofTotal (h : k < 360000000) :
  ∃ c hc, (ofTotal k).time = .fin false c hc
    ∧ 2000 * c ≤ 2 * (k * Double.unitsPerOne) + 524289000 * errorUnit
    ∧ 2 * (k * Double.unitsPerOne) ≤ 2000 * c + 524289000 * errorUnit
  := by
  obtain ⟨b, c, hc, htime, hb, hb', hc₁, hc₂⟩ := (ofTotal_proper h).time_approximates
  have htotal : k * Double.unitsPerOne = 1000 * ((ofTotal k).wholeSeconds * Double.unitsPerOne)
      + (ofTotal k).millis * Double.unitsPerOne := by
    rw [← Nat.mul_assoc, ← Nat.add_mul, ← total_eq, total_ofTotal]
  refine ⟨c, hc, htime, ?_, ?_⟩ <;> omega

theorem time_ofTotal_mono (h : k ≤ l) (hl : l < 360000000) :
  (ofTotal k).time ≤ (ofTotal l).time
  := by
  obtain ⟨c, hc, htime, hlow, hhigh⟩ := exists_time_ofTotal (Nat.lt_of_le_of_lt h hl)
  obtain ⟨c', hc', htime', hlow', hhigh'⟩ := exists_time_ofTotal hl
  rcases Nat.lt_or_eq_of_le h with hlt | rfl
  · have hunits := unitsPerOne_eq
    have hstep : (k + 1) * Double.unitsPerOne ≤ l * Double.unitsPerOne :=
      Nat.mul_le_mul_right _ hlt
    rw [Nat.succ_mul] at hstep
    rw [htime, htime', Double.fin_le_fin]
    omega
  · rw [htime]
    exact Double.le_refl nofun

/-! ### Times that are shown -/

/-- A time of which the stamp takes two digits for its hours. -/
structure Stampable (time : Double) : Prop where
  finite : time.isFinite = true
  nonneg : .zero ≤ time
  below : ∃ millis, millisOf time = .ok millis ∧ millis < 360000000

/-- A time, and the number of milliseconds that its stamp shows. -/
structure Shows (time : Double) (k : Nat) : Prop where
  finite : time.isFinite = true
  units : ∃ n : Nat, time.place? = some (n : Int) ∧ nearestMillis n = k
  below : k < 360000000
  stamp : Timecode.stamp time = .ok (ofMillis k)

theorem Stampable.shows {time : Double} (h : Stampable time) :
  ∃ k, Shows time k
  := by
  obtain ⟨millis, hmillis, hlt⟩ := h.below
  obtain ⟨n, hplace, rfl⟩ := millisOf_eq_ok h.finite h.nonneg hmillis
  refine ⟨nearestMillis n, h.finite, ⟨n, hplace, rfl⟩, by exact_mod_cast hlt, ?_⟩
  rw [Timecode.stamp, hmillis]
  rfl

/-- The stamp of a later time shows no less. -/
theorem Shows.le {a b : Double} (ha : Shows a k) (hb : Shows b l) (h : a ≤ b) :
  k ≤ l
  := by
  obtain ⟨m, hm, rfl⟩ := ha.units
  obtain ⟨n, hn, rfl⟩ := hb.units
  rw [Double.le_iff_of_place hm hn] at h
  exact nearestMillis_mono (by exact_mod_cast h)

/-- What is shown is little more than half a millisecond off. -/
theorem Shows.abs_sub_le {time : Double} (h : Shows time k) :
  |(ofTotal k).time.value - time.value| ≤ 51 / 100000
  := by
  have hunits := unitsPerOne_eq
  have hw := errorUnit_pos
  have hbelow := h.below
  obtain ⟨n, hplace, rfl⟩ := h.units
  obtain ⟨c, hc, htime, hlow, hhigh⟩ := exists_time_ofTotal hbelow
  obtain ⟨hlow', hhigh'⟩ := nearestMillis_error hbelow
  have hle : 100000 * c ≤ 100000 * n + 51 * Double.unitsPerOne := by omega
  have hge : 100000 * n ≤ 100000 * c + 51 * Double.unitsPerOne := by omega
  have hle' : (100000 * c : ℚ) ≤ 100000 * n + 51 * Double.unitsPerOne := by exact_mod_cast hle
  have hge' : (100000 * n : ℚ) ≤ 100000 * c + 51 * Double.unitsPerOne := by exact_mod_cast hge
  have hdiff : |(c : ℚ) - n| ≤ 51 / 100000 * Double.unitsPerOne := by
    rw [abs_le]
    constructor <;> linarith
  rw [htime, Double.value_fin, Double.value_of_place h.finite hplace, Int.cast_natCast, ← sub_div,
    abs_div, abs_of_pos Double.unitsPerOne_pos', div_le_iff₀ Double.unitsPerOne_pos']
  exact hdiff

end Timecode

end Montage
