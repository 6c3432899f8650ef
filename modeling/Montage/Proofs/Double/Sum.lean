import Montage.Proofs.Double.Error
import Montage.Proofs.Double.Order

/-!
# Sums with and without compensation

A runtime that makes up for what is rounded off a sum gets the plain sum of a list and, added to
it in the end, what was rounded off.  Where no addition is rounded there is nothing to be made
up for, and the two sums are the same number: `sum_of_unrounded`.
-/

namespace Montage.Double

/-! ### Whole numbers of units -/

/-- A finite number of a given place. -/
structure Measures (a : Double) (x : Int) : Prop where
  finite : a.isFinite = true
  place : a.place? = some x

namespace Measures

variable {a b : Double} {x y : Int}

/-- The units of a finite number make up a magnitude. -/
theorem fits (ha : a.Measures x) :
  Fits x.natAbs
  := by
  obtain ⟨hfinite, hplace⟩ := ha
  cases a with
  | nan | inf => cases hfinite
  | fin neg units hfits =>
      obtain rfl := Option.some.inj hplace
      have habs : (signed neg units).natAbs = units := by
        cases neg
        · exact Int.natAbs_natCast units
        · exact (Int.natAbs_neg _).trans (Int.natAbs_natCast units)
      rw [habs]
      exact hfits

theorem neg (ha : a.Measures x) :
  a.neg.Measures (-x)
  := by
  obtain ⟨hfinite, hplace⟩ := ha
  cases a with
  | nan | inf => cases hfinite
  | fin neg units hfits =>
      obtain rfl := Option.some.inj hplace
      refine ⟨rfl, congrArg some ?_⟩
      cases neg <;> simp [signed]

theorem ofSignedUnits (zeroSign : Bool) (h : Fits x.natAbs) :
  (ofSignedUnits zeroSign x).Measures x
  := by
  rw [Double.ofSignedUnits]
  split
  · rename_i hzero
    subst hzero
    cases zeroSign <;> exact ⟨rfl, rfl⟩
  · rw [ofUnits_of_fits _ h]
    refine ⟨rfl, congrArg some ?_⟩
    by_cases hneg : x < 0
    · rw [signed, decide_eq_true hneg, if_pos rfl, Int.ofNat_natAbs_of_nonpos (Int.le_of_lt hneg),
        Int.neg_neg]
    · rw [signed, decide_eq_false hneg, if_neg Bool.false_ne_true,
        Int.natAbs_of_nonneg (Int.not_lt.mp hneg)]

/-- A sum whose units make up a magnitude is not rounded. -/
theorem add (ha : a.Measures x) (hb : b.Measures y) (h : Fits (x + y).natAbs) :
  (a + b).Measures (x + y)
  := by
  obtain ⟨hfinite, hplace⟩ := ha
  obtain ⟨hfinite', hplace'⟩ := hb
  cases a with
  | nan | inf => cases hfinite
  | fin s m hm =>
      cases b with
      | nan | inf => cases hfinite'
      | fin t n hn =>
          obtain rfl := Option.some.inj hplace
          obtain rfl := Option.some.inj hplace'
          rw [fin_add_fin]
          exact ofSignedUnits _ h

theorem sub (ha : a.Measures x) (hb : b.Measures y) (h : Fits (x - y).natAbs) :
  (a - b).Measures (x - y)
  := ha.add hb.neg h

end Measures

theorem measures_zero :
  zero.Measures 0
  := ⟨rfl, rfl⟩

/-- Nothing is left if a sum is taken from one summand and the other one is added. -/
theorem Measures.sub_add {a b c : Double} {x y : Int} (ha : a.Measures x) (hb : b.Measures y)
    (hc : c.Measures (x + y)) :
  (a - c + b).Measures 0
  := by
  -- Each step comes to a magnitude that is there already, so nothing is rounded on the way.
  have hless : x - (x + y) = -y := by omega
  have hnone : x - (x + y) + y = 0 := by omega
  have hdiff := ha.sub hc (hless ▸ hb.neg.fits)
  exact hnone ▸ hdiff.add hb (hnone ▸ measures_zero.fits)

/-! ### What is rounded off -/

/-- The sum of two finite numbers that is not rounded. -/
def Exact (a b : Double) : Prop :=
  ∃ x y, a.Measures x ∧ b.Measures y ∧ (a + b).Measures (x + y)

/-- No addition is rounded when numbers are added to another one from the left. -/
def Unrounded (total : Double) : List Double → Prop
  | [] => True
  | x :: rest => Exact total x ∧ Unrounded (total + x) rest

/-- Nothing is rounded off a sum that is not rounded. -/
theorem Exact.measures_roundedOff {a b : Double} (h : Exact a b) :
  (roundedOff a b).Measures 0
  := by
  obtain ⟨x, y, ha, hb, hsum⟩ := h
  rw [roundedOff]
  split
  · exact ha.sub_add hb hsum
  · exact hb.sub_add ha (Int.add_comm x y ▸ hsum)

namespace Tally

variable {t : Tally} {l : List Double}

/-- What is rounded off on the way does not enter the sum itself. -/
theorem total_foldl_add (t : Tally) (l : List Double) :
  (l.foldl add t).total = l.foldl (· + ·) t.total
  := by
  induction l generalizing t with
  | nil => rfl
  | cons x rest ih => exact ih (t.add x)

/-- Nothing is lost where no addition is rounded. -/
theorem measures_lost (ht : t.lost.Measures 0) (h : Unrounded t.total l) :
  (l.foldl add t).lost.Measures 0
  := by
  induction l generalizing t with
  | nil => exact ht
  | cons x rest ih =>
      obtain ⟨hx, hrest⟩ := h
      exact ih (ht.add hx.measures_roundedOff measures_zero.fits) hrest

theorem settled_of_measures_zero (h : t.lost.Measures 0) :
  t.settled = t.total
  := by
  have hnone : t.lost.equals zero = true := equals_iff.mpr ⟨0, h.place, rfl⟩
  rw [settled, hnone, Bool.not_true, Bool.and_false, if_neg Bool.false_ne_true]

end Tally

variable (l : List Double)

/-- The compensated sum is the plain one, with what was rounded off on the way. -/
theorem sum_compensated :
  sum .compensated l = Tally.settled ⟨sum .plain l, (tally l).lost⟩
  := by
  rw [sum, sum, ← Tally.total_foldl_add {} l]
  rfl

/-- Where no addition is rounded, all runtimes add up to the same number. -/
theorem sum_of_unrounded (h : Unrounded zero l) (how : Summation) :
  sum how l = sum .plain l
  := by
  cases how with
  | plain => rfl
  | compensated =>
      have hlost : (tally l).lost.Measures 0 := Tally.measures_lost measures_zero h
      rw [sum_compensated]
      exact Tally.settled_of_measures_zero hlost

/-- Ten tenths are rounded off to less than 1, which is made up for by compensation. -/
example :
  sum .compensated (List.replicate 10 (quotient 1 10)) = ofInt 1
    ∧ sum .plain (List.replicate 10 (quotient 1 10)) < ofInt 1
  := by decide +kernel

end Montage.Double
