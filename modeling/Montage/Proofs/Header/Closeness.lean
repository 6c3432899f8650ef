import Montage.Proofs.Double.Value
import Montage.Proofs.Header.WellFormed

/-!
# Fractions that stay close

A fraction from 0 to 1 is written with at most four places.  The decimal that is written differs
from it by at most half of the last place, unless four places would show it as 1 although it is
below: then 0 is written.  What is read again is the double nearest to the decimal.
-/

namespace Montage.Header

open Directive (FractionText readFraction?)

/-- What is below 1 but is 1 when it is rounded to four places. -/
def RoundsUp (x : Double) : Prop :=
  19999 / 20000 < x.value ∧ x.value < 1

/-- What is read where a fraction was written. -/
structure Kept (x x' : Double) : Prop where
  text : ∃ n, FractionText (renderFraction x).toList n ∧ x' = .ofDecimal false n
    ∧ (|n.value - x.value| ≤ 1 / 20000 ↔ ¬ RoundsUp x)
  near : ¬ RoundsUp x → |x'.value - x.value| ≤ 1 / 20000 + 1 / 2 ^ 54
  lost : RoundsUp x → x' = .zero

variable {x : Double} {n : Double.Decimal}

/-! ### The decimal that is written -/

theorem value_decimal_zero :
  Double.Decimal.value ⟨0, 0⟩ = 0
  := by
  simp [Double.Decimal.value, Double.Decimal.num]

/-- A decimal within half of the last place is kept, and so is a zero for what rounds up. -/
theorem Kept.intro (htext : FractionText (renderFraction x).toList n)
    (hread : |(Double.ofDecimal false n).value - n.value| ≤ 1 / 2 ^ 54)
    (h : (¬ RoundsUp x ∧ |n.value - x.value| ≤ 1 / 20000) ∨ (RoundsUp x ∧ n = ⟨0, 0⟩)) :
  Kept x (.ofDecimal false n)
  := by
  rcases h with ⟨hdown, hclose⟩ | ⟨hup, rfl⟩
  · refine ⟨⟨n, htext, rfl, iff_of_true hclose hdown⟩, fun _ => ?_, fun hup => absurd hup hdown⟩
    have htriangle := abs_sub_le (Double.ofDecimal false n).value n.value x.value
    linarith
  · refine ⟨⟨_, htext, rfl, iff_of_false ?_ (not_not_intro hup)⟩, absurd hup, fun _ => rfl⟩
    rw [value_decimal_zero, zero_sub, abs_neg, not_le]
    apply lt_of_lt_of_le _ (le_abs_self _)
    exact lt_trans (by norm_num) hup.1

/-- A number from 0 to 1 is at one of the ends or strictly between them. -/
theorem unit_cases (hzero : Double.zero ≤ x) (hone : x ≤ Double.ofInt 1) :
  (x.value = 0 ∧ renderFraction x = "0") ∨ (x.value = 1 ∧ renderFraction x = "1.0")
    ∨ ∃ r h, x = .fin false r h ∧ 0 < r ∧ r < Double.unitsPerOne
  := by
  obtain ⟨p, hp, hfinite, hlow, hhigh⟩ := Double.exists_place_unit hzero hone
  have hvalue := Double.value_of_place hfinite hp
  have hunit := Double.place?_ofInt_one
  have hunits := Double.unitsPerOne_pos
  rcases Int.lt_or_eq_of_le hlow with hpos | rfl
  · rcases Int.lt_or_eq_of_le hhigh with hlt | rfl
    · rcases Double.of_place hp hpos with ⟨rfl, -⟩ | ⟨r, h, rfl, rfl⟩
      · cases hfinite
      · exact .inr (.inr ⟨r, h, rfl, Int.natCast_pos.mp hpos, Int.ofNat_lt.mp hlt⟩)
    · refine .inr (.inl ⟨?_, if_pos ((Double.le_iff_of_place hunit hp).mpr (Int.le_refl _))⟩)
      rw [hvalue, Int.cast_natCast, div_self (ne_of_gt Double.unitsPerOne_pos')]
  · have hbelow : ¬ Double.ofInt 1 ≤ x := by
      rw [Double.le_iff_of_place hunit hp]
      omega
    refine .inl ⟨?_, ?_⟩
    · rw [hvalue, Int.cast_zero, zero_div]
    · rw [renderFraction, if_neg hbelow]
      exact if_pos ((Double.le_iff_of_place hp rfl).mpr (Int.le_refl 0))

variable {r k : Nat}

/-- No double is halfway between 1 and the number of ten-thousandths below it. -/
theorem value_ne_halfway (h : Double.Fits r) :
  (Double.fin false r h).value ≠ 19999 / 20000
  := by
  have hmod : Double.unitsPerOne % 5 = 4 := by decide +kernel
  rw [Double.value_fin, ne_eq, div_eq_div_iff (ne_of_gt Double.unitsPerOne_pos') (by norm_num)]
  intro heq
  have heq' : r * 20000 = 19999 * Double.unitsPerOne := by exact_mod_cast heq
  generalize Double.unitsPerOne = u at hmod heq'
  omega

/-- What rounds to 0 or 1 is written as 0. -/
theorem renderFraction_whole (h : Double.Fits r) (hpos : 0 < r) (hlt : r < Double.unitsPerOne)
    (hround : divNearest (r * Nat.pow 10 4) Double.unitsPerOne = k) (hk : k = 0 ∨ k = 10000) :
  renderFraction (.fin false r h) = "0"
  := by
  rw [renderFraction_between h hpos hlt, toFixed_four h hround]
  rcases hk with rfl | rfl <;> decide

/-- Below 1, what rounds up to 1 is what four places show as 1. -/
theorem roundsUp_iff (h : Double.Fits r) (hlt : r < Double.unitsPerOne)
    (hround : divNearest (r * Nat.pow 10 4) Double.unitsPerOne = k) :
  k ≤ 10000 ∧ (RoundsUp (.fin false r h) ↔ k = 10000)
  := by
  have hclose := abs_le.mp (Double.abs_round_sub_le h hround)
  have hbelow : (Double.fin false r h).value < 1 := by
    rw [Double.value_fin, div_lt_one Double.unitsPerOne_pos']
    exact_mod_cast hlt
  have hk : k ≤ 10000 := by
    have hfour : Nat.pow 10 4 = 10000 := rfl
    rw [← hround, hfour]
    apply divNearest_le Double.unitsPerOne_pos
    rw [Nat.mul_comm]
    exact Nat.mul_le_mul_left _ hlt.le
  refine ⟨hk, fun hup => ?_, ?_⟩
  · by_contra hne
    have hk' : (k : ℚ) ≤ 9999 := by exact_mod_cast (by omega : k ≤ 9999)
    linarith [hup.1, hclose.2]
  · rintro rfl
    have hle : 19999 / 20000 ≤ (Double.fin false r h).value := by
      have hhigh := hclose.2
      push_cast at hhigh
      linarith
    exact ⟨lt_of_le_of_ne hle (value_ne_halfway h).symm, hbelow⟩

theorem value_read_zero :
  |(Double.ofDecimal false ⟨0, 0⟩).value - Double.Decimal.value ⟨0, 0⟩| ≤ 1 / 2 ^ 54
  := by
  have hread : Double.ofDecimal false ⟨0, 0⟩ = Double.zero := rfl
  rw [hread, Double.value_zero, value_decimal_zero, sub_zero, abs_zero]
  positivity

/-- Between 0 and 1, four places are written as the number of ten-thousandths that they show. -/
theorem exists_fractionText (h : Double.Fits r) (hpos : 0 < r) (hlt : r < Double.unitsPerOne)
    (hround : divNearest (r * Nat.pow 10 4) Double.unitsPerOne = k) (hkpos : 0 < k)
    (hklt : k < 10000) :
  ∃ n, FractionText (renderFraction (.fin false r h)).toList n ∧ n.value = k / 10000
    ∧ Double.ofDecimal false n = Double.quotient k 10000
  := by
  obtain ⟨digits, j, hplaces, hdigits, hnil, hlength, hvalue⟩ :=
    toList_renderFraction h hpos hlt hround hkpos hklt
  have hpoint : FractionText (['0'] ++ '.' :: digits) _ :=
    .point (.inr rfl) (Directive.areDigits_of_isDigit hnil hdigits)
  have hread := ofDecimal_places hdigits hlength hvalue hkpos hklt
  rw [Int.zero_sub] at hread
  refine ⟨⟨Text.digitsValue digits, -digits.length⟩, hplaces ▸ hpoint, ?_, hread⟩
  have hten : (10000 : ℚ) = 10 ^ digits.length * 10 ^ j := by
    rw [← pow_add, hlength]
    norm_num
  rw [Double.Decimal.value_neg, Text.digitsValue_eq hdigits, ← hvalue, hten]
  push_cast
  field_simp

theorem exists_kept_between (h : Double.Fits r) (hpos : 0 < r) (hlt : r < Double.unitsPerOne) :
  ∃ n, FractionText (renderFraction (.fin false r h)).toList n
    ∧ Kept (.fin false r h) (.ofDecimal false n)
  := by
  obtain ⟨k, hround⟩ : ∃ k, divNearest (r * Nat.pow 10 4) Double.unitsPerOne = k := ⟨_, rfl⟩
  obtain ⟨hk, hup⟩ := roundsUp_iff h hlt hround
  have hclose := Double.abs_round_sub_le h hround
  by_cases hwhole : k = 0 ∨ k = 10000
  · have htext : FractionText (renderFraction (.fin false r h)).toList ⟨0, 0⟩ := by
      rw [renderFraction_whole h hpos hlt hround hwhole]
      exact .zero
    refine ⟨_, htext, Kept.intro htext value_read_zero ?_⟩
    rcases hwhole with rfl | rfl
    · left
      rw [Nat.cast_zero, zero_div] at hclose
      rw [value_decimal_zero, hup]
      exact ⟨by decide, hclose⟩
    · exact .inr ⟨hup.mpr rfl, rfl⟩
  · have hkpos : 0 < k := by omega
    have hklt : k < 10000 := by omega
    obtain ⟨n, htext, hvalue, hread⟩ := exists_fractionText h hpos hlt hround hkpos hklt
    refine ⟨n, htext, Kept.intro htext ?_ (.inl ⟨?_, ?_⟩)⟩
    · rw [hread, hvalue]
      exact Double.abs_quotient_sub_le hklt
    · rw [hup]
      exact ne_of_lt hklt
    · rw [hvalue]
      exact hclose

/-- Every fraction from 0 to 1 is read where it was written, and kept. -/
theorem exists_kept (hzero : Double.zero ≤ x) (hone : x ≤ Double.ofInt 1) :
  ∃ n, FractionText (renderFraction x).toList n ∧ Kept x (.ofDecimal false n)
  := by
  rcases unit_cases hzero hone with ⟨hvalue, htext⟩ | ⟨hvalue, htext⟩ | ⟨r, h, rfl, hpos, hlt⟩
  · have htext' : FractionText (renderFraction x).toList ⟨0, 0⟩ := by
      rw [htext]
      exact .zero
    refine ⟨_, htext', Kept.intro htext' value_read_zero (.inl ⟨?_, ?_⟩)⟩
    · rintro ⟨hlow, -⟩
      rw [hvalue] at hlow
      norm_num at hlow
    · rw [value_decimal_zero, hvalue]
      norm_num
  · have htext' : FractionText (renderFraction x).toList ⟨10, -1⟩ := by
      rw [htext]
      exact .oneTenths
    have hread : Double.ofDecimal false ⟨10, -1⟩ = .ofInt 1 := by decide +kernel
    have hdecimal : Double.Decimal.value ⟨10, -1⟩ = 1 := by
      have hneg := Double.Decimal.value_neg 10 1
      norm_num at hneg
      exact hneg
    refine ⟨_, htext', Kept.intro htext' ?_ (.inl ⟨?_, ?_⟩)⟩
    · rw [hread, Double.value_ofInt_one, hdecimal]
      norm_num
    · rintro ⟨-, hhigh⟩
      rw [hvalue] at hhigh
      exact lt_irrefl 1 hhigh
    · rw [hdecimal, hvalue]
      norm_num
  · exact exists_kept_between h hpos hlt

/-! ### Configurations -/

/-- A configuration that is written is read with its fractions kept. -/
theorem exists_split_render {c : Config} (h : c.WellFormed) :
  ∃ alpha titleX titleY subtitleY, Kept c.backgroundAlpha alpha ∧ Kept c.titleX titleX
    ∧ Kept c.titleY titleY ∧ Kept c.subtitleY subtitleY
    ∧ ∀ b, split (render c ++ b) = ({ c with
      backgroundAlpha := alpha, titleX := titleX, titleY := titleY, subtitleY := subtitleY }, 15)
  := by
  obtain ⟨alpha, halpha, halpha'⟩ := exists_kept (h .backgroundAlpha).1 (h .backgroundAlpha).2
  obtain ⟨titleX, htitleX, htitleX'⟩ := exists_kept (h .titleX).1 (h .titleX).2
  obtain ⟨titleY, htitleY, htitleY'⟩ := exists_kept (h .titleY).1 (h .titleY).2
  obtain ⟨subtitleY, hsubtitleY, hsubtitleY'⟩ := exists_kept (h .subtitleY).1 (h .subtitleY).2
  refine ⟨_, _, _, _, halpha', htitleX', htitleY', hsubtitleY', split_of_readsAs ?_⟩
  intro d
  cases d with
  | project => exact Directive.reads_name (h .project)
  | font => exact Directive.reads_name (h .font)
  | resolution => exact Directive.reads_sides (h .resolution).1 (h .resolution).2
  | frameRate => exact Directive.reads_count (h .frameRate)
  | fontSize => exact Directive.reads_count (h .fontSize)
  | titleFontSize => exact Directive.reads_count (h .titleFontSize)
  | subtitleFontSize => exact Directive.reads_count (h .subtitleFontSize)
  | titleColor => exact Directive.reads_color (h .titleColor)
  | subtitleColor => exact Directive.reads_color (h .subtitleColor)
  | freeTextColor => exact Directive.reads_color (h .freeTextColor)
  | backgroundAlpha => exact (Directive.Kind.Form.fraction halpha).reads_of_ne (by decide)
  | titleX => exact (Directive.Kind.Form.fraction htitleX).reads_of_ne (by decide)
  | titleY => exact (Directive.Kind.Form.fraction htitleY).reads_of_ne (by decide)
  | subtitleY => exact (Directive.Kind.Form.fraction hsubtitleY).reads_of_ne (by decide)

/-- Every fraction from 0 to 1 can be read where it was written.  The decimal that is written
differs from it by at most half of the fourth place exactly if it does not round up to 1, and 0 is
read for what does.  So the configuration of a text that is written and read changes in no more
than its fractions, and these are kept. -/
theorem fractions_kept (x : Double) (text b : String) :
  (Double.zero ≤ x → x ≤ Double.ofInt 1 →
      ∃ x', readFraction? (renderFraction x).toList = some x' ∧ Kept x x')
    ∧ ∃ alpha titleX titleY subtitleY,
      Kept (split text).1.backgroundAlpha alpha ∧ Kept (split text).1.titleX titleX
        ∧ Kept (split text).1.titleY titleY ∧ Kept (split text).1.subtitleY subtitleY
        ∧ split (render (split text).1 ++ b) = ({ (split text).1 with
          backgroundAlpha := alpha, titleX := titleX, titleY := titleY,
          subtitleY := subtitleY }, 15)
  := by
  constructor
  · intro hzero hone
    obtain ⟨n, htext, hkept⟩ := exists_kept hzero hone
    exact ⟨_, Directive.readFraction?_of_fractionText htext, hkept⟩
  · obtain ⟨alpha, titleX, titleY, subtitleY, halpha, htitleX, htitleY, hsubtitleY, hsplit⟩ :=
      exists_split_render (wellFormed_split text)
    exact ⟨alpha, titleX, titleY, subtitleY, halpha, htitleX, htitleY, hsubtitleY, hsplit b⟩

/-- Whether a number rounds up can be seen from its place. -/
theorem roundsUp_iff_of_place {p : Int} (hfinite : x.isFinite = true) (hp : x.place? = some p) :
  RoundsUp x ↔ 19999 * (Double.unitsPerOne : Int) < 20000 * p ∧ p < Double.unitsPerOne
  := by
  have hunits := Double.unitsPerOne_pos'
  rw [RoundsUp, Double.value_of_place hfinite hp]
  generalize Double.unitsPerOne = units at hunits
  rw [div_lt_div_iff₀ (by norm_num) hunits, div_lt_one hunits, mul_comm (p : ℚ)]
  norm_cast

/-- A third is written with four places and kept, and so is one of five places in a configuration
that is written and read. -/
theorem fractions_kept_third :
  Double.zero ≤ .quotient 1 3 ∧ Double.quotient 1 3 ≤ .ofInt 1 ∧ ¬ RoundsUp (.quotient 1 3)
    ∧ renderFraction (.quotient 1 3) = "0.3333"
    ∧ readFraction? "0.3333".toList = some (.quotient 3333 10000)
    ∧ Kept (.quotient 1 3) (.quotient 3333 10000)
    ∧ (split "TITLE_POSITION_X 0.33333\n===").1.titleX = .ofDecimal false ⟨33333, -5⟩
    ∧ Kept (.ofDecimal false ⟨33333, -5⟩)
      (split (render (split "TITLE_POSITION_X 0.33333\n===").1 ++ "CUT 1:00")).1.titleX
  := by
  have hzero : Double.zero ≤ .quotient 1 3 := by decide +kernel
  have hone : Double.quotient 1 3 ≤ .ofInt 1 := by decide +kernel
  have hplace : (Double.quotient 1 3).place?.any (fun p =>
      ¬ (19999 * (Double.unitsPerOne : Int) < 20000 * p ∧ p < Double.unitsPerOne)) = true := by
    decide +kernel
  obtain ⟨p, hp, hbounds⟩ := (Option.any_eq_true _ _).mp hplace
  have hdown : ¬ RoundsUp (.quotient 1 3) := by
    rw [roundsUp_iff_of_place (by decide +kernel) hp]
    exact of_decide_eq_true hbounds
  have htext : renderFraction (.quotient 1 3) = "0.3333" := by decide +kernel
  have hread : readFraction? "0.3333".toList = some (.quotient 3333 10000) := by decide +kernel
  have hset : (split "TITLE_POSITION_X 0.33333\n===").1.titleX
      = .ofDecimal false ⟨33333, -5⟩ := by
    decide +kernel
  obtain ⟨hkept, alpha, titleX, titleY, subtitleY, -, htitleX, -, -, hsplit⟩ :=
    fractions_kept (.quotient 1 3) "TITLE_POSITION_X 0.33333\n===" "CUT 1:00"
  obtain ⟨x', hx', hthird⟩ := hkept hzero hone
  rw [htext, hread, Option.some.injEq] at hx'
  rw [← hx'] at hthird
  rw [hset] at htitleX
  refine ⟨hzero, hone, hdown, htext, hread, hthird, hset, ?_⟩
  rw [hsplit]
  exact htitleX

/-- The double nearest to 0.99999. -/
def almostOne : Double :=
  .ofDecimal false ⟨99999, -5⟩

theorem almostOne_roundsUp :
  RoundsUp almostOne
  := by
  have hplace : almostOne.place?.any (fun p => 19999 * (Double.unitsPerOne : Int) < 20000 * p
      ∧ p < Double.unitsPerOne) = true := by decide +kernel
  obtain ⟨p, hp, hbounds⟩ := (Option.any_eq_true _ _).mp hplace
  exact (roundsUp_iff_of_place (by decide +kernel) hp).mpr (of_decide_eq_true hbounds)

/-- The text 0 denotes nothing but zero. -/
theorem value_of_zero (h : FractionText ['0'] n) :
  n.value = 0
  := by
  generalize hcs : ['0'] = cs at h
  cases h with
  | zero => exact value_decimal_zero
  | one | oneTenths => cases hcs
  | point hfront => rcases hfront with rfl | rfl <;> cases hcs

/-- A text sets the opacity to 0.99999; when its configuration is written and read, it is 0. -/
theorem almostOne_lost :
  (¬ ∀ x, Double.zero ≤ x → x ≤ Double.ofInt 1 →
      ∃ n, FractionText (renderFraction x).toList n ∧ |n.value - x.value| ≤ 1 / 20000)
    ∧ (split "DEFAULT_BACKGROUND_ALPHA 0.99999\n===").1.backgroundAlpha = almostOne
    ∧ (split (render (split "DEFAULT_BACKGROUND_ALPHA 0.99999\n===").1)).1.backgroundAlpha
      = Double.zero
  := by
  have halpha : (split "DEFAULT_BACKGROUND_ALPHA 0.99999\n===").1.backgroundAlpha = almostOne := by
    decide +kernel
  refine ⟨?_, halpha, ?_⟩
  · intro hclose
    obtain ⟨n, htext, hn⟩ := hclose almostOne (by decide +kernel) (by decide +kernel)
    have hzero : (renderFraction almostOne).toList = ['0'] := by decide +kernel
    rw [value_of_zero (hzero ▸ htext), zero_sub, abs_neg] at hn
    have hup := almostOne_roundsUp.1
    have hle := le_trans (le_abs_self _) hn
    linarith
  · obtain ⟨alpha, _, _, _, hkept, -, -, -, hsplit⟩ :=
      exists_split_render (wellFormed_split "DEFAULT_BACKGROUND_ALPHA 0.99999\n===")
    have hread := hsplit ""
    rw [String.append_empty] at hread
    rw [hread]
    exact hkept.lost (halpha ▸ almostOne_roundsUp)

end Montage.Header
