import Mathlib.Tactic.IntervalCases
import Montage.Proofs.Header.Meaning

/-!
# Configurations of headers

Every value that a line can give has more than the form of its kind: integers are positive and
short enough to be written, colours have capital letters, and fractions are numbers from 0 to 1.
So the configuration of every text is well formed.
-/

namespace Montage

open Directive (Kind Value valueIn numeral? areDigits_iff isHexDigit FractionText)

/-- The values that a kind admits. -/
def Directive.Kind.Admits : Kind → Value → Prop
  | name, .text s => IsName s
  | sides, .sides width height => IsCount width ∧ IsCount height
  | count, .count n => IsCount n
  | color, .text s => IsColor s
  | fraction, .fraction x => Double.zero ≤ x ∧ x ≤ Double.ofInt 1
  | _, _ => False

/-- Every directive has a value that its kind admits. -/
def Config.WellFormed (c : Config) : Prop :=
  ∀ d : Directive, d.kind.Admits (d.valueIn c)

namespace Directive

variable {cs : List Char} {v : Value}

/-! ### Values of lines -/

theorem isCount_of_numeral? {n : Int} (h : numeral? cs = some n) :
  IsCount n
  := by
  rw [numeral?] at h
  split at h
  · rename_i hadmissible
    obtain ⟨hlength, hpos⟩ := hadmissible
    cases h
    have hlt : Text.digitsValue cs < Nat.pow 10 Fault.maxDigits := by
      generalize Fault.maxDigits = max at hlength ⊢
      exact Nat.lt_of_lt_of_le (Text.digitsValue_lt cs)
        (Nat.pow_le_pow_right (by decide) hlength)
    refine ⟨Int.natCast_pos.mpr hpos, ?_⟩
    rw [Text.isWritable, Int.natAbs_natCast]
    exact decide_eq_true hlt
  · cases h

/-- The capital of a hexadecimal digit is one without small letters. -/
theorem toUpper_of_isHexDigit {c : Char} (h : isHexDigit c = true) :
  c.toUpper.isDigit = true ∨ 'A' ≤ c.toUpper ∧ c.toUpper ≤ 'F'
  := by
  simp only [isHexDigit, Bool.or_eq_true, Bool.and_eq_true, decide_eq_true_eq] at h
  rcases h with (hdigit | ⟨hlow, hhigh⟩) | ⟨hlow, hhigh⟩
  · have hcode := Text.toNat_of_isDigit hdigit
    rw [Text.toUpper_of_lt (by omega)]
    exact .inl hdigit
  · rw [Char.le_def, UInt32.le_iff_toNat_le, Char.toNat_val, Char.toNat_val] at hlow hhigh
    have hlow' : 97 ≤ c.toNat := hlow
    have hhigh' : c.toNat ≤ 102 := hhigh
    rw [← Char.ofNat_toNat c]
    generalize c.toNat = n at hlow' hhigh'
    interval_cases n <;> decide
  · have hcode : c.toNat ≤ 70 := UInt32.le_iff_toNat_le.mp hhigh
    rw [Text.toUpper_of_lt (by omega)]
    exact .inr ⟨hlow, hhigh⟩

theorem FractionText.unit {n : Double.Decimal} (h : FractionText cs n) :
  Double.zero ≤ .ofDecimal false n ∧ Double.ofDecimal false n ≤ .ofInt 1
  := by
  cases h with
  | zero | one | oneTenths => decide +kernel
  | point hfront hdigits =>
      apply Double.ofDecimal_unit (List.length_pos_iff.mpr (areDigits_iff.mp hdigits).1)
      apply Text.digitsValue_lt

theorem Kind.Form.admits {k : Kind} (h : k.Form cs (some v)) (hfeed : '\n' ∉ cs) :
  k.Admits v
  := by
  generalize hv : some v = v' at h
  cases h with
  | name hinner =>
      cases hv
      refine ⟨?_, ?_⟩
      · simpa using hinner
      · rw [String.toList_ofList]
        intro hmem
        exact hfeed (List.mem_cons_of_mem _ (List.mem_append_left _ hmem))
  | sides hwidth hx hheight =>
      obtain ⟨width, hwidth', hv⟩ := Option.bind_eq_some_iff.mp hv.symm
      obtain ⟨height, hheight', hv⟩ := Option.bind_eq_some_iff.mp hv
      cases hv
      exact ⟨isCount_of_numeral? hwidth', isCount_of_numeral? hheight'⟩
  | count hdigits =>
      obtain ⟨n, hn, rfl⟩ := Option.map_eq_some_iff.mp hv.symm
      exact isCount_of_numeral? hn
  | color hlength hdigits =>
      rename_i digits
      cases hv
      refine ⟨digits.map Char.toUpper, String.toList_ofList, by simpa using hlength, ?_⟩
      intro c hc
      obtain ⟨b, hb, rfl⟩ := List.mem_map.mp hc
      exact toUpper_of_isHexDigit (hdigits b hb)
  | fraction hcs =>
      cases hv
      exact hcs.unit

theorem Matches.admits {d : Directive} {line : List Char} (h : d.Matches line (some v))
    (hfeed : '\n' ∉ line) :
  d.kind.Admits v
  := by
  obtain ⟨-, -, -, -, hform, -⟩ := h
  apply hform.admits
  intro hmem
  apply hfeed
  simp [hmem]

/-! ### Configurations of texts -/

theorem wellFormed_default :
  Config.WellFormed {}
  := by
  have hcolor : IsColor "#FFFFFF" := ⟨['F', 'F', 'F', 'F', 'F', 'F'], by decide, by decide, by simp⟩
  have hcount : ∀ n ∈ [1920, 1080, 30, 24, 32], IsCount n := by decide +kernel
  intro d
  cases d with
  | project | font => exact ⟨by decide, by decide⟩
  | resolution => exact ⟨hcount _ (by decide), hcount _ (by decide)⟩
  | frameRate | fontSize | titleFontSize | subtitleFontSize => exact hcount _ (by decide)
  | titleColor | subtitleColor | freeTextColor => exact hcolor
  | backgroundAlpha | titleX | titleY | subtitleY => exact ⟨by decide +kernel, by decide +kernel⟩

theorem Given.admits {d : Directive} {ls : List (List Char)} (h : d.Given ls v)
    (hfeed : ∀ l ∈ ls, '\n' ∉ l) :
  d.kind.Admits v
  := by
  cases h with
  | default => exact wellFormed_default d
  | last hl => exact hl.admits (hfeed _ (List.mem_append_right _ List.mem_cons_self))

end Directive

/-- The configuration of every text is well formed. -/
theorem Header.wellFormed_split (text : String) :
  (split text).1.WellFormed
  := by
  rcases hasLines_or text with ⟨ls, hls⟩ | hnone
  · rw [split_of_hasLines hls]
    obtain ⟨separator, rest, hlines, -, -⟩ := hls
    intro d
    apply (Directive.given_foldl d ls).admits
    intro l hl
    have hmem : l ∈ Text.splitLines text.toList := by
      rw [hlines]
      exact List.mem_append_left _ hl
    exact Text.not_mem_of_mem_splitLines hmem
  · rw [split_of_forall hnone]
    exact Directive.wellFormed_default

end Montage
