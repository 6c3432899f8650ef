import Montage.Proofs.Header.Fraction
import Montage.Proofs.Text.Keyword

/-!
# The forms of values

Each kind of value has its form: a name is text in double quotes, whatever quotes and blanks are
in it; an integer consists of digits of any script; a fraction has one of five notations.  The
readers accept exactly the texts of these forms, and give the values that they denote.
-/

namespace Montage.Directive

/-- The number that digits denote, if it is positive and they are not too many. -/
def numeral? (digits : List Char) : Option Int :=
  if digits.length ≤ Fault.maxDigits ∧ 0 < Text.digitsValue digits then
    some (Text.digitsValue digits)
  else none

/-- The notations of fractions, and the decimal numbers that they denote. -/
inductive FractionText : List Char → Double.Decimal → Prop where
  | zero : FractionText ['0'] ⟨0, 0⟩
  | one : FractionText ['1'] ⟨1, 0⟩
  | oneTenths : FractionText ['1', '.', '0'] ⟨10, -1⟩
  | point {front digits : List Char} (hfront : front = [] ∨ front = ['0'])
      (hdigits : areDigits digits = true) :
      FractionText (front ++ '.' :: digits) ⟨Text.digitsValue digits, -digits.length⟩

/-- The texts of a kind and the values that they denote, `none` for what is not admissible. -/
inductive Kind.Form : Kind → List Char → Option Value → Prop where
  | name {inner : List Char} (hinner : inner ≠ []) :
      Form .name ('"' :: (inner ++ ['"'])) (some (.text (String.ofList inner)))
  | sides {width height : List Char} {x : Char} (hwidth : areDigits width = true)
      (hx : Text.isLetter 'X' x = true) (hheight : areDigits height = true) :
      Form .sides (width ++ x :: height)
        (do return .sides (← numeral? width) (← numeral? height))
  | count {digits : List Char} (hdigits : areDigits digits = true) :
      Form .count digits ((numeral? digits).map .count)
  | color {digits : List Char} (hlength : digits.length = 6)
      (hdigits : ∀ c ∈ digits, isHexDigit c = true) :
      Form .color ('#' :: digits)
        (some (.text (String.ofList ('#' :: digits.map Char.toUpper))))
  | fraction {cs : List Char} {n : Double.Decimal} (hcs : FractionText cs n) :
      Form .fraction cs (some (.fraction (.ofDecimal false n)))

variable {cs : List Char}

theorem areDigits_iff :
  areDigits cs = true ↔ cs ≠ [] ∧ ∀ c ∈ cs, Text.isDigit c = true
  := by
  simp [areDigits]

/-! ### Reading -/

theorem readName?_eq_some_iff {s : String} :
  readName? cs = some s ↔ ∃ inner, inner ≠ [] ∧ cs = '"' :: (inner ++ ['"'])
    ∧ s = String.ofList inner
  := by
  constructor
  · intro h
    unfold readName? at h
    split at h
    · rename_i rest
      split at h
      · rename_i hrest
        rw [Bool.and_eq_true, decide_eq_true_eq, decide_eq_true_eq] at hrest
        obtain ⟨hlast, hlength⟩ := hrest
        obtain ⟨inner, rfl⟩ := List.getLast?_eq_some_iff.mp hlast
        cases h
        refine ⟨inner, ?_, rfl, by rw [List.dropLast_concat]⟩
        rintro rfl
        exact hlength rfl
      · cases h
    · cases h
  · rintro ⟨inner, hinner, rfl, rfl⟩
    have hlast : (inner ++ ['"']).getLast? = some '"' := List.getLast?_concat
    have hlength : (inner ++ ['"']).length ≠ 1 := by simpa using hinner
    rw [readName?, if_pos, List.dropLast_concat]
    simp only [hlast, hlength, ne_eq, not_false_eq_true, decide_true, Bool.and_self]

theorem positive?_eq (h : areDigits cs = true) :
  positive? cs = numeral? cs
  := by
  obtain ⟨hnil, hdigits⟩ := areDigits_iff.mp h
  rw [positive?, Text.readInteger_digits hdigits hnil, numeral?]
  by_cases hlength : Fault.maxDigits < cs.length
  · rw [if_pos hlength, if_neg (fun hshort => Nat.not_le.mpr hlength hshort.1)]
  · rw [if_neg hlength]
    simp [Nat.not_lt.mp hlength]

theorem readCount?_eq_some_iff {v : Option Int} :
  readCount? cs = some v ↔ areDigits cs = true ∧ v = numeral? cs
  := by
  rw [readCount?]
  split
  · rename_i hdigits
    rw [positive?_eq hdigits, Option.some.injEq, eq_comm]
    exact (and_iff_right hdigits).symm
  · rename_i hdigits
    simp [hdigits]

theorem readSides?_eq_some_iff {v : Option (Int × Int)} :
  readSides? cs = some v ↔ ∃ width x height, areDigits width = true
    ∧ Text.isLetter 'X' x = true ∧ areDigits height = true ∧ cs = width ++ x :: height
    ∧ v = do return (← numeral? width, ← numeral? height)
  := by
  constructor
  · intro h
    rw [readSides?] at h
    split at h
    · rename_i x height hdrop
      split at h
      · rename_i hform
        rw [Bool.and_eq_true, Bool.and_eq_true] at hform
        obtain ⟨⟨hx, hwidth⟩, hheight⟩ := hform
        refine ⟨_, x, height, hwidth, hx, hheight, ?_, ?_⟩
        · rw [← hdrop, List.takeWhile_append_dropWhile]
        · rw [← positive?_eq hwidth, ← positive?_eq hheight, ← Option.some.inj h]
      · cases h
    · cases h
  · rintro ⟨width, x, height, hwidth, hx, hheight, rfl, rfl⟩
    obtain ⟨-, hdigits⟩ := areDigits_iff.mp hwidth
    -- No digit is an x, so the width ends before it.
    have hcross : Text.isDigit x = false := Text.isDigit_of_isLetter (by decide) hx
    have htake : (width ++ x :: height).takeWhile Text.isDigit = width := by
      rw [List.takeWhile_append_of_pos hdigits]
      simp [hcross]
    have hdrop : (width ++ x :: height).dropWhile Text.isDigit = x :: height := by
      rw [List.dropWhile_append_of_pos hdigits]
      simp [hcross]
    rw [readSides?, htake, hdrop]
    simp [hx, hwidth, hheight, positive?_eq]

theorem readColor?_eq_some_iff {s : String} :
  readColor? cs = some s ↔ ∃ digits, digits.length = 6 ∧ (∀ c ∈ digits, isHexDigit c = true)
    ∧ cs = '#' :: digits ∧ s = String.ofList ('#' :: digits.map Char.toUpper)
  := by
  constructor
  · intro h
    unfold readColor? at h
    split at h
    · rename_i digits
      split at h
      · rename_i hdigits
        rw [Bool.and_eq_true, decide_eq_true_eq, List.all_eq_true] at hdigits
        cases h
        exact ⟨digits, hdigits.1, hdigits.2, rfl, rfl⟩
      · cases h
    · cases h
  · rintro ⟨digits, hlength, hdigits, rfl, rfl⟩
    rw [readColor?, hlength, List.all_eq_true.mpr hdigits]
    rfl

theorem isPointed_iff :
  isPointed cs = true ↔ ∃ digits, cs = '.' :: digits ∧ areDigits digits = true
  := by
  constructor
  · intro h
    unfold isPointed at h
    split at h
    · rename_i digits
      exact ⟨digits, rfl, h⟩
    · cases h
  · rintro ⟨digits, rfl, hdigits⟩
    exact hdigits

theorem isFraction_iff :
  isFraction cs = true ↔ ∃ n, FractionText cs n
  := by
  constructor
  · intro h
    simp only [isFraction, Bool.or_eq_true, Bool.and_eq_true, beq_iff_eq, isPointed_iff] at h
    rcases h with (((rfl | rfl) | rfl) | ⟨digits, rfl, hdigits⟩) | ⟨hzero, digits, hdrop, hdigits⟩
    · exact ⟨_, .zero⟩
    · exact ⟨_, .one⟩
    · exact ⟨_, .oneTenths⟩
    · exact ⟨_, .point (.inl rfl) hdigits⟩
    · obtain ⟨rest, rfl⟩ := List.head?_eq_some_iff.mp hzero
      obtain rfl : rest = '.' :: digits := hdrop
      have hpoint : FractionText (['0'] ++ '.' :: digits) _ := .point (.inr rfl) hdigits
      exact ⟨_, hpoint⟩
  · rintro ⟨n, h⟩
    cases h with
    | zero | one | oneTenths => rfl
    | point hfront hdigits =>
        have hpointed := isPointed_iff.mpr ⟨_, rfl, hdigits⟩
        rcases hfront with rfl | rfl <;> simp [isFraction, hpointed]

theorem readFraction?_of_fractionText {n : Double.Decimal} (h : FractionText cs n) :
  readFraction? cs = some (.ofDecimal false n)
  := by
  cases h with
  | zero | one | oneTenths => decide +kernel
  | point hfront hdigits =>
      obtain ⟨hnil, hall⟩ := areDigits_iff.mp hdigits
      rw [Header.readFraction?_point hfront hall hnil, Int.zero_sub]

theorem readFraction?_eq_some_iff {x : Double} :
  readFraction? cs = some x ↔ ∃ n, FractionText cs n ∧ x = .ofDecimal false n
  := by
  constructor
  · intro h
    have hform : isFraction cs = true := by
      rw [readFraction?] at h
      split at h
      · assumption
      · cases h
    obtain ⟨n, hn⟩ := isFraction_iff.mp hform
    rw [readFraction?_of_fractionText hn] at h
    exact ⟨n, hn, (Option.some.inj h).symm⟩
  · rintro ⟨n, hn, rfl⟩
    apply readFraction?_of_fractionText hn

theorem map_sides (a b : Option Int) :
  (do return (← a, ← b) : Option (Int × Int)).map (fun (w, h) => Value.sides w h)
    = do return .sides (← a) (← b)
  := by
  cases a <;> cases b <;> rfl

/-- A text is read as a value of a kind exactly if it has the form of the kind and denotes it. -/
theorem Kind.read?_eq_some_iff {k : Kind} {v : Option Value} :
  k.read? cs = some v ↔ k.Form cs v
  := by
  constructor
  · intro h
    cases k with
    | name =>
        obtain ⟨s, hs, rfl⟩ := Option.map_eq_some_iff.mp h
        obtain ⟨inner, hinner, rfl, rfl⟩ := readName?_eq_some_iff.mp hs
        exact .name hinner
    | sides =>
        obtain ⟨s, hs, rfl⟩ := Option.map_eq_some_iff.mp h
        obtain ⟨width, x, height, hwidth, hx, hheight, rfl, rfl⟩ := readSides?_eq_some_iff.mp hs
        rw [map_sides]
        exact .sides hwidth hx hheight
    | count =>
        obtain ⟨s, hs, rfl⟩ := Option.map_eq_some_iff.mp h
        obtain ⟨hdigits, rfl⟩ := readCount?_eq_some_iff.mp hs
        exact .count hdigits
    | color =>
        obtain ⟨s, hs, rfl⟩ := Option.map_eq_some_iff.mp h
        obtain ⟨digits, hlength, hdigits, rfl, rfl⟩ := readColor?_eq_some_iff.mp hs
        exact .color hlength hdigits
    | fraction =>
        obtain ⟨x, hx, rfl⟩ := Option.map_eq_some_iff.mp h
        obtain ⟨n, hn, rfl⟩ := readFraction?_eq_some_iff.mp hx
        exact .fraction hn
  · intro h
    cases h with
    | name hinner =>
        rw [Kind.read?, readName?_eq_some_iff.mpr ⟨_, hinner, rfl, rfl⟩, Option.map_some]
    | sides hwidth hx hheight =>
        rw [Kind.read?, readSides?_eq_some_iff.mpr ⟨_, _, _, hwidth, hx, hheight, rfl, rfl⟩,
          Option.map_some, map_sides]
    | count hdigits =>
        rw [Kind.read?, readCount?_eq_some_iff.mpr ⟨hdigits, rfl⟩, Option.map_some]
    | color hlength hdigits =>
        rw [Kind.read?, readColor?_eq_some_iff.mpr ⟨_, hlength, hdigits, rfl, rfl⟩,
          Option.map_some]
    | fraction hcs =>
        rw [Kind.read?, readFraction?_eq_some_iff.mpr ⟨_, hcs, rfl⟩, Option.map_some]

/-! ### Blanks -/

/-- Characters that start and end with no blanks. -/
structure IsTrimmed (cs : List Char) : Prop where
  nonempty : cs ≠ []
  front : ∀ c, cs.head? = some c → Text.isBlank c = false
  back : ∀ c, cs.getLast? = some c → Text.isBlank c = false

theorem isBlank_of_areDigits (h : areDigits cs = true) :
  ∀ c ∈ cs, Text.isBlank c = false
  := by
  intro c hc
  apply Text.isBlank_of_digit ((areDigits_iff.mp h).2 c hc)

theorem isBlank_of_isHexDigit {c : Char} (h : isHexDigit c = true) :
  Text.isBlank c = false
  := by
  simp only [isHexDigit, Bool.or_eq_true, Bool.and_eq_true, decide_eq_true_eq, Char.le_def,
    UInt32.le_iff_toNat_le] at h
  rcases h with (hdigit | ⟨hlow, hhigh⟩) | ⟨hlow, hhigh⟩
  · exact Text.isBlank_of_isDigit hdigit
  · exact Text.isBlank_eq_false (Nat.le_trans (by decide) hlow) (Nat.le_trans hhigh (by decide))
  · exact Text.isBlank_eq_false (Nat.le_trans (by decide) hlow) (Nat.le_trans hhigh (by decide))

theorem FractionText.isBlank {n : Double.Decimal} (h : FractionText cs n) :
  ∀ c ∈ cs, Text.isBlank c = false
  := by
  have hall : ∀ {l : List Char}, l.all (fun c => !Text.isBlank c) = true →
      ∀ c ∈ l, Text.isBlank c = false := by simp
  cases h with
  | zero | one | oneTenths => exact hall rfl
  | point hfront hdigits =>
      intro c hc
      rcases List.mem_append.mp hc with hc | hc
      · rcases hfront with rfl | rfl
        · cases hc
        · obtain rfl := List.mem_singleton.mp hc
          rfl
      · rcases List.mem_cons.mp hc with rfl | hc
        · rfl
        · exact isBlank_of_areDigits hdigits c hc

theorem FractionText.ne_nil {n : Double.Decimal} (h : FractionText cs n) :
  cs ≠ []
  := by
  cases h with
  | zero | one | oneTenths => exact List.cons_ne_nil _ _
  | point => exact List.append_ne_nil_of_right_ne_nil _ (List.cons_ne_nil _ _)

variable {k : Kind} {v : Option Value}

/-- Only names have blanks in them. -/
theorem Kind.Form.isBlank (h : k.Form cs v) (hk : k ≠ .name) :
  ∀ c ∈ cs, Text.isBlank c = false
  := by
  intro c hc
  cases h with
  | name => exact absurd rfl hk
  | sides hwidth hx hheight =>
      rcases List.mem_append.mp hc with hc | hc
      · exact isBlank_of_areDigits hwidth c hc
      · rcases List.mem_cons.mp hc with rfl | hc
        · exact Text.isBlank_of_isLetter ⟨by decide, by decide⟩ hx
        · exact isBlank_of_areDigits hheight c hc
  | count hdigits => exact isBlank_of_areDigits hdigits c hc
  | color hlength hdigits =>
      rcases List.mem_cons.mp hc with rfl | hc
      · rfl
      · exact isBlank_of_isHexDigit (hdigits c hc)
  | fraction hcs => exact hcs.isBlank c hc

theorem Kind.Form.ne_nil (h : k.Form cs v) :
  cs ≠ []
  := by
  cases h with
  | name | color => exact List.cons_ne_nil _ _
  | sides => exact List.append_ne_nil_of_right_ne_nil _ (List.cons_ne_nil _ _)
  | count hdigits => exact (areDigits_iff.mp hdigits).1
  | fraction hcs => exact hcs.ne_nil

theorem Kind.Form.isTrimmed (h : k.Form cs v) :
  IsTrimmed cs
  := by
  by_cases hk : k = .name
  · subst hk
    cases h with
    | name hinner =>
        refine ⟨List.cons_ne_nil _ _, ?_, ?_⟩
        · rintro c ⟨⟩
          rfl
        · intro c hc
          rw [← List.cons_append, List.getLast?_concat] at hc
          cases hc
          rfl
  · have hblank := h.isBlank hk
    exact ⟨h.ne_nil, fun c hc => hblank c (List.mem_of_head? hc),
      fun c hc => hblank c (List.mem_of_getLast? hc)⟩

end Montage.Directive
