import Mathlib.Data.List.Induction
import Montage.Header.Basic
import Montage.Proofs.Double.Decimal
import Montage.Proofs.Double.Order
import Montage.Proofs.Text.Number

/-!
# Fractions that are read back

A fraction between 0 and 1 is written with a zero, a point, and at most four digits without
zeros at the end.  If it is the double nearest to a number of ten-thousandths, the digits
denote that number, so the same double is read back.
-/

namespace Montage.Header

/-! ### Zeros at the end -/

theorem dropZeros_append {c : Char} (hc : c ≠ '0') (cs : List Char) (j : Nat) :
  dropZeros (cs ++ c :: List.replicate j '0') = cs ++ [c]
  := by
  have hzeros : ∀ b ∈ List.replicate j '0', (b == '0') = true := by
    intro b hb
    rw [List.eq_of_mem_replicate hb]
    rfl
  have hreverse : (cs ++ c :: List.replicate j '0').reverse
      = List.replicate j '0' ++ c :: cs.reverse := by simp
  rw [dropZeros, hreverse, List.dropWhile_append_of_pos hzeros, List.dropWhile_cons_of_neg]
  · simp
  · simpa using hc

/-- Characters that are not all zeros end with one that is none and zeros after it. -/
theorem exists_nonzero {cs : List Char} (h : cs ≠ List.replicate cs.length '0') :
  ∃ front c j, c ≠ '0' ∧ cs = front ++ c :: List.replicate j '0'
  := by
  induction cs using List.reverseRecOn with
  | nil => exact (h rfl).elim
  | append_singleton front c ih =>
      by_cases hc : c = '0'
      · subst hc
        have hfront : front ≠ List.replicate front.length '0' := by
          intro hzeros
          apply h
          rw [List.length_append, List.length_singleton, List.replicate_succ', ← hzeros]
        obtain ⟨front', c, j, hc, rfl⟩ := ih hfront
        refine ⟨front', c, j + 1, hc, ?_⟩
        rw [List.replicate_succ', List.append_assoc, List.cons_append]
      · exact ⟨front, c, 0, hc, rfl⟩

/-! ### Writing -/

/-- The four digits of a number of ten-thousandths, without zeros at the end. -/
theorem dropZeros_padded {k : Nat} (hpos : 0 < k) (hlt : k < 10000) :
  ∃ digits j, dropZeros ("0." ++ Double.padded 4 k).toList = '0' :: '.' :: digits
    ∧ (∀ c ∈ digits, c.isDigit = true) ∧ digits ≠ [] ∧ digits.length + j = 4
    ∧ Nat.ofDigitChars 10 digits 0 * 10 ^ j = k
  := by
  have hvalue := Double.ofDigitChars_padded 4 k
  have hlength : (Double.padded 4 k).toList.length = 4 := Double.length_padded (by decide) hlt
  have hdigits : ∀ c ∈ (Double.padded 4 k).toList, c.isDigit = true :=
    fun c hc => Double.isDigit_of_mem_padded hc
  rw [String.toList_append]
  generalize (Double.padded 4 k).toList = cs at hvalue hlength hdigits
  have hcs : cs ≠ List.replicate cs.length '0' := by
    intro hzeros
    rw [hzeros, Nat.ofDigitChars_replicate_zero] at hvalue
    omega
  obtain ⟨front, c, j, hc, rfl⟩ := exists_nonzero hcs
  refine ⟨front ++ [c], j, ?_, ?_, by simp, ?_, ?_⟩
  · rw [← List.append_assoc, dropZeros_append hc]
    rfl
  · intro b hb
    apply hdigits b
    rcases List.mem_append.mp hb with hb | hb
    · apply List.mem_append_left _ hb
    · obtain rfl := List.mem_singleton.mp hb
      apply List.mem_append_right _ List.mem_cons_self
  · simpa [Nat.add_assoc, Nat.add_comm j] using hlength
  · rw [← List.singleton_append, ← List.append_assoc, Nat.ofDigitChars_append,
      Nat.ofDigitChars_replicate_zero, Nat.mul_comm] at hvalue
    apply hvalue

/-- What lies between 0 and 1 is written with four places, without the zeros at the end. -/
theorem renderFraction_between {r : Nat} (h : Double.Fits r) (hpos : 0 < r)
    (hlt : r < Double.unitsPerOne) :
  renderFraction (.fin false r h)
    = if (dropZeros ((Double.fin false r h).toFixed 4).toList).getLast? = some '.' then "0"
      else String.ofList (dropZeros ((Double.fin false r h).toFixed 4).toList)
  := by
  obtain ⟨hone, hofInt⟩ := Double.ofInt_one
  have hbelow : ¬ Double.ofInt 1 ≤ .fin false r h := by
    rw [hofInt, Double.fin_le_fin]
    omega
  have habove : ¬ Double.fin false r h ≤ Double.zero := by
    rw [Double.zero, Double.fin_le_fin]
    omega
  rw [renderFraction, if_neg hbelow, if_neg habove]

/-- Four places show the nearest number of ten-thousandths. -/
theorem toFixed_four {r k : Nat} (h : Double.Fits r)
    (hround : divNearest (r * Nat.pow 10 4) Double.unitsPerOne = k) :
  (Double.fin false r h).toFixed 4
    = toString (k / 10000) ++ ("." ++ Double.padded 4 (k % 10000))
  := by
  rw [Double.toFixed]
  simp only [hround, Bool.false_eq_true, if_false, OfNat.ofNat_ne_zero]
  rw [String.empty_append]

/-- What is nearest to a number of ten-thousandths between 0 and 1 is written with a point. -/
theorem toList_renderFraction {r k : Nat} (h : Double.Fits r) (hr : 0 < r)
    (hr' : r < Double.unitsPerOne)
    (hround : divNearest (r * Nat.pow 10 4) Double.unitsPerOne = k) (hpos : 0 < k)
    (hlt : k < 10000) :
  ∃ digits j, (renderFraction (.fin false r h)).toList = '0' :: '.' :: digits
    ∧ (∀ c ∈ digits, c.isDigit = true) ∧ digits ≠ [] ∧ digits.length + j = 4
    ∧ Nat.ofDigitChars 10 digits 0 * 10 ^ j = k
  := by
  obtain ⟨digits, j, hdrop, hdigits, hnil, hlength, hvalue⟩ := dropZeros_padded hpos hlt
  have hfixed : (Double.fin false r h).toFixed 4 = "0." ++ Double.padded 4 k := by
    rw [toFixed_four h hround, Nat.div_eq_of_lt hlt, Nat.mod_eq_of_lt hlt, ← String.append_assoc]
    rfl
  have hlast : ('0' :: '.' :: digits).getLast? ≠ some '.' := by
    intro hpoint
    rw [List.getLast?_cons_cons, List.getLast?_cons_of_ne_nil hnil] at hpoint
    cases hdigits _ (List.mem_of_getLast? hpoint)
  rw [renderFraction_between h hr hr', hfixed, hdrop, if_neg hlast, String.toList_ofList]
  exact ⟨digits, j, rfl, hdigits, hnil, hlength, hvalue⟩

/-- A number of ten-thousandths between 0 and 1 is written with a point. -/
theorem toList_renderFraction_quotient {k : Nat} (hpos : 0 < k) (hlt : k < 10000) :
  ∃ digits j, (renderFraction (Double.quotient k 10000)).toList = '0' :: '.' :: digits
    ∧ (∀ c ∈ digits, c.isDigit = true) ∧ digits ≠ [] ∧ digits.length + j = 4
    ∧ Nat.ofDigitChars 10 digits 0 * 10 ^ j = k
  := by
  obtain ⟨r, h, hquotient, hr, hr', hround⟩ := Double.quotient_between hpos hlt
  rw [hquotient]
  apply toList_renderFraction h hr hr' hround hpos hlt

/-! ### Reading -/

/-- Digits after a point are read as the decimal that they denote. -/
theorem readFraction?_point {front digits : List Char} (hfront : front = [] ∨ front = ['0'])
    (h : ∀ c ∈ digits, Text.isDigit c = true) (hnil : digits ≠ []) :
  Directive.readFraction? (front ++ '.' :: digits)
    = some (Double.ofDecimal false ⟨Text.digitsValue digits, 0 - (digits.length : Int)⟩)
  := by
  have hpointed : Directive.isPointed ('.' :: digits) = true := by
    simp [Directive.isPointed, Directive.areDigits, List.all_eq_true.mpr h, hnil]
  have hblank : ∀ c ∈ front ++ '.' :: digits, Text.isBlank c = false := by
    intro c hc
    rcases List.mem_append.mp hc with hc | hc
    · rcases hfront with rfl | rfl
      · cases hc
      · rw [List.mem_singleton.mp hc]
        rfl
    · rcases List.mem_cons.mp hc with rfl | hc
      · rfl
      · apply Text.isBlank_of_digit (h c hc)
  have hplaces : Text.splitDigits (digits ++ []) = (digits, []) :=
    Text.splitDigits_append h hnil rfl
  rw [List.append_nil] at hplaces
  have hdecimal : Text.readDecimal? (front ++ '.' :: digits)
      = some ⟨Text.digitsValue digits, 0 - (digits.length : Int)⟩ := by
    rcases hfront with rfl | rfl
    · have hwhole : Text.splitDigits ([] ++ '.' :: digits) = ([], '.' :: digits) := rfl
      rw [Text.readDecimal?, hwhole]
      simp only [hplaces, List.nil_append, List.isEmpty_nil, List.isEmpty_eq_false_iff.mpr hnil]
      rfl
    · have hwhole : Text.splitDigits (['0'] ++ '.' :: digits) = (['0'], '.' :: digits) :=
        Text.splitDigits_append (fun c hc => List.mem_singleton.mp hc ▸ rfl) (by simp) rfl
      rw [Text.readDecimal?, hwhole]
      simp only [hplaces, List.singleton_append]
      rfl
  have hform : Directive.isFraction (front ++ '.' :: digits) = true := by
    rcases hfront with rfl | rfl <;> simp [Directive.isFraction, hpointed]
  have hsign : Text.splitSign (front ++ '.' :: digits) = (false, front ++ '.' :: digits) := by
    rcases hfront with rfl | rfl <;> rfl
  have hname : Text.infinityNames.contains ((front ++ '.' :: digits).map Char.toLower) = false := by
    rcases hfront with rfl | rfl <;> rfl
  have hnan : (front ++ '.' :: digits).map Char.toLower ≠ "nan".toList := by
    rcases hfront with rfl | rfl <;>
      exact fun heq => absurd (List.cons.inj heq).1 (by decide)
  rw [Directive.readFraction?, if_pos hform, Text.readDouble?, String.toList_ofList,
    Text.trimNumber_eq hblank, hsign]
  simp only [hname, Bool.false_eq_true, if_false, if_neg hnan, hdecimal, Option.map_some]

/-- At most four digits after a point read as the number of ten-thousandths that they denote. -/
theorem ofDecimal_places {digits : List Char} {j k : Nat}
    (hdigits : ∀ c ∈ digits, c.isDigit = true) (hlength : digits.length + j = 4)
    (hvalue : Nat.ofDigitChars 10 digits 0 * 10 ^ j = k) (hpos : 0 < k) (hlt : k < 10000) :
  Double.ofDecimal false ⟨Text.digitsValue digits, 0 - (digits.length : Int)⟩
    = Double.quotient k 10000
  := by
  have hten : 10 ^ digits.length * 10 ^ j = 10000 := by
    rw [← Nat.pow_add, hlength]
  have hne : Nat.ofDigitChars 10 digits 0 ≠ 0 := by
    intro hzero
    rw [hzero, Nat.zero_mul] at hvalue
    omega
  have hbelow : Nat.ofDigitChars 10 digits 0 < 10 ^ digits.length := by
    apply Nat.lt_of_mul_lt_mul_right (a := 10 ^ j)
    rw [hvalue, hten]
    apply hlt
  rw [Text.digitsValue_eq hdigits, Double.ofDecimal_eq_quotient j hne (by omega) hbelow, hvalue,
    hten]

/-- A number of ten-thousandths is read back. -/
theorem readFraction?_renderFraction {k : Nat} (hk : k ≤ 10000) :
  Directive.readFraction? (renderFraction (Double.quotient k 10000)).toList
    = some (Double.quotient k 10000)
  := by
  rcases Nat.eq_zero_or_pos k with rfl | hpos
  · decide +kernel
  · rcases Nat.lt_or_eq_of_le hk with hlt | rfl
    · obtain ⟨digits, j, htext, hdigits, hnil, hlength, hvalue⟩ :=
        toList_renderFraction_quotient hpos hlt
      have hread := readFraction?_point (Or.inr rfl)
        (fun c hc => Text.isDigit_of_isDigit (hdigits c hc)) hnil
      rw [ofDecimal_places hdigits hlength hvalue hpos hlt, List.singleton_append] at hread
      rw [htext, hread]
    · decide +kernel

end Montage.Header
