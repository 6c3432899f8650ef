import Mathlib.Data.List.TakeWhile
import Mathlib.Tactic.Ring
import Montage.Text.Number

/-!
# Numbers that are read back

Numbers are written with the plain digits 0 to 9.  What is written with them is read as the
number that it stands for, and an integer that can be written is read back.
-/

namespace Montage.Text

variable {c : Char} {cs rest : List Char}

/-! ### Blanks -/

/-- The visible characters of the basic alphabet are no blanks. -/
theorem isBlank_eq_false (h : 33 ≤ c.toNat) (h' : c.toNat ≤ 126) :
  isBlank c = false
  := by
  have hsmall : c ∉ smallBlanks := by
    intro hmem
    have hall : ∀ b ∈ smallBlanks, b.toNat < 33 ∨ 126 < b.toNat := by simp [smallBlanks]
    have hc := hall c hmem
    omega
  have hwide : c ∉ wideBlanks := by
    intro hmem
    have hall : ∀ b ∈ wideBlanks, 126 < b.toNat := by simp [wideBlanks]
    have hc := hall c hmem
    omega
  have hspace : ¬ '\u2000' ≤ c := by
    rw [Char.le_def, UInt32.le_iff_toNat_le, Char.toNat_val, Char.toNat_val]
    intro hle
    have hcode : '\u2000'.toNat = 8192 := rfl
    omega
  simp [isBlank, hsmall, hwide, hspace]

/-- What starts with no blank has none to be removed in front. -/
theorem trimStart_eq (h : ∀ c, cs.head? = some c → isBlank c = false) :
  trimStart cs = cs
  := by
  cases cs with
  | nil => rfl
  | cons c rest =>
      rw [trimStart, List.dropWhile_cons_of_neg]
      simp [h c rfl]

/-- What ends with no blank has none to be removed at the end. -/
theorem trimEnd_eq (h : ∀ c, cs.getLast? = some c → isBlank c = false) :
  trimEnd cs = cs
  := by
  rw [← List.head?_reverse] at h
  rw [trimEnd]
  change (trimStart cs.reverse).reverse = cs
  rw [trimStart_eq h, List.reverse_reverse]

/-- Blanks in front are removed, and nothing else. -/
theorem trimStart_append (hcs : ∀ c ∈ cs, isBlank c = true)
    (hrest : ∀ c, rest.head? = some c → isBlank c = false) :
  trimStart (cs ++ rest) = rest
  := by
  rw [trimStart, List.dropWhile_append_of_pos hcs]
  apply trimStart_eq hrest

theorem exists_trimStart (cs : List Char) :
  ∃ front, (∀ c ∈ front, isBlank c = true) ∧ cs = front ++ trimStart cs
  :=
  ⟨cs.takeWhile isBlank, fun _ hc => List.mem_takeWhile_imp hc,
    List.takeWhile_append_dropWhile.symm⟩

/-- Blanks at the end are removed, and nothing else. -/
theorem trimEnd_append (hcs : ∀ c, cs.getLast? = some c → isBlank c = false)
    (hrest : ∀ c ∈ rest, isBlank c = true) :
  trimEnd (cs ++ rest) = cs
  := by
  have hreverse : ∀ c ∈ rest.reverse, isBlank c = true :=
    fun c hc => hrest c (List.mem_reverse.mp hc)
  rw [trimEnd, List.reverse_append, List.dropWhile_append_of_pos hreverse]
  apply trimEnd_eq hcs

theorem exists_trimEnd (cs : List Char) :
  ∃ back, (∀ c ∈ back, isBlank c = true) ∧ cs = trimEnd cs ++ back
  := by
  obtain ⟨front, hfront, hcs⟩ := exists_trimStart cs.reverse
  refine ⟨front.reverse, fun c hc => hfront c (List.mem_reverse.mp hc), ?_⟩
  rw [trimEnd, ← List.reverse_append]
  exact List.reverse_eq_iff.mp hcs

theorem afterBlanks?_append {gap : List Char} (hnil : gap ≠ [])
    (hgap : ∀ c ∈ gap, isBlank c = true) (hrest : ∀ c, rest.head? = some c → isBlank c = false) :
  afterBlanks? (gap ++ rest) = some rest
  := by
  cases gap with
  | nil => exact (hnil rfl).elim
  | cons c more =>
      have hmore : ∀ c ∈ more, isBlank c = true := fun b hb => hgap b (List.mem_cons_of_mem c hb)
      rw [List.cons_append, afterBlanks?, if_pos (hgap c List.mem_cons_self),
        trimStart_append hmore hrest]

theorem exists_afterBlanks? (h : afterBlanks? cs = some rest) :
  ∃ gap, gap ≠ [] ∧ (∀ c ∈ gap, isBlank c = true) ∧ cs = gap ++ rest
  := by
  cases cs with
  | nil => cases h
  | cons c more =>
      rw [afterBlanks?] at h
      split at h
      · rename_i hc
        cases h
        obtain ⟨front, hfront, hmore⟩ := exists_trimStart more
        refine ⟨c :: front, List.cons_ne_nil _ _, ?_, congrArg (c :: ·) hmore⟩
        intro b hb
        rcases List.mem_cons.mp hb with rfl | hb
        · exact hc
        · exact hfront b hb
      · cases h

/-- What has no blanks at its ends has none to be removed around a number. -/
theorem trimNumber_eq (h : ∀ c ∈ cs, isBlank c = false) :
  trimNumber cs = cs
  := by
  have hdrop : ∀ l : List Char, (∀ c ∈ l, isBlank c = false) → l.dropWhile isNumberBlank = l := by
    intro l hl
    cases l with
    | nil => rfl
    | cons c rest =>
        rw [List.dropWhile_cons_of_neg]
        simp [isNumberBlank, hl c List.mem_cons_self]
  rw [trimNumber, hdrop cs h, hdrop, List.reverse_reverse]
  intro c hc
  apply h c (List.mem_reverse.mp hc)

/-! ### Plain digits -/

/-- The code points of the plain digits. -/
theorem toNat_of_isDigit (h : c.isDigit = true) :
  48 ≤ c.toNat ∧ c.toNat ≤ 57
  := by
  simpa [Char.isDigit, UInt32.le_iff_toNat_le] using h

theorem isBlank_of_isDigit (h : c.isDigit = true) :
  isBlank c = false
  := by
  obtain ⟨hlow, hhigh⟩ := toNat_of_isDigit h
  apply isBlank_eq_false <;> omega

theorem digitValue?_of_isDigit (h : c.isDigit = true) :
  digitValue? c = some (c.toNat - 48)
  := by
  obtain ⟨hlow, hhigh⟩ := toNat_of_isDigit h
  rw [digitValue?, zeroDigits, List.find?_cons_of_pos]
  · rfl
  · simp
    omega

theorem isDigit_of_isDigit (h : c.isDigit = true) :
  isDigit c = true
  := by
  rw [isDigit, digitValue?_of_isDigit h]
  rfl

theorem ne_of_isDigit {b : Char} (h : c.isDigit = true) (hb : b.isDigit = false) :
  c ≠ b
  := by
  rintro rfl
  rw [h] at hb
  cases hb

/-- The number that plain digits denote. -/
theorem valueFrom_eq (hcs : ∀ c ∈ cs, c.isDigit = true) (n : Nat) :
  valueFrom n cs = Nat.ofDigitChars 10 cs n
  := by
  induction cs generalizing n with
  | nil => rfl
  | cons c rest ih =>
      have hrest : ∀ c ∈ rest, c.isDigit = true := fun b hb => hcs b (List.mem_cons_of_mem c hb)
      rw [valueFrom, digitValue?_of_isDigit (hcs c List.mem_cons_self), ih hrest]
      rfl

theorem digitsValue_eq (hcs : ∀ c ∈ cs, c.isDigit = true) :
  digitsValue cs = Nat.ofDigitChars 10 cs 0
  := valueFrom_eq hcs 0

/-! ### Digits of any script -/

theorem valueFrom_lt (n : Nat) (cs : List Char) :
  valueFrom n cs < (n + 1) * 10 ^ cs.length
  := by
  induction cs generalizing n with
  | nil => simp [valueFrom]
  | cons c rest ih =>
      have hdigit : (digitValue? c).getD 0 < 10 := by
        cases hc : digitValue? c with
        | none => simp
        | some v => simpa [hc] using digitValue?_lt hc
      rw [valueFrom, List.length_cons, Nat.pow_succ]
      calc valueFrom (10 * n + (digitValue? c).getD 0) rest
          < (10 * n + (digitValue? c).getD 0 + 1) * 10 ^ rest.length := ih _
        _ ≤ (n + 1) * 10 * 10 ^ rest.length := by
          apply Nat.mul_le_mul_right
          omega
        _ = (n + 1) * (10 ^ rest.length * 10) := by ring

theorem digitsValue_lt (cs : List Char) :
  digitsValue cs < 10 ^ cs.length
  := by
  have hlt := valueFrom_lt 0 cs
  rwa [Nat.zero_add, Nat.one_mul] at hlt

/-- A digit is one of a run of ten. -/
theorem isDigit_iff :
  isDigit c = true ↔ ∃ z ∈ zeroDigits, z ≤ c.toNat ∧ c.toNat < z + 10
  := by
  simp [isDigit, digitValue?]

/-- No digit is a blank. -/
theorem isBlank_of_digit (h : isDigit c = true) :
  isBlank c = false
  := by
  have hsmall : smallBlanks.all (fun b => !isDigit b) = true := by decide +kernel
  have hwide : wideBlanks.all (fun b => !isDigit b) = true := by decide +kernel
  have hspaces : ∀ z ∈ zeroDigits, z + 10 ≤ 8192 ∨ 8202 < z := by decide
  rw [← Bool.not_eq_true]
  intro hblank
  simp only [isBlank, Bool.or_eq_true, List.contains_iff_mem, Bool.and_eq_true,
    decide_eq_true_eq] at hblank
  rcases hblank with (hmem | ⟨hlow, hhigh⟩) | hmem
  · have hc := List.all_eq_true.mp hsmall c hmem
    rw [h] at hc
    cases hc
  · obtain ⟨z, hz, hle, hlt⟩ := isDigit_iff.mp h
    rw [Char.le_def, UInt32.le_iff_toNat_le, Char.toNat_val, Char.toNat_val] at hlow hhigh
    have hlow' : 8192 ≤ c.toNat := hlow
    have hhigh' : c.toNat ≤ 8202 := hhigh
    have hout := hspaces z hz
    omega
  · have hc := List.all_eq_true.mp hwide c hmem
    rw [h] at hc
    cases hc

theorem ne_of_digit {b : Char} (h : isDigit c = true) (hb : isDigit b = false) :
  c ≠ b
  := by
  rintro rfl
  rw [h] at hb
  cases hb

variable (hcs : ∀ c ∈ cs, isDigit c = true)

include hcs

theorem marksWellPlaced_of_isDigit :
  marksWellPlaced cs = true
  := by
  induction cs with
  | nil => rfl
  | cons c rest ih =>
      have hrest : ∀ c ∈ rest, isDigit c = true := fun b hb => hcs b (List.mem_cons_of_mem c hb)
      have hc : c ≠ '_' := ne_of_digit (hcs c List.mem_cons_self) rfl
      rw [marksWellPlaced]
      · apply ih hrest
      · rintro rfl
        apply absurd rfl hc
      · rintro more rfl
        apply absurd rfl hc

theorem splitSign_of_isDigit :
  splitSign cs = (false, cs)
  := by
  unfold splitSign
  split
  · cases hcs '-' List.mem_cons_self
  · cases hcs '+' List.mem_cons_self
  · rfl

/-- Digits are passed over as a whole. -/
theorem moreDigits_append (hrest : moreDigits rest = ([], rest)) :
  moreDigits (cs ++ rest) = (cs, rest)
  := by
  induction cs with
  | nil => apply hrest
  | cons c more ih =>
      have hmore : ∀ c ∈ more, isDigit c = true := fun b hb => hcs b (List.mem_cons_of_mem c hb)
      rw [List.cons_append, moreDigits, if_pos (hcs c List.mem_cons_self), ih hmore]

theorem splitDigits_append (hnil : cs ≠ []) (hrest : moreDigits rest = ([], rest)) :
  splitDigits (cs ++ rest) = (cs, rest)
  := by
  have hstart : startsWithDigit (cs ++ rest) = true := by
    cases cs with
    | nil => exact (hnil rfl).elim
    | cons c more => exact hcs c List.mem_cons_self
  rw [splitDigits, if_pos hstart, moreDigits_append hcs hrest]

/-! ### Integers -/

/-- Digits are read as the number that they denote, unless there are too many of them. -/
theorem readInteger_digits (hnil : cs ≠ []) :
  readInteger (String.ofList cs)
    = if Fault.maxDigits < cs.length then .error (.tooManyDigits cs.length)
      else .ok (digitsValue cs)
  := by
  have hblank : ∀ c ∈ cs, isBlank c = false := fun c hc => isBlank_of_digit (hcs c hc)
  have htake : cs.takeWhile isDigitOrMark = cs := by
    rw [List.takeWhile_eq_self_iff]
    intro c hc
    rw [isDigitOrMark, hcs c hc, Bool.true_or]
  have hfilter : cs.filter isDigit = cs := List.filter_eq_self.mpr hcs
  have hhead : (cs.head? == some '_') = false := by
    cases cs with
    | nil => rfl
    | cons c rest => simpa using ne_of_digit (hcs c List.mem_cons_self) rfl
  rw [readInteger, String.toList_ofList, trimNumber_eq hblank, splitSign_of_isDigit hcs]
  simp only [htake, hfilter, hhead, marksWellPlaced_of_isDigit hcs,
    List.isEmpty_eq_false_iff.mpr hnil, Bool.or_false, Bool.not_true, Bool.false_eq_true,
    if_false, ne_eq, not_true_eq_false]

omit hcs

/-- A number with few enough digits to be written is read back. -/
theorem readInteger_toDigits {n : Nat} (h : isWritable n = true) :
  readInteger (String.ofList (Nat.toDigits 10 n)) = .ok n
  := by
  have hdigits : ∀ c ∈ Nat.toDigits 10 n, c.isDigit = true :=
    fun c hc => Nat.isDigit_of_mem_toDigits (by decide) (by decide) hc
  have hlength : (Nat.toDigits 10 n).length ≤ Fault.maxDigits := by
    have hwritable : (n : Int).natAbs < Nat.pow 10 Fault.maxDigits := of_decide_eq_true h
    have hmax : 0 < Fault.maxDigits := by decide
    generalize Fault.maxDigits = max at hwritable hmax ⊢
    apply (Nat.length_toDigits_le_iff (by decide) hmax).mpr hwritable
  rw [readInteger_digits (fun c hc => isDigit_of_isDigit (hdigits c hc)) Nat.toDigits_ne_nil,
    if_neg (Nat.not_lt.mpr hlength), digitsValue_eq hdigits,
    Nat.ofDigitChars_toDigits (by decide) (by decide)]

end Montage.Text
