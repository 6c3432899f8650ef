import Montage.Proofs.Header.Form

/-!
# Values that are read back

A name is written between double quotes, whatever quotes and blanks are in it; an integer with
its digits; a colour as it is; and a fraction with at most four places.  Each of them is read
back from its text, which stays on one line and has no blanks at its ends.
-/

namespace Montage

/-- A text that can be written between the quotes of a line. -/
def IsName (s : String) : Prop :=
  s ≠ "" ∧ '\n' ∉ s.toList

instance (s : String) : Decidable (IsName s) :=
  inferInstanceAs (Decidable (_ ∧ _))

/-- A positive integer that is short enough to be written. -/
def IsCount (n : Int) : Prop :=
  0 < n ∧ Text.isWritable n = true

instance (n : Int) : Decidable (IsCount n) :=
  inferInstanceAs (Decidable (_ ∧ _))

/-- A number sign and six hexadecimal digits, with capital letters. -/
def IsColor (s : String) : Prop :=
  ∃ digits, s.toList = '#' :: digits ∧ digits.length = 6
    ∧ ∀ c ∈ digits, c.isDigit = true ∨ 'A' ≤ c ∧ c ≤ 'F'

/-- The double nearest to a number of ten-thousandths from 0 to 1. -/
def IsFraction (x : Double) : Prop :=
  ∃ k : Nat, k ≤ 10000 ∧ x = Double.quotient k 10000

namespace Directive

/-- Characters on one line that are read as a value, with no blanks to be removed. -/
structure Kind.Reads (k : Kind) (cs : List Char) (v : Value) : Prop where
  line : '\n' ∉ cs
  front : ∀ c, cs.head? = some c → Text.isBlank c = false
  back : ∀ c, cs.getLast? = some c → Text.isBlank c = false
  read : k.read? cs = some (some v)

variable {cs : List Char}

/-- What has the form of a kind is read as the value that it denotes. -/
theorem Kind.Form.reads {k : Kind} {v : Value} (h : k.Form cs (some v)) (hfeed : '\n' ∉ cs) :
  k.Reads cs v
  := ⟨hfeed, h.isTrimmed.front, h.isTrimmed.back, Kind.read?_eq_some_iff.mpr h⟩

theorem Kind.Form.reads_of_ne {k : Kind} {v : Value} (h : k.Form cs (some v)) (hk : k ≠ .name) :
  k.Reads cs v
  := by
  apply h.reads
  intro hfeed
  cases h.isBlank hk '\n' hfeed

/-! ### Names -/

theorem reads_name {s : String} (h : IsName s) :
  Kind.name.Reads ("\"" ++ s ++ "\"").toList (.text s)
  := by
  obtain ⟨hempty, hfeed⟩ := h
  have htext : ("\"" ++ s ++ "\"").toList = '"' :: (s.toList ++ ['"']) := by
    rw [String.toList_append, String.toList_append]
    rfl
  have hinner : s.toList ≠ [] := by simpa using hempty
  have hform := Kind.Form.name hinner
  rw [String.ofList_toList, ← htext] at hform
  apply hform.reads
  rw [htext]
  simpa using hfeed

/-! ### Integers -/

theorem areDigits_of_isDigit (hnil : cs ≠ []) (h : ∀ c ∈ cs, c.isDigit = true) :
  areDigits cs = true
  := areDigits_iff.mpr ⟨hnil, fun c hc => Text.isDigit_of_isDigit (h c hc)⟩

/-- The text of a positive integer consists of digits that denote it. -/
theorem toList_count {n : Int} (h : IsCount n) :
  areDigits (toString n).toList = true ∧ numeral? (toString n).toList = some n
  := by
  obtain ⟨hpos, hwritable⟩ := h
  obtain ⟨m, rfl⟩ := Int.eq_ofNat_of_zero_le hpos.le
  have htext : (toString (m : Int)).toList = Nat.toDigits 10 m := by
    change (toString m).toList = _
    rw [Nat.toString_eq_repr, Nat.toList_repr]
  have hdigits : areDigits (Nat.toDigits 10 m) = true := by
    apply areDigits_of_isDigit Nat.toDigits_ne_nil
    intro c hc
    apply Nat.isDigit_of_mem_toDigits (b := 10) (by decide) (by decide) hc
  change areDigits (toString (m : Int)).toList = true ∧ _
  rw [htext]
  refine ⟨hdigits, ?_⟩
  rw [← positive?_eq hdigits, positive?, Text.readInteger_toDigits hwritable]
  apply if_pos hpos

theorem reads_count {n : Int} (h : IsCount n) :
  Kind.count.Reads (toString n).toList (.count n)
  := by
  obtain ⟨hdigits, hvalue⟩ := toList_count h
  have hform := Kind.Form.count hdigits
  rw [hvalue] at hform
  exact hform.reads_of_ne (by decide)

theorem reads_sides {w h : Int} (hw : IsCount w) (hh : IsCount h) :
  Kind.sides.Reads (toString w ++ "x" ++ toString h).toList (.sides w h)
  := by
  obtain ⟨hwdigits, hwvalue⟩ := toList_count hw
  obtain ⟨hhdigits, hhvalue⟩ := toList_count hh
  have htext : (toString w ++ "x" ++ toString h).toList
      = (toString w).toList ++ 'x' :: (toString h).toList := by
    rw [String.toList_append, String.toList_append, List.append_assoc]
    rfl
  have hcross : Text.isLetter 'X' 'x' = true := by decide
  have hform := Kind.Form.sides hwdigits hcross hhdigits
  rw [hwvalue, hhvalue] at hform
  rw [htext]
  exact hform.reads_of_ne (by decide)

/-! ### Colours -/

theorem reads_color {s : String} (h : IsColor s) :
  Kind.color.Reads s.toList (.text s)
  := by
  obtain ⟨digits, htext, hlength, hdigits⟩ := h
  have hhex : ∀ c ∈ digits, isHexDigit c = true := by
    intro c hc
    rcases hdigits c hc with hdigit | hcapital
    · simp [isHexDigit, hdigit]
    · simp [isHexDigit, hcapital]
  have hupper : digits.map Char.toUpper = digits := by
    have hself : ∀ c ∈ digits, c.toUpper = id c := by
      intro c hc
      apply Text.toUpper_of_lt
      rcases hdigits c hc with hdigit | ⟨-, hhigh⟩
      · have hcode := Text.toNat_of_isDigit hdigit
        omega
      · have hcode : c.toNat ≤ 70 := UInt32.le_iff_toNat_le.mp hhigh
        omega
    rw [List.map_congr_left hself, List.map_id]
  have hform := Kind.Form.color hlength hhex
  rw [hupper, ← htext, String.ofList_toList] at hform
  exact hform.reads_of_ne (by decide)

/-! ### Fractions -/

theorem reads_fraction {x : Double} (h : IsFraction x) :
  Kind.fraction.Reads (Header.renderFraction x).toList (.fraction x)
  := by
  obtain ⟨k, hk, hx⟩ := h
  have hread : readFraction? (Header.renderFraction x).toList = some x := by
    rw [hx]
    exact Header.readFraction?_renderFraction hk
  obtain ⟨n, htext, hvalue⟩ := readFraction?_eq_some_iff.mp hread
  have hform := Kind.Form.fraction htext
  rw [← hvalue] at hform
  exact hform.reads_of_ne (by decide)

end Directive

end Montage
