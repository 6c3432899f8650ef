import Montage.Proofs.Text.Number

/-!
# Blanks that set apart and blanks that surround

Words are set apart by gaps of one or more blanks; which blanks they are, and how many, makes
no difference.  Neither do the blanks around a text: a text without them is one that starts and
ends visibly, and whatever is blank may be put at its ends.
-/

namespace Montage.Text

/-! ### Gaps -/

/-- The blanks that set two words apart, at least one. -/
structure IsGap (gap : List Char) : Prop where
  ne_nil : gap ≠ []
  blank : ∀ c ∈ gap, isBlank c = true

variable {cs cs' front back gap rest : List Char}

theorem isGap_cons {c : Char} (hc : isBlank c = true) (hgap : ∀ b ∈ gap, isBlank b = true) :
  IsGap (c :: gap)
  := by
  refine ⟨List.cons_ne_nil c gap, ?_⟩
  intro b hb
  rcases List.mem_cons.mp hb with rfl | hb
  · exact hc
  · exact hgap b hb

theorem IsGap.head?_any (h : IsGap gap) (rest : List Char) :
  (gap ++ rest).head?.any isBlank = true
  := by
  cases gap with
  | nil => exact absurd rfl h.ne_nil
  | cons c more => exact h.blank c List.mem_cons_self

/-- All blanks of a gap are passed over, and so are those after it. -/
theorem IsGap.afterBlanks? (h : IsGap gap) (rest : List Char) :
  Text.afterBlanks? (gap ++ rest) = some (trimStart rest)
  := by
  cases gap with
  | nil => exact absurd rfl h.ne_nil
  | cons c more =>
      have hmore : ∀ b ∈ more, isBlank b = true :=
        fun b hb => h.blank b (List.mem_cons_of_mem c hb)
      rw [List.cons_append, Text.afterBlanks?, if_pos (h.blank c List.mem_cons_self), trimStart,
        List.dropWhile_append_of_pos hmore, ← trimStart]

theorem exists_isGap (h : afterBlanks? cs = some rest) :
  ∃ gap, IsGap gap ∧ cs = gap ++ rest
  := by
  obtain ⟨gap, hnil, hblank, hcs⟩ := exists_afterBlanks? h
  exact ⟨gap, ⟨hnil, hblank⟩, hcs⟩

/-! ### Blanks at the ends -/

theorem trimStart_eq_nil_iff :
  trimStart cs = [] ↔ ∀ c ∈ cs, isBlank c = true
  := List.dropWhile_eq_nil_iff

/-- Something remains of a text that is not blank as a whole. -/
theorem trimStart_ne_nil_iff :
  trimStart cs ≠ [] ↔ ∃ c ∈ cs, isBlank c = false
  := by
  rw [Ne, trimStart_eq_nil_iff]
  simp

/-- What remains is all that is left of the blanks at the end. -/
theorem trimEnd_eq_iff (hrest : ∀ c, rest.getLast? = some c → isBlank c = false) :
  trimEnd cs = rest ↔ ∃ back, (∀ c ∈ back, isBlank c = true) ∧ cs = rest ++ back
  := by
  constructor
  · rintro rfl
    exact exists_trimEnd cs
  · rintro ⟨back, hback, rfl⟩
    exact trimEnd_append hrest hback

theorem trim_eq_iff (hrest : ∀ c, rest.getLast? = some c → isBlank c = false) :
  trim cs = rest ↔ ∃ back, (∀ c ∈ back, isBlank c = true) ∧ trimStart cs = rest ++ back
  := trimEnd_eq_iff hrest

/-- Blanks that follow what is visible are the only ones at the end. -/
theorem trimEnd_append_of_visible (h : ∃ c ∈ rest, isBlank c = false) (cs : List Char) :
  trimEnd (cs ++ rest) = cs ++ trimEnd rest
  := by
  have hvisible : ¬ (rest.reverse.dropWhile isBlank).isEmpty = true := by
    obtain ⟨c, hc, hblank⟩ := h
    rw [List.isEmpty_iff, List.dropWhile_eq_nil_iff]
    intro hall
    rw [hall c (List.mem_reverse.mpr hc)] at hblank
    cases hblank
  rw [trimEnd, List.reverse_append, List.dropWhile_append, if_neg hvisible, List.reverse_append,
    List.reverse_reverse, ← trimEnd]

theorem trimEnd_append_blank (hback : ∀ c ∈ back, isBlank c = true) (cs : List Char) :
  trimEnd (cs ++ back) = trimEnd cs
  := by
  rw [trimEnd, List.reverse_append, List.dropWhile_append_of_pos, ← trimEnd]
  exact fun c hc => hback c (List.mem_reverse.mp hc)

/-- Blanks around a text make no difference. -/
theorem trim_append (hfront : ∀ c ∈ front, isBlank c = true) (hback : ∀ c ∈ back, isBlank c = true)
    (cs : List Char) :
  trim (front ++ (cs ++ back)) = trim cs
  := by
  rw [trim, trimStart, List.dropWhile_append_of_pos hfront, List.dropWhile_append, ← trimStart]
  split
  · rename_i hcs
    rw [List.isEmpty_iff] at hcs
    rw [trim, hcs, ← trimStart, trimStart_eq_nil_iff.mpr hback]
  · exact trimEnd_append_blank hback _

theorem trim_append_blank (hback : ∀ c ∈ back, isBlank c = true) (cs : List Char) :
  trim (cs ++ back) = trim cs
  := by
  have hfront : ∀ c ∈ ([] : List Char), isBlank c = true := fun _ hc => absurd hc List.not_mem_nil
  exact trim_append hfront hback cs

theorem trim_trimEnd (cs : List Char) :
  trim (trimEnd cs) = trim cs
  := by
  obtain ⟨back, hback, hcs⟩ := exists_trimEnd cs
  conv_rhs => rw [hcs, trim_append_blank hback]

/-- What remains of a text stands between its blanks at both ends. -/
theorem exists_trim (cs : List Char) :
  ∃ front back, (∀ c ∈ front, isBlank c = true) ∧ (∀ c ∈ back, isBlank c = true)
    ∧ cs = front ++ (trim cs ++ back)
  := by
  obtain ⟨front, hfront, hcs⟩ := exists_trimStart cs
  obtain ⟨back, hback, hrest⟩ := exists_trimEnd (trimStart cs)
  refine ⟨front, back, hfront, hback, ?_⟩
  conv_lhs => rw [hcs, hrest]
  rw [trim]

/-- What remains of a text is blank only if the text is. -/
theorem forall_mem_trim_iff :
  (∀ c ∈ trim cs, isBlank c = true) ↔ ∀ c ∈ cs, isBlank c = true
  := by
  obtain ⟨front, back, hfront, hback, hcs⟩ := exists_trim cs
  constructor
  · intro h c hc
    rw [hcs, List.mem_append, List.mem_append] at hc
    rcases hc with hc | hc | hc
    · exact hfront c hc
    · exact h c hc
    · exact hback c hc
  · intro h c hc
    apply h
    rw [hcs]
    exact List.mem_append_right _ (List.mem_append_left _ hc)

theorem trim_eq_nil_iff :
  trim cs = [] ↔ ∀ c ∈ cs, isBlank c = true
  := by
  constructor
  · intro h
    rw [← forall_mem_trim_iff, h]
    exact nofun
  · intro h
    rw [trim, trimStart_eq_nil_iff.mpr h]
    rfl

/-- What remains of a text is blank only if nothing does. -/
theorem trim_blank_iff :
  (∀ c ∈ trim cs, isBlank c = true) ↔ trim cs = []
  := forall_mem_trim_iff.trans trim_eq_nil_iff.symm

/-- What is visible remains. -/
theorem exists_mem_trimEnd (h : ∃ c ∈ cs, isBlank c = false) :
  ∃ c ∈ trimEnd cs, isBlank c = false
  := by
  obtain ⟨c, hc, hvisible⟩ := h
  obtain ⟨back, hback, hcs⟩ := exists_trimEnd cs
  rw [hcs] at hc
  rcases List.mem_append.mp hc with hc | hc
  · exact ⟨c, hc, hvisible⟩
  · rw [hback c hc] at hvisible
    cases hvisible

end Montage.Text
