import Mathlib.Data.List.Forall2
import Montage.Proofs.Text.Number
import Montage.Text.Keyword

/-!
# Keywords that are found again

The small letters of the basic alphabet are at 97 and above, so what is below has one case
only.  A keyword in capitals is found where its letters stand, each in some case.  Letters that
a blank follows are those of one keyword only: a keyword that it starts with is followed by no
blank.
-/

namespace Montage.Text

theorem toUpper_of_lt {c : Char} (h : c.toNat < 97) :
  c.toUpper = c
  := by
  have hsmall : ¬ ('a'.val ≤ c.val ∧ c.val ≤ 'z'.val) := by
    rintro ⟨hlow, -⟩
    rw [UInt32.le_iff_toNat_le, Char.toNat_val, Char.toNat_val] at hlow
    have hcode : 'a'.toNat = 97 := rfl
    omega
  exact dif_neg hsmall

/-- A character without cases is in some case the letters that it is. -/
theorem isLetter_iff {capital c : Char} (h : c.toNat < 97) :
  isLetter capital c = true ↔ capital = c
  := by
  have hother : ∀ b : Char, 97 ≤ b.toNat → c ≠ b := by
    rintro b hb rfl
    omega
  rw [isLetter, toUpper_of_lt h]
  simp [hother '\u0130' (by decide), hother '\u0131' (by decide), hother '\u017f' (by decide),
    hother '\u212a' (by decide), eq_comm]

/-- The capitals and signs that keywords consist of. -/
def IsCapital (c : Char) : Prop :=
  33 ≤ c.toNat ∧ c.toNat < 97

theorem IsCapital.isBlank {c : Char} (h : IsCapital c) :
  Text.isBlank c = false
  := by
  obtain ⟨hlow, hhigh⟩ := h
  apply isBlank_eq_false hlow (by omega)

/-- What is found after a keyword in capitals is what follows its letters. -/
theorem keyword?_eq_some_iff {ks cs rest : List Char} :
  keyword? ks cs = some rest ↔ cs = ks ++ rest
  := by
  induction ks generalizing cs with
  | nil => simp [keyword?]
  | cons k more ih =>
      cases cs with
      | nil => simp [keyword?]
      | cons c front =>
          rw [keyword?]
          split
          · rename_i hk
            rw [ih, hk, List.cons_append, List.cons.injEq, and_iff_right rfl]
          · rename_i hk
            simp [Ne.symm hk]

/-! ### Letters of any case -/

/-- What is no small letter of the basic alphabet is its own capital. -/
theorem toUpper_eq_or (c : Char) :
  c.toUpper = c ∨ 97 ≤ c.toNat ∧ c.toNat ≤ 122
  := by
  by_cases hletter : 'a'.val ≤ c.val ∧ c.val ≤ 'z'.val
  · exact .inr ⟨UInt32.le_iff_toNat_le.mp hletter.1, UInt32.le_iff_toNat_le.mp hletter.2⟩
  · exact .inl (dif_neg hletter)

/-- The letters outside the basic alphabet that count as one of its capitals. -/
def specialLetters : List (Char × Char) :=
  [('\u0130', 'I'), ('\u0131', 'I'), ('\u017f', 'S'), ('\u212a', 'K')]

theorem toUpper_or_special {capital c : Char} (h : isLetter capital c = true) :
  c.toUpper = capital ∨ (c, capital) ∈ specialLetters
  := by
  simp only [isLetter, Bool.or_eq_true, Bool.and_eq_true, decide_eq_true_eq] at h
  rcases h with ((h | ⟨rfl, rfl | rfl⟩) | ⟨rfl, rfl⟩) | ⟨rfl, rfl⟩
  · exact .inl h
  all_goals
    right
    decide

/-- No character is two capitals, each in some case. -/
theorem eq_of_isLetter {k k' c : Char} (hk : IsCapital k) (hk' : IsCapital k')
    (h : isLetter k c = true) (h' : isLetter k' c = true) :
  k = k'
  := by
  -- The special letters are above all capitals and have no capital of the alphabet.
  have hspecial : ∀ p ∈ specialLetters, 97 ≤ p.1.toUpper.toNat := by decide
  have hfunctional : ∀ p ∈ specialLetters, ∀ q ∈ specialLetters, p.1 = q.1 → p.2 = q.2 := by
    decide
  rcases toUpper_or_special h with hupper | hmem
  · rcases toUpper_or_special h' with hupper' | hmem'
    · rw [← hupper, hupper']
    · have hhigh := hspecial _ hmem'
      rw [hupper] at hhigh
      exact absurd hk.2 (Nat.not_lt.mpr hhigh)
  · rcases toUpper_or_special h' with hupper' | hmem'
    · have hhigh := hspecial _ hmem
      rw [hupper'] at hhigh
      exact absurd hk'.2 (Nat.not_lt.mpr hhigh)
    · exact hfunctional _ hmem _ hmem' rfl

/-- No capital in any case is a blank. -/
theorem isBlank_of_isLetter {k c : Char} (hk : IsCapital k) (h : isLetter k c = true) :
  isBlank c = false
  := by
  have hspecial : ∀ p ∈ specialLetters, Text.isBlank p.1 = false := by decide
  rcases toUpper_or_special h with hupper | hmem
  · rcases toUpper_eq_or c with hself | ⟨hlow, hhigh⟩
    · rw [← hself, hupper]
      exact hk.isBlank
    · apply isBlank_eq_false <;> omega
  · exact hspecial _ hmem

/-- What is no digit is none in any case. -/
theorem isDigit_of_isLetter {k c : Char} (hk : isDigit k = false) (h : isLetter k c = true) :
  isDigit c = false
  := by
  have hspecial : ∀ p ∈ specialLetters, isDigit p.1 = false := by decide
  have hsmall : ∀ z ∈ zeroDigits, z + 10 ≤ 97 ∨ 122 < z := by decide
  rcases toUpper_or_special h with hupper | hmem
  · rcases toUpper_eq_or c with hself | ⟨hlow, hhigh⟩
    · rw [← hself, hupper, hk]
    · rw [← Bool.not_eq_true, isDigit_iff]
      rintro ⟨z, hz, hle, hlt⟩
      have hout := hsmall z hz
      omega
  · exact hspecial _ hmem

/-- The letters of a keyword, each in some case. -/
def Spells (word cs : List Char) : Prop :=
  List.Forall₂ (fun k c => isLetter k c = true) word cs

theorem spells_self {ks : List Char} (hks : ∀ c ∈ ks, IsCapital c) :
  Spells ks ks
  := List.forall₂_same.mpr fun c hc => (isLetter_iff (hks c hc).2).mpr rfl

/-- What is found after a keyword is what follows its letters. -/
theorem looseKeyword?_eq_some_iff {ks cs rest : List Char} :
  looseKeyword? ks cs = some rest ↔ ∃ key, Spells ks key ∧ cs = key ++ rest
  := by
  induction ks generalizing cs with
  | nil =>
      rw [looseKeyword?, Option.some.injEq]
      constructor
      · rintro rfl
        exact ⟨[], List.Forall₂.nil, rfl⟩
      · rintro ⟨key, hkey, hcs⟩
        cases hkey
        exact hcs
  | cons k more ih =>
      cases cs with
      | nil =>
          rw [looseKeyword?]
          refine ⟨nofun, ?_⟩
          rintro ⟨key, hkey, hcs⟩
          cases hkey
          cases hcs
      | cons c front =>
          rw [looseKeyword?]
          constructor
          · intro h
            split at h
            · rename_i hk
              obtain ⟨key, hkey, rfl⟩ := ih.mp h
              exact ⟨c :: key, List.Forall₂.cons hk hkey, rfl⟩
            · cases h
          · rintro ⟨key, hkey, hcs⟩
            cases hkey with
            | cons hk hkey =>
                obtain ⟨rfl, rfl⟩ := List.cons.inj hcs
                rw [if_pos hk]
                exact ih.mpr ⟨_, hkey, rfl⟩

theorem Spells.ne_nil {ks key : List Char} (h : Spells ks key) (hks : ks ≠ []) :
  key ≠ []
  := by
  rintro rfl
  cases h
  exact hks rfl

theorem Spells.isBlank {ks key : List Char} (h : Spells ks key) (hks : ∀ c ∈ ks, IsCapital c) :
  ∀ c ∈ key, Text.isBlank c = false
  := by
  induction h with
  | nil => nofun
  | cons hk hmore ih =>
      intro b hb
      rcases List.mem_cons.mp hb with rfl | hb
      · exact isBlank_of_isLetter (hks _ List.mem_cons_self) hk
      · exact ih (fun c hc => hks c (List.mem_cons_of_mem _ hc)) b hb

/-- Letters that a blank follows are those of one keyword only. -/
theorem Spells.unique {ks ks' key key' gap gap' : List Char} (h : Spells ks key)
    (hks : ∀ c ∈ ks, IsCapital c) (hks' : ∀ c ∈ ks', IsCapital c) (h' : Spells ks' key')
    (hgap : gap.head?.any Text.isBlank = true) (hgap' : gap'.head?.any Text.isBlank = true)
    (heq : key ++ gap = key' ++ gap') :
  ks = ks'
  := by
  induction h generalizing ks' key' with
  | nil =>
      cases h' with
      | nil => rfl
      | cons hk' hmore' =>
          rw [List.nil_append] at heq
          rw [heq, List.cons_append, List.head?_cons, Option.any_some,
            isBlank_of_isLetter (hks' _ List.mem_cons_self) hk'] at hgap
          cases hgap
  | cons hk hmore ih =>
      cases h' with
      | nil =>
          rw [List.nil_append] at heq
          rw [← heq, List.cons_append, List.head?_cons, Option.any_some,
            isBlank_of_isLetter (hks _ List.mem_cons_self) hk] at hgap'
          cases hgap'
      | cons hk' hmore' =>
          obtain ⟨rfl, htail⟩ := List.cons.inj heq
          rw [eq_of_isLetter (hks _ List.mem_cons_self) (hks' _ List.mem_cons_self) hk hk',
            ih (fun c hc => hks c (List.mem_cons_of_mem _ hc))
              (fun c hc => hks' c (List.mem_cons_of_mem _ hc)) hmore' htail]

end Montage.Text
