import Mathlib.Tactic.Common
import Montage.Proofs.Double.Order
import Montage.Store.Basic

/-!
# Lists of segments in order

`Segment.precedes` is a strict order, so a list has at most one arrangement in which every
element precedes all that follow: `Segment.arranged_eq` says that a list is put into that
arrangement whenever there is one.  There is one if the starts are numbers and the ids
differ, as `Segment.arranged_sorted` says, since of two such segments one precedes the other.
-/

namespace Montage

namespace Arrangement

variable {α : Type} {precedes : α → α → Bool}

/-- An element is put between those that precede it and those that do not. -/
theorem insert_append {x : α} {before after : List α} (hb : ∀ y ∈ before, precedes y x)
    (ha : ∀ y ∈ after, precedes y x = false) :
  insert precedes x (before ++ after) = before ++ x :: after
  := by
  induction before with
  | nil =>
      cases after with
      | nil => rfl
      | cons y rest => simp [insert, ha y]
  | cons y rest ih =>
      simp only [List.cons_append, insert]
      rw [if_pos (hb y List.mem_cons_self), ih fun z hz => hb z (List.mem_cons_of_mem y hz)]

/-- Insertion finds the arrangement of a list in which every element precedes all that
follow, if there is one. -/
theorem inserted_eq (asymm : ∀ x y, precedes x y → precedes y x = false)
    {l m : List α} (h : l.Perm m) (hm : m.Pairwise fun x y => precedes x y) :
  inserted precedes l = m
  := by
  induction l generalizing m with
  | nil =>
      obtain rfl := List.nil_perm.mp h
      rfl
  | cons x rest ih =>
      obtain ⟨before, after, rfl⟩ := List.append_of_mem (h.mem_iff.mp List.mem_cons_self)
      obtain ⟨hbefore, hafter, hacross⟩ := List.pairwise_append.mp hm
      obtain ⟨hx, hafter⟩ := List.pairwise_cons.mp hafter
      have hrest : rest.Perm (before ++ after) :=
        (List.perm_cons x).mp (h.trans List.perm_middle)
      have hsorted : (before ++ after).Pairwise fun x y => precedes x y := by
        apply List.pairwise_append.mpr ⟨hbefore, hafter, _⟩
        intro y hy z hz
        apply hacross y hy z (List.mem_cons_of_mem x hz)
      change insert precedes x (inserted precedes rest) = _
      rw [ih hrest hsorted]
      apply insert_append
      · intro y hy
        apply hacross y hy x List.mem_cons_self
      · intro y hy
        apply asymm x y (hx y hy)

theorem insert_perm (x : α) (l : List α) :
  (insert precedes x l).Perm (x :: l)
  := by
  induction l with
  | nil => rfl
  | cons y rest ih =>
      rw [insert]
      split
      · apply (ih.cons y).trans (List.Perm.swap x y rest)
      · rfl

theorem inserted_perm (l : List α) :
  (inserted precedes l).Perm l
  := by
  induction l with
  | nil => rfl
  | cons x rest ih => apply (insert_perm x _).trans (ih.cons x)

/-- An element that can be compared with all others is put where the list stays in order. -/
theorem insert_sorted (trans : ∀ x y z, precedes x y → precedes y z → precedes x z) {x : α}
    {l : List α} (hl : l.Pairwise fun x y => precedes x y)
    (hx : ∀ y ∈ l, precedes x y ∨ precedes y x) :
  (insert precedes x l).Pairwise fun x y => precedes x y
  := by
  induction l with
  | nil => apply List.pairwise_singleton
  | cons y rest ih =>
      obtain ⟨hy, hrest⟩ := List.pairwise_cons.mp hl
      have hrest' := ih hrest fun z hz => hx z (List.mem_cons_of_mem y hz)
      rw [insert]
      split
      · rename_i hyx
        apply List.pairwise_cons.mpr ⟨_, hrest'⟩
        intro z hz
        rcases List.mem_cons.mp ((insert_perm x rest).mem_iff.mp hz) with rfl | hz
        · apply hyx
        · apply hy z hz
      · rename_i hyx
        have hxy := (hx y List.mem_cons_self).resolve_right hyx
        apply List.pairwise_cons.mpr ⟨_, hl⟩
        intro z hz
        rcases List.mem_cons.mp hz with rfl | hz
        · apply hxy
        · apply trans x y z hxy (hy z hz)

/-- A list whose elements can all be compared is put into order. -/
theorem inserted_sorted (trans : ∀ x y z, precedes x y → precedes y z → precedes x z)
    {l : List α} (h : l.Pairwise fun x y => precedes x y ∨ precedes y x) :
  (inserted precedes l).Pairwise fun x y => precedes x y
  := by
  induction l with
  | nil => apply List.Pairwise.nil
  | cons x rest ih =>
      obtain ⟨hx, hrest⟩ := List.pairwise_cons.mp h
      apply insert_sorted trans (ih hrest)
      intro y hy
      apply hx y ((inserted_perm rest).mem_iff.mp hy)

end Arrangement

namespace Segment

/-- A segment precedes another if it starts earlier, or at the same time under a smaller
id. -/
theorem precedes_iff {a b : Segment} :
  a.precedes b = true ↔ ∃ x y, a.start.place? = some x ∧ b.start.place? = some y
    ∧ (x < y ∨ x = y ∧ a.id < b.id)
  := by
  unfold precedes
  split
  · rename_i heq
    obtain ⟨x, hx, hy⟩ := Double.equals_iff.mp heq
    simp [hx, hy]
  · rename_i heq
    rw [decide_eq_true_eq, Double.lt_iff]
    constructor
    · rintro ⟨x, y, hx, hy, hlt⟩
      exact ⟨x, y, hx, hy, Or.inl hlt⟩
    · rintro ⟨x, y, hx, hy, hlt | ⟨rfl, -⟩⟩
      · exact ⟨x, y, hx, hy, hlt⟩
      · apply (heq (Double.equals_iff.mpr ⟨x, hx, hy⟩)).elim

/-- A segment with an earlier start comes first. -/
theorem precedes_of_start_lt {a b : Segment} (h : a.start < b.start) :
  a.precedes b = true
  := by
  simp [precedes, Double.equals_eq_false_of_lt h, h]

theorem precedes_trans {a b c : Segment} (hab : a.precedes b = true)
    (hbc : b.precedes c = true) :
  a.precedes c = true
  := by
  obtain ⟨x, y, hx, hy, hxy⟩ := precedes_iff.mp hab
  obtain ⟨y', z, hy', hz, hyz⟩ := precedes_iff.mp hbc
  obtain rfl := Option.some.inj (hy.symm.trans hy')
  apply precedes_iff.mpr ⟨x, z, hx, hz, _⟩
  omega

theorem precedes_asymm (a b : Segment) (h : a.precedes b = true) :
  b.precedes a = false
  := by
  apply Bool.eq_false_iff.mpr
  intro h'
  obtain ⟨x, y, hx, hy, hlt⟩ := precedes_iff.mp h
  obtain ⟨y', x', hy', hx', hlt'⟩ := precedes_iff.mp h'
  obtain rfl := Option.some.inj (hx.symm.trans hx')
  obtain rfl := Option.some.inj (hy.symm.trans hy')
  omega

/-- Of two segments with numbers for starts and different ids one precedes the other. -/
theorem precedes_or_precedes {a b : Segment} (ha : a.start ≠ .nan) (hb : b.start ≠ .nan)
    (hid : a.id ≠ b.id) :
  a.precedes b = true ∨ b.precedes a = true
  := by
  obtain ⟨x, hx⟩ := Double.exists_place ha
  obtain ⟨y, hy⟩ := Double.exists_place hb
  have hcases : (x < y ∨ x = y ∧ a.id < b.id) ∨ (y < x ∨ y = x ∧ b.id < a.id) := by
    omega
  apply hcases.imp
  · intro h
    apply precedes_iff.mpr ⟨x, y, hx, hy, h⟩
  · intro h
    apply precedes_iff.mpr ⟨y, x, hy, hx, h⟩

section Arranged

variable {α : Type} {segment : α → Segment} {l m : List α}

/-- Where all starts are numbers, a list is put into order by insertion. -/
theorem arranged_of_numeric (h : ∀ x ∈ l, (segment x).start ≠ .nan) :
  arranged segment l = Arrangement.inserted (fun x y => (segment x).precedes (segment y)) l
  := by
  have hall : (l.all fun x => decide ((segment x).start ≠ .nan)) = true := by
    apply List.all_eq_true.mpr
    intro x hx
    apply decide_eq_true (h x hx)
  rw [arranged, if_pos hall]

/-- A list is put into the arrangement in which each element precedes all that follow. -/
theorem arranged_eq (h : l.Perm m) (hnum : ∀ x ∈ m, (segment x).start ≠ .nan)
    (hm : m.Pairwise fun x y => (segment x).precedes (segment y)) :
  arranged segment l = m
  := by
  rw [arranged_of_numeric fun x hx => hnum x (h.mem_iff.mp hx)]
  apply Arrangement.inserted_eq _ h hm
  intro x y
  apply precedes_asymm

theorem arranged_perm (hnum : ∀ x ∈ l, (segment x).start ≠ .nan) :
  (arranged segment l).Perm l
  := by
  rw [arranged_of_numeric hnum]
  apply Arrangement.inserted_perm

/-- Segments with numbers for starts and different ids are put into order. -/
theorem arranged_sorted (hnum : ∀ x ∈ l, (segment x).start ≠ .nan)
    (hids : l.Pairwise fun x y => (segment x).id ≠ (segment y).id) :
  (arranged segment l).Pairwise fun x y => (segment x).precedes (segment y)
  := by
  rw [arranged_of_numeric hnum]
  apply Arrangement.inserted_sorted
  · intro x y z
    apply precedes_trans
  · apply hids.imp_of_mem
    intro x y hx hy
    apply precedes_or_precedes (hnum x hx) (hnum y hy)

end Arranged

end Segment

end Montage
