import Mathlib.Tactic.Common
import Montage.Text.Lines

/-!
# Texts that are put together

Parts of a text can be told from each other if what stands between them occurs in none of
them.  Lines joined by line feeds are an instance, as long as none of them is empty.  Cutting
a text into lines brings back the lines in front of it that end with a line feed, and all lines
of a text that was put together from the lines of another, as long as each carriage return in
that one belongs to a line end.
-/

namespace Montage.Text

variable {α : Type}

/-- What stands before the first occurrence of an element, and what stands after it. -/
theorem append_cons_inj {a : α} {x x' y y' : List α} (hx : a ∉ x) (hx' : a ∉ x')
    (h : x ++ a :: y = x' ++ a :: y') :
  x = x' ∧ y = y'
  := by
  induction x generalizing x' with
  | nil =>
      cases x' with
      | nil => exact ⟨rfl, (List.cons.inj h).2⟩
      | cons b rest' =>
          obtain rfl := (List.cons.inj h).1
          exact (hx' List.mem_cons_self).elim
  | cons b rest ih =>
      cases x' with
      | nil =>
          obtain rfl := (List.cons.inj h).1
          exact (hx List.mem_cons_self).elim
      | cons b' rest' =>
          obtain ⟨rfl, hrest⟩ := List.cons.inj h
          obtain ⟨rfl, rfl⟩ := ih (fun hmem => hx (List.mem_cons_of_mem b hmem))
            (fun hmem => hx' (List.mem_cons_of_mem b hmem)) hrest
          exact ⟨rfl, rfl⟩

/-- A line that is not empty and has no line feed in it. -/
def IsLine (line : List Char) : Prop :=
  line ≠ [] ∧ '\n' ∉ line

theorem joinLines_ne_nil {line : List Char} {rest : List (List Char)} (h : line ≠ []) :
  joinLines (line :: rest) ≠ []
  := by
  cases rest with
  | nil => apply h
  | cons line' rest' =>
      rw [joinLines]
      · simp
      · exact nofun

/-- The lines of a text of one line or more. -/
theorem joinLines_cons (line : List Char) (rest : List (List Char)) :
  joinLines (line :: rest)
    = if rest = [] then line else line ++ '\n' :: joinLines rest
  := by
  cases rest with
  | nil => rfl
  | cons line' rest' => rfl

/-- Lines can be told from the text they make up. -/
theorem joinLines_injective {ls ls' : List (List Char)} (hls : ∀ l ∈ ls, IsLine l)
    (hls' : ∀ l ∈ ls', IsLine l) (h : joinLines ls = joinLines ls') :
  ls = ls'
  := by
  induction ls generalizing ls' with
  | nil =>
      cases ls' with
      | nil => rfl
      | cons l' rest' => exact (joinLines_ne_nil (hls' l' List.mem_cons_self).1 h.symm).elim
  | cons l rest ih =>
      have hl := hls l List.mem_cons_self
      cases ls' with
      | nil => exact (joinLines_ne_nil hl.1 h).elim
      | cons l' rest' =>
          have hl' := hls' l' List.mem_cons_self
          have hrest : ∀ l ∈ rest, IsLine l := fun x hx => hls x (List.mem_cons_of_mem l hx)
          have hrest' : ∀ l ∈ rest', IsLine l := fun x hx => hls' x (List.mem_cons_of_mem l' hx)
          rw [joinLines_cons, joinLines_cons] at h
          by_cases hnil : rest = [] <;> by_cases hnil' : rest' = []
          · rw [if_pos hnil, if_pos hnil'] at h
            rw [hnil, hnil', h]
          · rw [if_pos hnil, if_neg hnil'] at h
            apply (hl.2 _).elim
            rw [h]
            simp
          · rw [if_neg hnil, if_pos hnil'] at h
            apply (hl'.2 _).elim
            rw [← h]
            simp
          · rw [if_neg hnil, if_neg hnil'] at h
            obtain ⟨rfl, hjoined⟩ := append_cons_inj hl.2 hl'.2 h
            rw [ih hrest hrest' hjoined]

/-! ### Cutting into lines -/

/-- What is cut out as one line where a line feed follows it. -/
def IsWhole (line : List Char) : Prop :=
  '\n' ∉ line ∧ line.getLast? ≠ some '\r'

theorem splitLines_append {line : List Char} (h : IsWhole line) (rest : List Char) :
  splitLines (line ++ '\n' :: rest) = line :: splitLines rest
  := by
  obtain ⟨hfeed, hreturn⟩ := h
  induction line with
  | nil => rw [List.nil_append, splitLines]
  | cons c cs ih =>
      have hcs : '\n' ∉ cs := fun hmem => hfeed (List.mem_cons_of_mem c hmem)
      have hc : c ≠ '\n' := by
        rintro rfl
        apply hfeed List.mem_cons_self
      have hlast : cs.getLast? ≠ some '\r' := by
        cases cs with
        | nil => exact nofun
        | cons b more => simpa using hreturn
      rw [List.cons_append, splitLines, ih hcs hlast]
      · -- The first character starts no pair of carriage return and line feed.
        rintro more rfl hmore
        cases cs with
        | nil => apply hreturn rfl
        | cons b more' =>
            obtain ⟨rfl, -⟩ := List.cons.inj hmore
            apply hcs List.mem_cons_self
      · apply hc

/-- A line without a line feed is cut out as a whole at the end of a text. -/
theorem splitLines_of_not_mem {line : List Char} (h : '\n' ∉ line) :
  splitLines line = [line]
  := by
  induction line with
  | nil => rfl
  | cons c cs ih =>
      have hcs : '\n' ∉ cs := fun hmem => h (List.mem_cons_of_mem c hmem)
      rw [splitLines, ih hcs]
      · rintro more - rfl
        exact hcs List.mem_cons_self
      · rintro rfl
        exact h List.mem_cons_self

/-- Lines are brought back from the text they make up. -/
theorem splitLines_joinLines_self {ls : List (List Char)} (hnil : ls ≠ [])
    (h : ∀ line ∈ ls, IsWhole line) :
  splitLines (joinLines ls) = ls
  := by
  induction ls with
  | nil => exact absurd rfl hnil
  | cons line more ih =>
      have hline := h line List.mem_cons_self
      have hmore : ∀ l ∈ more, IsWhole l := fun l hl => h l (List.mem_cons_of_mem line hl)
      rw [joinLines_cons]
      split
      · rename_i hlast
        rw [hlast, splitLines_of_not_mem hline.1]
      · rename_i hsome
        rw [splitLines_append hline, ih hsome hmore]

/-- Lines with a line feed after each of them are brought back, whatever follows. -/
theorem splitLines_joinLines {ls : List (List Char)} (h : ∀ line ∈ ls, IsWhole line)
    (rest : List Char) :
  splitLines (joinLines (ls ++ [[]]) ++ rest) = ls ++ splitLines rest
  := by
  induction ls with
  | nil => rfl
  | cons line more ih =>
      have hmore : ∀ l ∈ more, IsWhole l := fun l hl => h l (List.mem_cons_of_mem line hl)
      rw [List.cons_append, joinLines_cons, if_neg (by simp), List.append_assoc, List.cons_append,
        splitLines_append (h line List.mem_cons_self), ih hmore, List.cons_append]

theorem splitLines_ne_nil (cs : List Char) :
  splitLines cs ≠ []
  := by
  fun_induction splitLines cs <;> exact List.cons_ne_nil _ _

theorem not_mem_of_mem_splitLines {cs line : List Char} (h : line ∈ splitLines cs) :
  '\n' ∉ line
  := by
  fun_induction splitLines cs generalizing line with
  | case1 =>
      obtain rfl := List.mem_singleton.mp h
      exact nofun
  | case2 cs ih | case3 cs ih =>
      rcases List.mem_cons.mp h with rfl | hrest
      · exact nofun
      · exact ih hrest
  | case4 c cs _ _ hnil => exact absurd hnil (splitLines_ne_nil cs)
  | case5 c cs hpair hfeed first rest hcons ih =>
      have hfirst := ih (hcons ▸ List.mem_cons_self)
      rcases List.mem_cons.mp h with rfl | hrest
      · simp [hfirst, Ne.symm hfeed]
      · apply ih
        rw [hcons]
        apply List.mem_cons_of_mem first hrest

/-! ### Paired carriage returns -/

/-- Every carriage return has a line feed right after it. -/
def ReturnsPaired (cs : List Char) : Prop :=
  ∀ i, cs[i]? = some '\r' → cs[i + 1]? = some '\n'

instance (cs : List Char) : Decidable (ReturnsPaired cs) :=
  decidable_of_iff (∀ i < cs.length, cs[i]? = some '\r' → cs[i + 1]? = some '\n')
    ⟨fun h i hi => h i (List.getElem?_eq_some_iff.mp hi).1 hi, fun h i _ hi => h i hi⟩

theorem ReturnsPaired.tail {c : Char} {cs : List Char} (h : ReturnsPaired (c :: cs)) :
  ReturnsPaired cs
  := fun i hi => h (i + 1) hi

/-- The lines of a text with paired carriage returns have no line ends in them. -/
theorem ReturnsPaired.not_mem {cs line : List Char} (h : ReturnsPaired cs)
    (hline : line ∈ splitLines cs) :
  '\n' ∉ line ∧ '\r' ∉ line
  := by
  fun_induction splitLines cs generalizing line with
  | case1 =>
      obtain rfl := List.mem_singleton.mp hline
      exact ⟨nofun, nofun⟩
  | case2 cs ih =>
      rcases List.mem_cons.mp hline with rfl | hrest
      · exact ⟨nofun, nofun⟩
      · apply ih h.tail.tail hrest
  | case3 cs ih =>
      rcases List.mem_cons.mp hline with rfl | hrest
      · exact ⟨nofun, nofun⟩
      · apply ih h.tail hrest
  | case4 c cs _ _ hnil => exact absurd hnil (splitLines_ne_nil cs)
  | case5 c cs hpair hfeed first rest hcons ih =>
      have hreturn : c ≠ '\r' := by
        rintro rfl
        cases cs with
        | nil => cases h 0 rfl
        | cons b more => exact hpair more rfl (congrArg (· :: more) (Option.some.inj (h 0 rfl)))
      have hfirst := ih h.tail (hcons ▸ List.mem_cons_self)
      rcases List.mem_cons.mp hline with rfl | hrest
      · simp [hfirst, hreturn.symm, Ne.symm hfeed]
      · apply ih h.tail
        rw [hcons]
        apply List.mem_cons_of_mem first hrest

end Montage.Text
