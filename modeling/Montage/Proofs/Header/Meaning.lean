import Montage.Proofs.Header.Line
import Montage.Proofs.Header.RoundTrip

/-!
# What a header means

The lines in front of the first separator decide the configuration, each directive on its own:
the last line of a directive with an admissible value gives its value, and without such a line
the default stays.  As no line is one of two directives, the order in which the directives are
tried does not matter.
-/

namespace Montage

namespace Directive

variable {d d' : Directive} {line : List Char} {v : Value}

/-! ### One line -/

/-- Values of the form that a kind prescribes. -/
inductive Kind.Holds : Kind → Value → Prop where
  | name (s : String) : Holds .name (.text s)
  | sides (width height : Int) : Holds .sides (.sides width height)
  | count (n : Int) : Holds .count (.count n)
  | color (s : String) : Holds .color (.text s)
  | fraction (x : Double) : Holds .fraction (.fraction x)

theorem Kind.Form.holds {k : Kind} {cs : List Char} (h : k.Form cs (some v)) :
  k.Holds v
  := by
  generalize hv : some v = v' at h
  cases h with
  | name hinner =>
      cases hv
      exact .name _
  | sides hwidth hx hheight =>
      obtain ⟨width, -, hv⟩ := Option.bind_eq_some_iff.mp hv.symm
      obtain ⟨height, -, hv⟩ := Option.bind_eq_some_iff.mp hv
      cases hv
      exact .sides _ _
  | count hdigits =>
      obtain ⟨n, -, rfl⟩ := Option.map_eq_some_iff.mp hv.symm
      exact .count n
  | color hlength hdigits =>
      cases hv
      exact .color _
  | fraction hcs =>
      cases hv
      exact .fraction _

theorem Matches.holds (h : d.Matches line (some v)) :
  d.kind.Holds v
  := by
  obtain ⟨-, -, -, -, hform, -⟩ := h
  exact hform.holds

/-- A directive sets its own value and leaves those of the others. -/
theorem valueIn_set (h : d.kind.Holds v) (c : Config) (d' : Directive) :
  d'.valueIn (d.set v c) = if d' = d then v else d'.valueIn c
  := by
  cases d <;> cases h <;> cases d' <;> rfl

/-- The value of a directive changes with a line of its own only. -/
theorem valueIn_apply_of_matches (h : d.Matches line (some v)) (c : Config) :
  d.valueIn (apply line c) = v
  := by
  have happly : apply line c = d.set v c := applyFrom_of_matches (mem_all d) h c
  rw [happly, valueIn_set h.holds, if_pos rfl]

theorem valueIn_apply_of_forall (h : ∀ v, ¬ d.Matches line (some v)) (c : Config) :
  d.valueIn (apply line c) = d.valueIn c
  := by
  by_cases hline : ∃ d' ∈ all, ∃ v, d'.Matches line (some v)
  · obtain ⟨d', hd', v, hmatches⟩ := hline
    have happly : apply line c = d'.set v c := applyFrom_of_matches hd' hmatches c
    have hne : d ≠ d' := by
      rintro rfl
      exact h v hmatches
    rw [happly, valueIn_set hmatches.holds, if_neg hne]
  · push Not at hline
    have happly : apply line c = c := applyFrom_of_forall hline c
    rw [happly]

/-! ### All lines -/

/-- The value that lines give to a directive: that of the last one with an admissible value for
it, and the default if there is none. -/
inductive Given (d : Directive) : List (List Char) → Value → Prop where
  | default {ls : List (List Char)} (hnone : ∀ l ∈ ls, ∀ v, ¬ d.Matches l (some v)) :
      Given d ls (d.valueIn {})
  | last {before after : List (List Char)} {l : List Char} {v : Value}
      (hl : d.Matches l (some v)) (hafter : ∀ l ∈ after, ∀ v, ¬ d.Matches l (some v)) :
      Given d (before ++ l :: after) v

theorem Given.append_of_forall {ls : List (List Char)} (h : d.Given ls v)
    (hline : ∀ v, ¬ d.Matches line (some v)) :
  d.Given (ls ++ [line]) v
  := by
  cases h with
  | default hnone =>
      apply Given.default
      intro l hl
      rcases List.mem_append.mp hl with hl | hl
      · exact hnone l hl
      · exact List.mem_singleton.mp hl ▸ hline
  | last hl hafter =>
      rw [List.append_assoc, List.cons_append]
      apply Given.last hl
      intro l hl
      rcases List.mem_append.mp hl with hl | hl
      · exact hafter l hl
      · exact List.mem_singleton.mp hl ▸ hline

/-- Where elements of a kind occur in a list, one of them is the last. -/
theorem eq_of_last {α : Type} {P : α → Prop} {before before' after after' : List α} {a a' : α}
    (ha : P a) (ha' : P a') (hafter : ∀ b ∈ after, ¬ P b) (hafter' : ∀ b ∈ after', ¬ P b)
    (h : before ++ a :: after = before' ++ a' :: after') :
  a = a'
  := by
  rcases List.append_eq_append_iff.mp h with ⟨middle, -, hrest⟩ | ⟨middle, -, hrest⟩
  · cases middle with
    | nil => exact (List.cons.inj hrest).1
    | cons b more =>
        obtain ⟨-, rfl⟩ := List.cons.inj hrest
        exact absurd ha' (hafter a' (List.mem_append_right _ List.mem_cons_self))
  · cases middle with
    | nil => exact (List.cons.inj hrest).1.symm
    | cons b more =>
        obtain ⟨-, rfl⟩ := List.cons.inj hrest
        exact absurd ha (hafter' a (List.mem_append_right _ List.mem_cons_self))

/-- Lines give a directive one value. -/
theorem Given.unique {ls : List (List Char)} {v' : Value} (h : d.Given ls v)
    (h' : d.Given ls v') :
  v = v'
  := by
  generalize hls : ls = ls' at h'
  cases h with
  | default hnone =>
      cases h' with
      | default => rfl
      | last hl =>
          subst hls
          exact absurd hl (hnone _ (List.mem_append_right _ List.mem_cons_self) _)
  | last hl hafter =>
      cases h' with
      | default hnone =>
          subst hls
          exact absurd hl (hnone _ (List.mem_append_right _ List.mem_cons_self) _)
      | last hl' hafter' =>
          have hvalid : ∀ {ls : List (List Char)}, (∀ l ∈ ls, ∀ v, ¬ d.Matches l (some v)) →
              ∀ l ∈ ls, ¬ ∃ v, d.Matches l (some v) :=
            fun hnone l hl ⟨v, hv⟩ => hnone l hl v hv
          obtain rfl := eq_of_last ⟨_, hl⟩ ⟨_, hl'⟩ (hvalid hafter) (hvalid hafter') hls
          exact Option.some.inj (hl.unique hl')

/-- The lines give each directive the value that it has after they were applied in order. -/
theorem given_foldl (d : Directive) (ls : List (List Char)) :
  d.Given ls (d.valueIn (ls.foldl (fun c l => apply l c) {}))
  := by
  induction ls using List.reverseRecOn with
  | nil => exact .default nofun
  | append_singleton ls line ih =>
      rw [List.foldl_append, List.foldl_cons, List.foldl_nil]
      by_cases hline : ∃ v, d.Matches line (some v)
      · obtain ⟨v, hmatches⟩ := hline
        rw [valueIn_apply_of_matches hmatches]
        exact .last hmatches nofun
      · push Not at hline
        rw [valueIn_apply_of_forall hline]
        exact ih.append_of_forall hline

end Directive

namespace Header

open Directive (valueIn Matches applyFrom)

/-- The lines of a text in front of its first separator. -/
def HasLines (text : String) (ls : List (List Char)) : Prop :=
  ∃ separator rest, Text.splitLines text.toList = ls ++ separator :: rest
    ∧ isSeparator separator = true ∧ ∀ l ∈ ls, isSeparator l = false

/-- A text has a first separator or none at all. -/
theorem hasLines_or (text : String) :
  (∃ ls, HasLines text ls) ∨ ∀ l ∈ Text.splitLines text.toList, isSeparator l = false
  := by
  cases hfind : (Text.splitLines text.toList).find? isSeparator with
  | none =>
      right
      intro l hl
      exact Bool.not_eq_true _ ▸ List.find?_eq_none.mp hfind l hl
  | some separator =>
      left
      obtain ⟨hseparator, ls, rest, hlines, hls⟩ := List.find?_eq_some_iff_append.mp hfind
      exact ⟨ls, separator, rest, hlines, hseparator, by simpa using hls⟩

theorem split_of_hasLines {text : String} {ls : List (List Char)} (h : HasLines text ls) :
  split text = (ls.foldl (fun c l => Directive.apply l c) {}, ls.length + 1)
  := by
  obtain ⟨separator, rest, hlines, hseparator, hls⟩ := h
  rw [split, hlines, splitFrom_append _ _ hls, splitFrom, if_pos hseparator, Nat.zero_add,
    Option.getD_some]

theorem split_of_forall {text : String}
    (h : ∀ l ∈ Text.splitLines text.toList, isSeparator l = false) :
  split text = ({}, 0)
  := by
  have hsplit := splitFrom_append {} 0 h []
  rw [List.append_nil, splitFrom] at hsplit
  rw [split, hsplit, Option.getD_none]

/-- What the lines of a text say about its configuration and its body. -/
structure Means (text : String) (c : Config) (start : Nat) : Prop where
  body : ∀ ls, HasLines text ls → start = ls.length + 1
  values : ∀ ls, HasLines text ls → ∀ (d : Directive) v, d.valueIn c = v ↔ d.Given ls v
  header : ∀ ls text', HasLines text ls → HasLines text' ls → split text' = (c, start)
  without : (∀ l ∈ Text.splitLines text.toList, isSeparator l = false) → c = {} ∧ start = 0

/-- A header sets each directive by the last line that has an admissible value for it, and no
line is one of two directives, in whatever order they are tried. -/
theorem split_means :
  (∀ text, Means text (split text).1 (split text).2)
    ∧ (∀ line d d' v v', Matches d line v → Matches d' line v' → d = d')
    ∧ ∀ table, table.Perm Directive.all → Directive.apply = applyFrom table
  := by
  refine ⟨?_, fun line d d' v v' => Directive.eq_of_matches, ?_⟩
  · intro text
    refine ⟨?_, ?_, ?_, ?_⟩
    · intro ls hls
      rw [split_of_hasLines hls]
    · intro ls hls d v
      rw [split_of_hasLines hls]
      have hgiven := Directive.given_foldl d ls
      exact ⟨fun hv => hv ▸ hgiven, hgiven.unique⟩
    · intro ls text' hls hls'
      rw [split_of_hasLines hls, split_of_hasLines hls']
    · intro hnone
      rw [split_of_forall hnone]
      exact ⟨rfl, rfl⟩
  · intro table htable
    exact (Directive.applyFrom_perm htable).symm

example : split "FRAMERATE 30\n framerate  ४\nFRAMERATE 0\n===\nFRAMERATE 5"
    = ({ frameRate := 4 }, 4) := by decide +kernel

end Header

end Montage
