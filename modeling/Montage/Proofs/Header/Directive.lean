import Montage.Proofs.Header.Line
import Montage.Proofs.Header.Value
import Montage.Proofs.Text.Lines

/-!
# Lines of directives

The line of a directive is its keyword, a blank, and the text of a value.  Such a line has the
form of its own directive, so it sets what its directive sets.  It ends as one line, and it
separates nothing.
-/

namespace Montage.Directive

/-- The line of a directive with the text of a value. -/
def line (d : Directive) (cs : List Char) : List Char :=
  d.keyword.toList ++ ' ' :: cs

variable {d : Directive} {cs : List Char} {v : Value}

/-! ### The form of a line -/

/-- The line of a directive has the form of that directive. -/
theorem matches_line (h : d.kind.Reads cs v) :
  d.Matches (d.line cs) (some v)
  := by
  have hkey := Text.spells_self (isCapital_of_mem_keyword d)
  have hgap : ∀ c ∈ [' '], Text.isBlank c = true := fun c hc => List.mem_singleton.mp hc ▸ rfl
  have hmatches : d.Matches ([] ++ (d.keyword.toList ++ ([' '] ++ (cs ++ [])))) (some v) :=
    .line nofun hkey (List.cons_ne_nil _ _) hgap (Kind.read?_eq_some_iff.mp h.read) nofun
  rwa [List.append_nil] at hmatches

/-- The line of a directive sets what the directive sets. -/
theorem apply_line (h : d.kind.Reads cs v) (c : Config) :
  apply (d.line cs) c = d.set v c
  := applyFrom_of_matches (mem_all d) (matches_line h) c

/-! ### The ends of a line -/

theorem isWhole_line (h : d.kind.Reads cs v) :
  Text.IsWhole (d.line cs)
  := by
  constructor
  · intro hmem
    rcases List.mem_append.mp hmem with hmem | hmem
    · cases (isCapital_of_mem_keyword d '\n' hmem).isBlank
    · rcases List.mem_cons.mp hmem with hmem | hmem
      · cases hmem
      · apply h.line hmem
  · intro hlast
    rw [line, List.getLast?_append, List.getLast?_cons, Option.some_or, Option.some.injEq] at hlast
    cases hend : cs.getLast? with
    | none =>
        rw [hend] at hlast
        cases hlast
    | some c =>
        obtain rfl : c = '\r' := by
          rwa [hend] at hlast
        cases h.back _ hend

theorem isSeparator_line :
  Header.isSeparator (d.line cs) = false
  := by
  have hblank : (d.line cs).all (· == '=') = false := by
    rw [List.all_eq_false]
    exact ⟨' ', List.mem_append_right _ List.mem_cons_self, by decide⟩
  rw [Header.isSeparator, hblank, Bool.and_false]

end Montage.Directive
