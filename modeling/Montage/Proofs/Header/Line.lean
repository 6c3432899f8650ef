import Montage.Proofs.Header.Form

/-!
# The lines of directives

A line of a directive is its keyword in any letter case and a text of the form that its kind
prescribes, with blanks between them and around them.  The scanner finds exactly these lines and
the values that they denote.  No line is one of two directives, although some keywords start with
another one; so the order in which the directives are tried does not matter.
-/

namespace Montage.Directive

/-! ### Keywords -/

theorem isCapital_of_mem_keyword (d : Directive) :
  ∀ c ∈ d.keyword.toList, Text.IsCapital c
  := by
  have hall : d.keyword.toList.all (fun c => 33 ≤ c.toNat && c.toNat < 97) = true := by
    cases d <;> decide
  intro c hc
  simpa [Text.IsCapital] using List.all_eq_true.mp hall c hc

theorem keyword_injective {d d' : Directive} (h : d.keyword = d'.keyword) :
  d = d'
  := by
  have hfind : ∀ d : Directive, all.find? (·.keyword == d.keyword) = some d := by
    intro d
    cases d <;> decide
  apply Option.some.inj
  rw [← hfind d, h, hfind d']

/-! ### Lines -/

/-- The lines of a directive, and the value that each gives to it. -/
inductive Matches (d : Directive) : List Char → Option Value → Prop where
  | line {front key gap cs back : List Char} {v : Option Value}
      (hfront : ∀ c ∈ front, Text.isBlank c = true) (hkey : Text.Spells d.keyword.toList key)
      (hnil : gap ≠ []) (hgap : ∀ c ∈ gap, Text.isBlank c = true) (hform : d.kind.Form cs v)
      (hback : ∀ c ∈ back, Text.isBlank c = true) :
      Matches d (front ++ (key ++ (gap ++ (cs ++ back)))) v

variable {d d' : Directive} {line : List Char} {v v' : Option Value}

theorem keyword_ne_nil (d : Directive) :
  d.keyword.toList ≠ []
  := by
  cases d <;> decide

/-- The keyword of a line is where the blanks in front of it end. -/
theorem trimStart_matches {front key rest : List Char}
    (hfront : ∀ c ∈ front, Text.isBlank c = true) (hkey : Text.Spells d.keyword.toList key) :
  Text.trimStart (front ++ (key ++ rest)) = key ++ rest
  := by
  apply Text.trimStart_append hfront
  have hvisible := hkey.isBlank (isCapital_of_mem_keyword d)
  intro c hc
  cases key with
  | nil => exact absurd rfl (hkey.ne_nil (keyword_ne_nil d))
  | cons b more =>
      obtain rfl := Option.some.inj hc
      exact hvisible b List.mem_cons_self

/-- A line is found to give a value to a directive exactly if it is a line of the directive. -/
theorem scan?_eq_some_iff :
  d.scan? line = some v ↔ d.Matches line v
  := by
  constructor
  · intro h
    obtain ⟨rest, hkey, h⟩ := Option.bind_eq_some_iff.mp h
    obtain ⟨rest', hgap, hread⟩ := Option.bind_eq_some_iff.mp h
    obtain ⟨front, hfront, hline⟩ := Text.exists_trimStart line
    obtain ⟨key, hspells, htrimmed⟩ := Text.looseKeyword?_eq_some_iff.mp hkey
    obtain ⟨gap, hnil, hblank, rfl⟩ := Text.exists_afterBlanks? hgap
    obtain ⟨back, hback, hrest⟩ := Text.exists_trimEnd rest'
    rw [hline, htrimmed, hrest]
    exact .line hfront hspells hnil hblank (Kind.read?_eq_some_iff.mp hread) hback
  · rintro ⟨hfront, hkey, hnil, hgap, hform, hback⟩
    rename_i front key gap cs back
    have hends := hform.isTrimmed
    have hhead : ∀ c, (cs ++ back).head? = some c → Text.isBlank c = false := by
      intro c hc
      cases cs with
      | nil => exact absurd rfl hends.nonempty
      | cons b more => exact hends.front c hc
    have hfound : Text.looseKeyword? d.keyword.toList
        (Text.trimStart (front ++ (key ++ (gap ++ (cs ++ back))))) = some (gap ++ (cs ++ back)) := by
      rw [trimStart_matches hfront hkey]
      exact Text.looseKeyword?_eq_some_iff.mpr ⟨key, hkey, rfl⟩
    rw [scan?, hfound, Option.bind_eq_bind, Option.bind_some,
      Text.afterBlanks?_append hnil hgap hhead, Option.bind_some, Text.trimEnd_append hends.back hback]
    exact Kind.read?_eq_some_iff.mpr hform

/-- A line gives one value. -/
theorem Matches.unique (h : d.Matches line v) (h' : d.Matches line v') :
  v = v'
  := by
  rw [← scan?_eq_some_iff] at h h'
  exact Option.some.inj (h.symm.trans h')

/-- What follows the keyword of a line starts with a blank. -/
theorem Matches.exists_key (h : d.Matches line v) :
  ∃ key rest, Text.Spells d.keyword.toList key ∧ rest.head?.any Text.isBlank = true
    ∧ Text.trimStart line = key ++ rest
  := by
  obtain ⟨hfront, hkey, hnil, hgap, hform, hback⟩ := h
  rename_i front key gap cs back
  refine ⟨key, gap ++ (cs ++ back), hkey, ?_, trimStart_matches hfront hkey⟩
  cases gap with
  | nil => exact absurd rfl hnil
  | cons b more => exact hgap b List.mem_cons_self

/-- No line is a line of two directives. -/
theorem eq_of_matches (h : d.Matches line v) (h' : d'.Matches line v') :
  d = d'
  := by
  obtain ⟨key, rest, hkey, hblank, htrim⟩ := h.exists_key
  obtain ⟨key', rest', hkey', hblank', htrim'⟩ := h'.exists_key
  apply keyword_injective
  apply String.toList_inj.mp
  exact hkey.unique (isCapital_of_mem_keyword d) (isCapital_of_mem_keyword d') hkey' hblank
    hblank' (htrim.symm.trans htrim')

/-! ### Tables of directives -/

/-- The change that a line makes to a configuration, by the first directive of a table whose
form it has. -/
def applyFrom (table : List Directive) (line : List Char) (c : Config) : Config :=
  match table.findSome? fun d => (d.scan? line).map (d, ·) with
  | some (d, some v) => d.set v c
  | _ => c

variable {table : List Directive}

theorem map_scan?_eq_some_iff {p : Directive × Option Value} :
  (d.scan? line).map (d, ·) = some p ↔ d = p.1 ∧ d.Matches line p.2
  := by
  simp only [Option.map_eq_some_iff, scan?_eq_some_iff]
  constructor
  · rintro ⟨v, hv, rfl⟩
    exact ⟨rfl, hv⟩
  · rintro ⟨rfl, hv⟩
    exact ⟨p.2, hv, rfl⟩

/-- The directive that is found in a table is the one that the line is of. -/
theorem findSome?_eq_some_iff :
  (table.findSome? fun d => (d.scan? line).map (d, ·)) = some (d, v)
    ↔ d ∈ table ∧ d.Matches line v
  := by
  constructor
  · intro h
    obtain ⟨d', hmem, hd'⟩ := List.exists_of_findSome?_eq_some h
    obtain ⟨rfl, hmatches⟩ := map_scan?_eq_some_iff.mp hd'
    exact ⟨hmem, hmatches⟩
  · rintro ⟨hmem, hmatches⟩
    have hfound : (d.scan? line).map (d, ·) = some (d, v) :=
      map_scan?_eq_some_iff.mpr ⟨rfl, hmatches⟩
    cases hfind : table.findSome? fun d => (d.scan? line).map (d, ·) with
    | none =>
        rw [List.findSome?_eq_none_iff.mp hfind d hmem] at hfound
        cases hfound
    | some p =>
        obtain ⟨d', -, hd'⟩ := List.exists_of_findSome?_eq_some hfind
        obtain ⟨rfl, hmatches'⟩ := map_scan?_eq_some_iff.mp hd'
        obtain rfl := eq_of_matches hmatches hmatches'
        exact hd'.symm.trans hfound

theorem applyFrom_of_matches {v : Value} (hd : d ∈ table) (h : d.Matches line (some v))
    (c : Config) :
  applyFrom table line c = d.set v c
  := by
  rw [applyFrom, findSome?_eq_some_iff.mpr ⟨hd, h⟩]

theorem applyFrom_of_forall (h : ∀ d ∈ table, ∀ v, ¬ d.Matches line (some v)) (c : Config) :
  applyFrom table line c = c
  := by
  rw [applyFrom]
  split
  · rename_i d v hfind
    obtain ⟨hmem, hmatches⟩ := findSome?_eq_some_iff.mp hfind
    exact absurd hmatches (h d hmem v)
  · rfl

/-- The order of the table does not matter. -/
theorem applyFrom_perm {table' : List Directive} (h : table.Perm table') :
  applyFrom table = applyFrom table'
  := by
  funext line c
  by_cases hline : ∃ d ∈ table, ∃ v, d.Matches line (some v)
  · obtain ⟨d, hd, v, hmatches⟩ := hline
    rw [applyFrom_of_matches hd hmatches, applyFrom_of_matches (h.mem_iff.mp hd) hmatches]
  · push Not at hline
    rw [applyFrom_of_forall hline,
      applyFrom_of_forall fun d hd => hline d (h.mem_iff.mpr hd)]

theorem mem_all (d : Directive) :
  d ∈ all
  := by
  cases d <;> decide

end Montage.Directive
