import Montage.Proofs.Scene.Partition

/-!
# What becomes of content

The lines of a scene are read with a paragraph in hand, which the next line of another kind
ends.  Here each part of the result is described by the lines that make it up.  The title is
what the first heading says and the subtitle what the quotes say.  A paragraph starts at each
later heading, and at each plain line that has no plain line right before it; then it takes all
plain lines up to the next line of another kind.  Both descriptions come to the same, and each
line that is not blank goes to exactly one part: `decomposes_decompose`.
-/

namespace Montage.Scene

namespace ContentLine

/-- What a heading says. -/
def heading? : ContentLine → Option (List Char)
  | heading text => some text
  | _ => none

/-- What a quote says. -/
def quote? : ContentLine → Option (List Char)
  | quote text => some text
  | _ => none

/-- What a plain line says. -/
def plain? : ContentLine → Option (List Char)
  | plain text => some text
  | _ => none

/-- A line is blank if it holds nothing but blanks. -/
theorem ofLine_eq_blank_iff {line : List Char} :
  ofLine line = blank ↔ line.all Text.isBlank = true
  := by
  refine ⟨fun h => ?_, ofLine_of_blank⟩
  have htrim : Text.trimStart line = [] := by
    rw [ofLine] at h
    split at h
    · assumption
    all_goals cases h
  rw [Text.trimStart, List.dropWhile_eq_nil_iff] at htrim
  apply List.all_eq_true.mpr htrim

end ContentLine

/-! ### Parts of content -/

section Parts

variable (ls : List (List Char))

/-- The kind of the line of an index, blank after the last line. -/
def kindAt (i : Nat) : ContentLine :=
  (ls[i]?.map ContentLine.ofLine).getD .blank

/-- Whether there is a heading before the line of an index. -/
def headingBefore (i : Nat) : Bool :=
  (ls.take i).any fun line => (ContentLine.ofLine line).heading?.isSome

/-- Whether the line right before that of an index is plain. -/
def plainBefore : Nat → Bool
  | 0 => false
  | i + 1 => (kindAt ls i).plain?.isSome

/-- What the quotes say. -/
def quoted : List (List Char) :=
  ls.filterMap fun line => (ContentLine.ofLine line).quote?

/-- What the plain lines say with which lines start, up to the first line of another kind. -/
def plainFront : List (List Char) → List (List Char)
  | [] => []
  | line :: rest =>
    match (ContentLine.ofLine line).plain? with
    | some text => text :: plainFront rest
    | none => []

/-- The paragraph that the first of some lines starts on a given line, where `titled` tells
whether there has been a heading and `inside` whether the line before is plain. -/
def opened? (titled inside : Bool) (number : Int) : List (List Char) → Option Paragraph
  | [] => none
  | line :: rest =>
    match ContentLine.ofLine line with
    | .heading text => if titled then some ⟨String.ofList text, number⟩ else none
    | .plain _ =>
      if inside then none
      else some ⟨String.ofList (Text.trim (Text.joinLines (plainFront (line :: rest)))), number⟩
    | _ => none

/-- The paragraph that starts on the line of an index, where lines are numbered from `first`
on. -/
def paragraphAt? (first : Int) (i : Nat) : Option Paragraph :=
  opened? (headingBefore ls i) (plainBefore ls i) (first + i) (ls.drop i)

/-- The parts that lines go to.  A paragraph is known by the index of the line it starts on. -/
inductive Part where
  | title
  | subtitle
  | paragraph (start : Nat)

/-- Whether the line of an index goes to a part. -/
def GoesTo (j : Nat) : Part → Prop
  | .title => (kindAt ls j).heading?.isSome ∧ headingBefore ls j = false
  | .subtitle => (kindAt ls j).quote?.isSome
  | .paragraph i =>
    (paragraphAt? ls 0 i).isSome ∧ (j = i ∨ i ≤ j ∧ j < i + (plainFront (ls.drop i)).length)

/-- How lines that are numbered from `first` on make up a title, a subtitle and free text. -/
structure Decomposes (first : Int) (parts : Option String × Option String × List Paragraph) :
    Prop where
  title : parts.1 = (ls.findSome? fun line => (ContentLine.ofLine line).heading?).map String.ofList
  subtitle : parts.2.1
    = if quoted ls = [] then none else some (String.ofList (Text.joinLines (quoted ls)))
  freeText : parts.2.2 = (List.range ls.length).filterMap (paragraphAt? ls first)
  /-- The plain lines of a paragraph run up to a line of another kind. -/
  runs : ∀ i,
    (∀ m text, (plainFront (ls.drop i))[m]? = some text → kindAt ls (i + m) = .plain text)
      ∧ (kindAt ls (i + (plainFront (ls.drop i)).length)).plain? = none
  /-- A line that is not blank goes to exactly one part. -/
  parted : ∀ (j : Nat) line, ls[j]? = some line → line.all Text.isBlank = false →
    ∃! part, GoesTo ls j part
  /-- A blank line goes to none. -/
  blank : ∀ (j : Nat) line, ls[j]? = some line → line.all Text.isBlank = true →
    ∀ part, ¬ GoesTo ls j part
  ascending : parts.2.2.Pairwise fun p q => p.line < q.line

end Parts

variable {ls rest : List (List Char)} {line : List Char} {i j k : Nat} {first : Int}

theorem kindAt_of_getElem? (h : ls[i]? = some line) :
  kindAt ls i = ContentLine.ofLine line
  := by
  rw [kindAt, h]
  rfl

theorem kindAt_drop (ls : List (List Char)) (i m : Nat) :
  kindAt (ls.drop i) m = kindAt ls (i + m)
  := by
  rw [kindAt, List.getElem?_drop, kindAt]

/-- The plain lines at the front are plain, and the next one is not. -/
theorem kindAt_plainFront (ls : List (List Char)) :
  (∀ m text, (plainFront ls)[m]? = some text → kindAt ls m = .plain text)
    ∧ (kindAt ls (plainFront ls).length).plain? = none
  := by
  induction ls with
  | nil => exact ⟨nofun, rfl⟩
  | cons line rest ih =>
      have hnext : ∀ m, kindAt (line :: rest) (m + 1) = kindAt rest m := fun m => by
        rw [kindAt, List.getElem?_cons_succ, kindAt]
      rw [plainFront]
      cases hkind : ContentLine.ofLine line with
      | plain text =>
          refine ⟨?_, (hnext _).symm ▸ ih.2⟩
          rintro (_ | m) text' h
          · cases h
            exact hkind
          · rw [hnext]
            apply ih.1 m text' h
      | blank | heading text | quote text =>
          refine ⟨nofun, ?_⟩
          change (kindAt (line :: rest) 0).plain? = none
          rw [kindAt_of_getElem? List.getElem?_cons_zero, hkind]
          rfl

theorem kindAt_run (ls : List (List Char)) (i : Nat) :
  (∀ m text, (plainFront (ls.drop i))[m]? = some text → kindAt ls (i + m) = .plain text)
    ∧ (kindAt ls (i + (plainFront (ls.drop i)).length)).plain? = none
  := by
  simp only [← kindAt_drop]
  apply kindAt_plainFront

/-! ### Gathering -/

namespace Gathered

variable {g : Gathered} {number : Int}

theorem title_close (g : Gathered) :
  g.close.title = g.title
  := by
  rw [close]
  split <;> rfl

theorem title_add (g : Gathered) (number : Int) (line : List Char) :
  (g.add number line).title
    = g.title.or ((ContentLine.ofLine line).heading?.map String.ofList)
  := by
  rw [add]
  cases ContentLine.ofLine line with
  | heading text =>
      dsimp only
      rw [title_close]
      cases g.title with
      | none => rfl
      | some title => rfl
  | blank | quote text | plain text => simp [ContentLine.heading?, title_close]

theorem quotes_close (g : Gathered) :
  g.close.quotes = g.quotes
  := by
  rw [close]
  split <;> rfl

theorem quotes_add (g : Gathered) (number : Int) (line : List Char) :
  (g.add number line).quotes = (ContentLine.ofLine line).quote?.toList ++ g.quotes
  := by
  have hclose : g.close.quotes = g.quotes := quotes_close g
  rw [add]
  cases ContentLine.ofLine line with
  | heading text =>
      dsimp only
      split <;> exact hclose
  | quote text => exact congrArg (text :: ·) hclose
  | blank => exact hclose
  | plain text => rfl

theorem title_addAll (g : Gathered) (number : Int) (ls : List (List Char)) :
  (g.addAll number ls).title
    = g.title.or ((ls.findSome? fun line => (ContentLine.ofLine line).heading?).map String.ofList)
  := by
  induction ls generalizing g number with
  | nil => simp [addAll]
  | cons line rest ih =>
      rw [addAll, ih, title_add, Option.or_assoc, List.findSome?_cons]
      cases (ContentLine.ofLine line).heading? <;> rfl

theorem quotes_addAll (g : Gathered) (number : Int) (ls : List (List Char)) :
  (g.addAll number ls).quotes = (quoted ls).reverse ++ g.quotes
  := by
  induction ls generalizing g number with
  | nil => rfl
  | cons line rest ih =>
      have hquoted : quoted (line :: rest)
          = (ContentLine.ofLine line).quote?.toList ++ quoted rest := by
        rw [quoted, List.filterMap_cons]
        cases (ContentLine.ofLine line).quote? <;> rfl
      rw [addAll, ih, quotes_add, hquoted]
      cases (ContentLine.ofLine line).quote? <;> simp

/-- The paragraph in hand, with lines that go on with it. -/
def pending (g : Gathered) (more : List (List Char)) : List Paragraph :=
  if g.paragraph.isEmpty then []
  else [⟨String.ofList (Text.trim (Text.joinLines (g.paragraph.reverse ++ more))), g.paragraphLine⟩]

theorem freeText_close (g : Gathered) :
  g.close.freeText.reverse = g.freeText.reverse ++ g.pending []
  := by
  rw [close, pending]
  split <;> simp

theorem paragraph_add (g : Gathered) (number : Int) (line : List Char) :
  (g.add number line).paragraph.isEmpty = !(ContentLine.ofLine line).plain?.isSome
  := by
  have hclose : g.close.paragraph.isEmpty = true := by
    rw [paragraph_close]
    rfl
  rw [add]
  cases ContentLine.ofLine line with
  | heading text =>
      dsimp only
      split <;> exact hclose
  | blank => exact hclose
  | quote text => exact hclose
  | plain text => rfl

/-- One more line ends the paragraph in hand unless it is plain, and may start another one. -/
theorem freeText_add (g : Gathered) (number : Int) (line : List Char)
    (rest : List (List Char)) :
  (g.add number line).freeText.reverse ++ (g.add number line).pending (plainFront rest)
    = g.freeText.reverse ++ g.pending (plainFront (line :: rest))
      ++ (opened? g.title.isSome (!g.paragraph.isEmpty) number (line :: rest)).toList
  := by
  have hnone : g.close.pending (plainFront rest) = [] := by
    rw [pending, paragraph_close]
    rfl
  have hclosed : g.close.freeText.reverse ++ g.close.pending (plainFront rest)
      = g.freeText.reverse ++ g.pending [] := by
    rw [hnone, freeText_close, List.append_nil]
  rw [add, opened?, plainFront]
  cases ContentLine.ofLine line with
  | blank => exact hclosed.trans (List.append_nil _).symm
  | quote text => exact hclosed.trans (List.append_nil _).symm
  | heading text =>
      dsimp only
      rw [title_close]
      cases g.title with
      | none => exact hclosed.trans (List.append_nil _).symm
      | some title =>
          change (⟨String.ofList text, number⟩ :: g.close.freeText).reverse
              ++ g.close.pending (plainFront rest)
            = g.freeText.reverse ++ g.pending [] ++ [⟨String.ofList text, number⟩]
          rw [hnone, List.append_nil, List.reverse_cons, freeText_close]
  | plain text =>
      by_cases hparagraph : g.paragraph = []
      · simp [pending, hparagraph, ContentLine.plain?]
      · simp [pending, hparagraph, ContentLine.plain?]

end Gathered

theorem headingBefore_succ (h : ls[k]? = some line) :
  headingBefore ls (k + 1) = (headingBefore ls k || (ContentLine.ofLine line).heading?.isSome)
  := by
  rw [headingBefore, List.take_add_one, List.any_append, h, headingBefore]
  simp

theorem plainBefore_succ (h : ls[k]? = some line) :
  plainBefore ls (k + 1) = (ContentLine.ofLine line).plain?.isSome
  := by
  rw [plainBefore, kindAt_of_getElem? h]

/-- Gathering from a place on, with a paragraph in hand if the line before is plain. -/
theorem freeText_addAll {g : Gathered} (hrest : ls.drop k = rest)
    (htitle : g.title.isSome = headingBefore ls k)
    (hparagraph : g.paragraph.isEmpty = !plainBefore ls k) (first : Int) :
  (g.addAll (first + k) rest).close.freeText.reverse
    = g.freeText.reverse ++ g.pending (plainFront rest)
      ++ (List.range' k rest.length).filterMap (paragraphAt? ls first)
  := by
  induction rest generalizing k g with
  | nil =>
      rw [Gathered.addAll, Gathered.freeText_close, plainFront]
      simp
  | cons line rest ih =>
      obtain ⟨hline, hdrop⟩ := getElem?_of_drop hrest
      have htitle' : (g.add (first + k) line).title.isSome = headingBefore ls (k + 1) := by
        rw [Gathered.title_add, headingBefore_succ hline, ← htitle]
        simp
      have hparagraph' : (g.add (first + k) line).paragraph.isEmpty = !plainBefore ls (k + 1) := by
        rw [Gathered.paragraph_add, plainBefore_succ hline]
      have hih := ih hdrop htitle' hparagraph'
      rw [Int.natCast_add, Int.natCast_one, ← Int.add_assoc] at hih
      rw [Gathered.addAll, hih, Gathered.freeText_add, List.length_cons, List.range'_succ,
        List.filterMap_cons, paragraphAt?, hrest, htitle, hparagraph, Bool.not_not]
      cases opened? (headingBefore ls k) (plainBefore ls k) (first + k) (line :: rest) <;> simp

/-! ### The parts of lines -/

/-- A paragraph starts at a heading that is not the first one, and at a plain line that has no
plain line before it. -/
theorem isSome_paragraphAt? :
  (paragraphAt? ls first i).isSome = true
    ↔ (kindAt ls i).heading?.isSome = true ∧ headingBefore ls i = true
      ∨ (kindAt ls i).plain?.isSome = true ∧ plainBefore ls i = false
  := by
  rw [paragraphAt?]
  have hkind : kindAt ls i = kindAt (ls.drop i) 0 := by rw [kindAt_drop, Nat.add_zero]
  rw [hkind]
  cases ls.drop i with
  | nil => simp [opened?, kindAt, ContentLine.heading?, ContentLine.plain?]
  | cons line rest =>
      rw [kindAt_of_getElem? List.getElem?_cons_zero, opened?]
      cases ContentLine.ofLine line <;> simp [ContentLine.heading?, ContentLine.plain?]

/-- A run reaches as far as all lines are plain. -/
theorem lt_run_iff :
  j < i + (plainFront (ls.drop i)).length
    ↔ ∀ m, i ≤ m → m ≤ j → (kindAt ls m).plain?.isSome = true
  := by
  obtain ⟨hplain, hend⟩ := kindAt_run ls i
  constructor
  · intro hj m him hmj
    have hlt : m - i < (plainFront (ls.drop i)).length := by omega
    have hm := hplain (m - i) _ (List.getElem?_eq_getElem hlt)
    rw [Nat.add_sub_cancel' him] at hm
    rw [hm]
    rfl
  · intro hall
    by_contra hge
    have hnext := hall (i + (plainFront (ls.drop i)).length) (by omega) (by omega)
    rw [hend] at hnext
    cases hnext

/-- A plain line belongs to the run that starts at some line before it. -/
theorem exists_run (hj : (kindAt ls j).plain?.isSome = true) :
  ∃ i ≤ j, plainBefore ls i = false ∧ ∀ m, i ≤ m → m ≤ j → (kindAt ls m).plain?.isSome = true
  := by
  induction j with
  | zero =>
      refine ⟨0, Nat.le_refl 0, rfl, fun m _ hm => ?_⟩
      obtain rfl := Nat.le_zero.mp hm
      exact hj
  | succ j ih =>
      cases hbefore : plainBefore ls (j + 1) with
      | false =>
          refine ⟨j + 1, Nat.le_refl _, hbefore, fun m hm hm' => ?_⟩
          obtain rfl := Nat.le_antisymm hm' hm
          exact hj
      | true =>
          obtain ⟨i, hij, hstart, hall⟩ := ih hbefore
          refine ⟨i, Nat.le_succ_of_le hij, hstart, fun m hm hm' => ?_⟩
          rcases Nat.le_succ_iff.mp hm' with hle | rfl
          · apply hall m hm hle
          · exact hj

/-- No line before the start of a run is joined to it by plain lines. -/
theorem le_of_run (hi : plainBefore ls i = false) (hik : i ≤ k)
    (hall : ∀ m, j ≤ m → m ≤ k → (kindAt ls m).plain?.isSome = true) :
  i ≤ j
  := by
  by_contra hlt
  obtain ⟨m, rfl⟩ := Nat.exists_eq_succ_of_ne_zero (show i ≠ 0 by omega)
  have hm : plainBefore ls (m + 1) = true := hall m (by omega) (by omega)
  rw [hi] at hm
  cases hm

/-- A line goes to a paragraph as a heading that is not the first, or as one of the plain lines
from the start of a run on. -/
theorem goesTo_paragraph :
  GoesTo ls j (.paragraph i)
    ↔ j = i ∧ (kindAt ls i).heading?.isSome = true ∧ headingBefore ls i = true
      ∨ i ≤ j ∧ plainBefore ls i = false
        ∧ ∀ m, i ≤ m → m ≤ j → (kindAt ls m).plain?.isSome = true
  := by
  rw [GoesTo, isSome_paragraphAt?]
  have hkinds : (kindAt ls i).heading?.isSome = true → (kindAt ls i).plain?.isSome = false := by
    cases kindAt ls i <;> simp [ContentLine.heading?, ContentLine.plain?]
  constructor
  · rintro ⟨⟨hheading, hbefore⟩ | ⟨hplain, hstart⟩, hj⟩
    · left
      refine ⟨?_, hheading, hbefore⟩
      rcases hj with rfl | ⟨hij, hj⟩
      · rfl
      · have hplain := lt_run_iff.mp hj i (Nat.le_refl i) hij
        rw [hkinds hheading] at hplain
        cases hplain
    · right
      rcases hj with rfl | ⟨hij, hj⟩
      · refine ⟨Nat.le_refl j, hstart, fun m hm hm' => ?_⟩
        obtain rfl := Nat.le_antisymm hm' hm
        exact hplain
      · exact ⟨hij, hstart, lt_run_iff.mp hj⟩
  · rintro (⟨rfl, hheading, hbefore⟩ | ⟨hij, hstart, hall⟩)
    · exact ⟨Or.inl ⟨hheading, hbefore⟩, Or.inl rfl⟩
    · exact ⟨Or.inr ⟨hall i (Nat.le_refl i) hij, hstart⟩, Or.inr ⟨hij, lt_run_iff.mpr hall⟩⟩

/-- A line that goes to a paragraph without being plain starts it, as a later heading. -/
theorem eq_of_goesTo_paragraph (h : GoesTo ls j (.paragraph i))
    (hj : (kindAt ls j).plain?.isSome = false) :
  i = j ∧ (kindAt ls j).heading?.isSome = true ∧ headingBefore ls j = true
  := by
  rcases goesTo_paragraph.mp h with ⟨rfl, hheading, hbefore⟩ | ⟨hij, -, hall⟩
  · exact ⟨rfl, hheading, hbefore⟩
  · rw [hall j hij (Nat.le_refl j)] at hj
    cases hj

/-- A line that is not blank goes to exactly one part. -/
theorem existsUnique_goesTo (hj : kindAt ls j ≠ .blank) :
  ∃! part, GoesTo ls j part
  := by
  cases hkind : kindAt ls j with
  | blank => exact absurd hkind hj
  | heading text =>
      have hheading : (kindAt ls j).heading?.isSome = true := by rw [hkind]; rfl
      have hquote : ¬ (kindAt ls j).quote?.isSome = true := by rw [hkind]; nofun
      have hplain : (kindAt ls j).plain?.isSome = false := by rw [hkind]; rfl
      cases hbefore : headingBefore ls j with
      | false =>
          refine ⟨.title, ⟨hheading, hbefore⟩, ?_⟩
          rintro (_ | _ | i) h
          · rfl
          · exact absurd h hquote
          · have hlater := (eq_of_goesTo_paragraph h hplain).2.2
            rw [hbefore] at hlater
            cases hlater
      | true =>
          refine ⟨.paragraph j, goesTo_paragraph.mpr (Or.inl ⟨rfl, hheading, hbefore⟩), ?_⟩
          rintro (_ | _ | i) h
          · have hfirst : headingBefore ls j = false := h.2
            rw [hbefore] at hfirst
            cases hfirst
          · exact absurd h hquote
          · rw [(eq_of_goesTo_paragraph h hplain).1]
  | quote text =>
      have hquote : (kindAt ls j).quote?.isSome = true := by rw [hkind]; rfl
      have hheading : ¬ (kindAt ls j).heading?.isSome = true := by rw [hkind]; nofun
      have hplain : (kindAt ls j).plain?.isSome = false := by rw [hkind]; rfl
      refine ⟨.subtitle, hquote, ?_⟩
      rintro (_ | _ | i) h
      · exact absurd h.1 hheading
      · rfl
      · exact absurd (eq_of_goesTo_paragraph h hplain).2.1 hheading
  | plain text =>
      have hquote : ¬ (kindAt ls j).quote?.isSome = true := by rw [hkind]; nofun
      have hheading : ¬ (kindAt ls j).heading?.isSome = true := by rw [hkind]; nofun
      have hplain : (kindAt ls j).plain?.isSome = true := by rw [hkind]; rfl
      obtain ⟨i, hij, hstart, hall⟩ := exists_run hplain
      refine ⟨.paragraph i, goesTo_paragraph.mpr (Or.inr ⟨hij, hstart, hall⟩), ?_⟩
      rintro (_ | _ | k) h
      · exact absurd h.1 hheading
      · exact absurd h hquote
      · rcases goesTo_paragraph.mp h with ⟨rfl, hlater, -⟩ | ⟨hkj, hstart', hall'⟩
        · exact absurd hlater hheading
        · rw [Nat.le_antisymm (le_of_run hstart' hkj hall) (le_of_run hstart hij hall')]

/-- A blank line goes to no part. -/
theorem not_goesTo_of_blank (hj : kindAt ls j = .blank) (part : Part) :
  ¬ GoesTo ls j part
  := by
  have hplain : (kindAt ls j).plain?.isSome = false := by rw [hj]; rfl
  have hheading : ¬ (kindAt ls j).heading?.isSome = true := by rw [hj]; nofun
  rintro h
  cases part with
  | title => exact hheading h.1
  | subtitle =>
      have hquote : (kindAt ls j).quote?.isSome = true := h
      rw [hj] at hquote
      cases hquote
  | paragraph i => exact hheading (eq_of_goesTo_paragraph h hplain).2.1

/-- Content is decomposed as its lines say: nothing is lost, merged or invented. -/
theorem decomposes_decompose (ls : List (List Char)) (first : Int) :
  Decomposes ls first (decompose first ls)
  := by
  have hfree := freeText_addAll (g := {}) (List.drop_zero (l := ls)) rfl rfl first
  rw [Int.natCast_zero, Int.add_zero] at hfree
  constructor
  case title =>
      change (Gathered.addAll {} first ls).close.title = _
      rw [Gathered.title_close, Gathered.title_addAll]
      rfl
  case subtitle =>
      change Gathered.subtitle _ = _
      rw [Gathered.subtitle, Gathered.quotes_close, Gathered.quotes_addAll, List.append_nil]
      simp
  case freeText =>
      change (Gathered.addAll {} first ls).close.freeText.reverse = _
      rw [hfree, List.range_eq_range']
      rfl
  case runs => exact kindAt_run ls
  case parted =>
      intro j line hline hvisible
      apply existsUnique_goesTo
      rw [kindAt_of_getElem? hline, Ne, ContentLine.ofLine_eq_blank_iff, hvisible]
      exact Bool.false_ne_true
  case blank =>
      intro j line hline hblank
      apply not_goesTo_of_blank
      rw [kindAt_of_getElem? hline, ContentLine.ofLine_eq_blank_iff]
      exact hblank
  case ascending => exact (freeText_decompose first ls).2

/-- A later heading ends a paragraph and is one of its own; a quote ends one too. -/
example :
  decompose 3 (["a", " b ", "# T", "c", "#  U ", "d", "> Q", "e", "", "f"].map String.toList)
    = (some "T", some "Q",
        [⟨"a\nb", 3⟩, ⟨"c", 6⟩, ⟨"U", 7⟩, ⟨"d", 8⟩, ⟨"e", 10⟩, ⟨"f", 12⟩])
  := by decide +kernel

end Montage.Scene
