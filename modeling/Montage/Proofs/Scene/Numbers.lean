import Mathlib.Data.List.TakeWhile
import Mathlib.Tactic.Common
import Montage.Scene.Parser

/-!
# Line numbers of scenes

A scene stands on the line of its separator, and each of its paragraphs on the line that the
paragraph starts on, which is not blank and belongs to the content of the scene.  Read in
order, the lines of all scenes and of their paragraphs ascend.
-/

namespace Montage.Scene

/-! ### Gathering content -/

theorem ContentLine.ofLine_of_blank {line : List Char} (h : line.all Text.isBlank = true) :
  ofLine line = blank
  := by
  have htrim : Text.trimStart line = [] := by
    rw [Text.trimStart, List.dropWhile_eq_nil_iff]
    apply List.all_eq_true.mp h
  rw [ofLine, htrim]

namespace Gathered

/-- What has been gathered from lines below a number: every paragraph stands on a line with a
given property, and a later one further down. -/
structure Placed (P : Int → Prop) (number : Int) (g : Gathered) : Prop where
  ended : ∀ p ∈ g.freeText, P p.line ∧ p.line < number
  descending : g.freeText.Pairwise fun p q => q.line < p.line
  started : g.paragraph ≠ [] → P g.paragraphLine ∧ g.paragraphLine < number
    ∧ ∀ p ∈ g.freeText, p.line < g.paragraphLine

variable {P : Int → Prop} {number number' : Int} {g g' : Gathered}

theorem Placed.mono (h : g.Placed P number) (hle : number ≤ number') :
  g.Placed P number'
  := by
  refine ⟨fun p hp => ⟨(h.ended p hp).1, ?_⟩, h.descending, fun hsome => ?_⟩
  · exact Int.lt_of_lt_of_le (h.ended p hp).2 hle
  · obtain ⟨hline, hlt, hbefore⟩ := h.started hsome
    exact ⟨hline, Int.lt_of_lt_of_le hlt hle, hbefore⟩

/-- One more paragraph, which is ended. -/
theorem Placed.cons (h : g.Placed P number) {p : Paragraph} (hfree : g'.freeText = p :: g.freeText)
    (hnone : g'.paragraph = []) (hp : P p.line) (hlt : p.line < number')
    (hbefore : ∀ q ∈ g.freeText, q.line < p.line) :
  g'.Placed P number'
  := by
  refine ⟨?_, ?_, fun hsome => absurd hnone hsome⟩
  · rw [hfree]
    intro q hq
    rcases List.mem_cons.mp hq with rfl | hq
    · exact ⟨hp, hlt⟩
    · exact ⟨(h.ended q hq).1, Int.lt_trans (hbefore q hq) hlt⟩
  · rw [hfree, List.pairwise_cons]
    exact ⟨hbefore, h.descending⟩

theorem close_of_paragraph (h : g.paragraph = []) :
  g.close = g
  := by
  rw [close, h]
  rfl

theorem paragraph_close (g : Gathered) :
  g.close.paragraph = []
  := by
  rw [close]
  split
  · rename_i hnone
    apply List.isEmpty_iff.mp hnone
  · rfl

theorem Placed.close (h : g.Placed P number) :
  g.close.Placed P number
  := by
  by_cases hsome : g.paragraph = []
  · rw [close_of_paragraph hsome]
    apply h
  · obtain ⟨hline, hlt, hbefore⟩ := h.started hsome
    have hfree : g.close.freeText
        = ⟨String.ofList (Text.trim (Text.joinLines g.paragraph.reverse)), g.paragraphLine⟩
          :: g.freeText := by
      rw [Gathered.close, if_neg (by simpa using hsome)]
    apply h.cons hfree (paragraph_close g) hline hlt hbefore

/-- One more line.  Unless it is blank it may be the one that a paragraph stands on. -/
theorem Placed.add (h : g.Placed P number) {line : List Char}
    (hline : line.all Text.isBlank = false → P number) :
  (g.add number line).Placed P (number + 1)
  := by
  have hnext : number < number + 1 := Int.lt_succ number
  have hvisible : ContentLine.ofLine line ≠ .blank → P number := by
    intro hne
    apply hline
    rw [← Bool.not_eq_true]
    intro hall
    exact hne (ContentLine.ofLine_of_blank hall)
  have hclose : g.close.Placed P (number + 1) := h.close.mono (Int.le_of_lt hnext)
  rw [Gathered.add]
  cases hkind : ContentLine.ofLine line with
  | blank => apply hclose
  | heading text =>
      dsimp only
      split
      · exact ⟨hclose.ended, hclose.descending, hclose.started⟩
      · refine h.close.cons rfl ?_ ?_ hnext ?_
        · apply paragraph_close
        · apply hvisible (by simp [hkind])
        · intro p hp
          apply (h.close.ended p hp).2
  | quote text => exact ⟨hclose.ended, hclose.descending, hclose.started⟩
  | plain text =>
      refine ⟨(h.mono (Int.le_of_lt hnext)).ended, h.descending, fun _ => ?_⟩
      dsimp only
      split
      · exact ⟨hvisible (by simp [hkind]), hnext, fun p hp => (h.ended p hp).2⟩
      · rename_i hsome
        obtain ⟨hstart, hlt, hbefore⟩ := h.started (by simpa using hsome)
        exact ⟨hstart, Int.lt_trans hlt hnext, hbefore⟩

theorem Placed.addAll {ls : List (List Char)} (h : g.Placed P number)
    (hls : ∀ (i : Nat) line, ls[i]? = some line → line.all Text.isBlank = false → P (number + i)) :
  (g.addAll number ls).Placed P (number + ls.length)
  := by
  induction ls generalizing g number with
  | nil => simpa [Gathered.addAll] using h
  | cons line rest ih =>
      have hadd := h.add fun hvisible => by simpa using hls 0 line rfl hvisible
      have hrest := ih hadd fun i l hl hvisible => by
        have hline := hls (i + 1) l hl hvisible
        rwa [Int.natCast_add, Int.natCast_one, Int.add_comm (i : Int), ← Int.add_assoc] at hline
      rw [Gathered.addAll, List.length_cons, Int.natCast_add, Int.natCast_one,
        Int.add_comm (rest.length : Int), ← Int.add_assoc]
      apply hrest

end Gathered

/-- The lines of a list that are not blank, as numbers counted from the first. -/
def VisibleFrom (first : Int) (ls : List (List Char)) (number : Int) : Prop :=
  ∃ (i : Nat) (line : List Char), ls[i]? = some line ∧ line.all Text.isBlank = false
    ∧ number = first + i

/-- The paragraphs of content stand on lines that are not blank, in ascending order. -/
theorem freeText_decompose (first : Int) (ls : List (List Char)) :
  (∀ p ∈ (decompose first ls).2.2, VisibleFrom first ls p.line)
    ∧ (decompose first ls).2.2.Pairwise fun p q => p.line < q.line
  := by
  have hstart : Gathered.Placed (VisibleFrom first ls) first {} :=
    ⟨nofun, List.Pairwise.nil, fun hsome => absurd rfl hsome⟩
  have hend := (hstart.addAll fun i line hline hvisible => ⟨i, line, hline, hvisible, rfl⟩).close
  rw [decompose]
  constructor
  · intro p hp
    apply (hend.ended p (List.mem_reverse.mp hp)).1
  · apply List.pairwise_reverse.mpr hend.descending

/-! ### Scenes in order -/

/-- The numbers of the lines of a scene and of its paragraphs. -/
def numbers (s : Scene) : List Int :=
  s.line :: s.freeText.map (·.line)

theorem eq_of_checked {s s' : Scene} (h : checked s = .ok s') :
  s' = s
  := by
  rw [checked] at h
  split at h
  · cases h
  · dsimp only at h
    split at h
    · cases hstop : Timecode.stamp s.stop with
      | error f =>
          rw [hstop] at h
          cases h
      | ok stop =>
          cases hstart : Timecode.stamp s.start with
          | error f =>
              rw [hstop, hstart] at h
              cases h
          | ok start =>
              rw [hstop, hstart] at h
              cases h
    · cases h
      rfl

variable {start stop : Double} {number : Int} {line : List Char} {ls : List (List Char)}
  {s : Scene}

theorem of_ofBlock (h : ofBlock start stop number ls = .ok s) :
  s.line = number
    ∧ s.freeText = (decompose (number + 1) (ls.takeWhile (!isBoundary ·))).2.2
  := by
  rw [ofBlock] at h
  obtain rfl := eq_of_checked h
  exact ⟨rfl, rfl⟩

theorem isBoundary_of_separatorTimes? (h : (separatorTimes? line).isSome = true) :
  isBoundary line = true
  := by
  rw [isBoundary, h, Bool.true_or]

theorem mem_succeeded {os : List Outcome} :
  s ∈ succeeded os ↔ .ok s ∈ os
  := by
  rw [succeeded, List.mem_filterMap]
  constructor
  · rintro ⟨o | s', ho, hs⟩
    · cases hs
    · cases hs
      exact ho
  · intro h
    exact ⟨.ok s, h, rfl⟩

theorem mapError_eq_ok {α β γ : Type} {x : Except α γ} {f : α → β} {c : γ} :
  x.mapError f = .ok c ↔ x = .ok c
  := by
  cases x <;> simp [Except.mapError]

/-- A scene is opened by a separator, from the lines after it. -/
theorem exists_of_mem_outcomes (h : .ok s ∈ outcomes ls number) :
  ∃ (i : Nat) (line : List Char) (start stop : Double), ls[i]? = some line
    ∧ separatorTimes? line = some (start, stop)
    ∧ ofBlock start stop (number + i) (ls.drop (i + 1)) = .ok s
  := by
  induction ls generalizing number with
  | nil => cases h
  | cons line rest ih =>
      have hrest : .ok s ∈ outcomes rest (number + 1) → ∃ (i : Nat) (l : List Char)
          (start stop : Double), (line :: rest)[i]? = some l
          ∧ separatorTimes? l = some (start, stop)
          ∧ ofBlock start stop (number + i) ((line :: rest).drop (i + 1)) = .ok s := by
        intro hmem
        obtain ⟨i, l, start, stop, hl, htimes, hblock⟩ := ih hmem
        refine ⟨i + 1, l, start, stop, hl, htimes, ?_⟩
        rw [Int.natCast_add, Int.natCast_one, Int.add_comm (i : Int), ← Int.add_assoc]
        apply hblock
      rw [outcomes] at h
      split at h
      · rename_i start stop htimes
        rcases List.mem_cons.mp h with hblock | hmem
        · refine ⟨0, line, start, stop, rfl, htimes, ?_⟩
          simpa using mapError_eq_ok.mp hblock.symm
        · apply hrest hmem
      · apply hrest h

/-- The line of an index belongs to the content that a separator on an earlier line opens: no
boundary comes in between. -/
def InContent (ls : List (List Char)) (i j : Nat) : Prop :=
  i < j ∧ ∀ (m : Nat) (line : List Char), i < m → m ≤ j → ls[m]? = some line →
    isBoundary line = false

/-- Content is the same in the whole of a text as in a part of it that runs to the end. -/
theorem InContent.of_drop {k i j : Nat} (h : InContent (ls.drop k) i j) :
  InContent ls (k + i) (k + j)
  := by
  refine ⟨Nat.add_lt_add_left h.1 k, ?_⟩
  intro m line hm hmj hline
  refine h.2 (m - k) line (by omega) (by omega) ?_
  rw [List.getElem?_drop, Nat.add_sub_cancel' (by omega), hline]

/-- What comes before the first boundary after a separator is its content. -/
theorem inContent_of_takeWhile {i j : Nat}
    (h : ((ls.drop (i + 1)).takeWhile (!isBoundary ·))[j]? = some line) :
  InContent ls i (i + 1 + j) ∧ ls[i + 1 + j]? = some line
  := by
  have hprefix := List.prefix_iff_getElem?.mp
    (List.takeWhile_prefix (l := ls.drop (i + 1)) (!isBoundary ·))
  obtain ⟨hj, rfl⟩ := List.getElem?_eq_some_iff.mp h
  refine ⟨⟨by omega, ?_⟩, ?_⟩
  · intro m l hm hmj hl
    have hsame := hprefix (m - (i + 1)) (by omega)
    rw [List.getElem?_drop, Nat.add_sub_cancel' hm, hl, Option.some.injEq] at hsame
    have hkept := List.mem_takeWhile_imp (List.getElem_mem (l := (ls.drop (i + 1)).takeWhile
      (!isBoundary ·)) (n := m - (i + 1)) (by omega))
    rw [← hsame] at hkept
    simpa using hkept
  · rw [← List.getElem?_drop, hprefix j hj]

/-- A scene stands on a separator, and its paragraphs on lines of its content that are not
blank. -/
theorem of_mem_outcomes (h : .ok s ∈ outcomes ls number) :
  ∃ (i : Nat) (line : List Char), ls[i]? = some line ∧ (separatorTimes? line).isSome = true
    ∧ s.line = number + i
    ∧ ∀ p ∈ s.freeText, ∃ (j : Nat) (line : List Char), InContent ls i j ∧ ls[j]? = some line
      ∧ line.all Text.isBlank = false ∧ p.line = number + j
  := by
  obtain ⟨i, line, start, stop, hline, htimes, hblock⟩ := exists_of_mem_outcomes h
  obtain ⟨hnumber, hfree⟩ := of_ofBlock hblock
  refine ⟨i, line, hline, by rw [htimes]; rfl, hnumber, ?_⟩
  intro p hp
  rw [hfree] at hp
  obtain ⟨j, line', hj, hvisible, hp⟩ := (freeText_decompose _ _).1 p hp
  obtain ⟨hcontent, hline'⟩ := inContent_of_takeWhile hj
  refine ⟨i + 1 + j, line', hcontent, hline', hvisible, ?_⟩
  omega

/-- The lines of a scene and of its paragraphs ascend, up to the next boundary. -/
theorem numbers_ofBlock (h : ofBlock start stop number ls = .ok s) :
  s.numbers.Pairwise (· < ·)
    ∧ ∀ n ∈ s.numbers, number ≤ n ∧ n < number + 1 + (ls.takeWhile (!isBoundary ·)).length
  := by
  obtain ⟨hline, hfree⟩ := of_ofBlock h
  obtain ⟨hvisible, hascending⟩ :=
    freeText_decompose (number + 1) (ls.takeWhile (!isBoundary ·))
  rw [← hfree] at hvisible hascending
  have hbounds : ∀ n ∈ s.freeText.map (·.line),
      number < n ∧ n < number + 1 + (ls.takeWhile (!isBoundary ·)).length := by
    intro n hn
    obtain ⟨p, hp, rfl⟩ := List.mem_map.mp hn
    obtain ⟨i, line, hi, -, hnumber⟩ := hvisible p hp
    have hlt := (List.getElem?_eq_some_iff.mp hi).1
    omega
  rw [numbers, hline]
  constructor
  · rw [List.pairwise_cons, List.pairwise_map]
    exact ⟨fun n hn => (hbounds n hn).1, hascending⟩
  · intro n hn
    rcases List.mem_cons.mp hn with rfl | hn
    · omega
    · have hn := hbounds n hn
      omega

/-- The lines of all scenes and of their paragraphs ascend, and none comes before the first
boundary. -/
theorem numbers_outcomes (ls : List (List Char)) (number : Int) :
  ((succeeded (outcomes ls number)).flatMap numbers).Pairwise (· < ·)
    ∧ ∀ n ∈ (succeeded (outcomes ls number)).flatMap numbers,
      number + (ls.takeWhile (!isBoundary ·)).length ≤ n
  := by
  induction ls generalizing number with
  | nil => exact ⟨List.Pairwise.nil, nofun⟩
  | cons line rest ih =>
      obtain ⟨hascending, hlow⟩ := ih (number + 1)
      have hfirst : ((line :: rest).takeWhile (!isBoundary ·)).length
          ≤ if isBoundary line then 0 else 1 + (rest.takeWhile (!isBoundary ·)).length := by
        rw [List.takeWhile_cons]
        split <;> simp_all [Nat.add_comm]
      have hlow' : ∀ n ∈ (succeeded (outcomes rest (number + 1))).flatMap numbers,
          number + ((line :: rest).takeWhile (!isBoundary ·)).length ≤ n := by
        intro n hn
        have hle := hlow n hn
        split at hfirst <;> omega
      rw [outcomes]
      split
      · rename_i start stop htimes
        have hboundary : isBoundary line = true :=
          isBoundary_of_separatorTimes? (by rw [htimes]; rfl)
        rw [if_pos hboundary] at hfirst
        cases hblock : ofBlock start stop number rest with
        | error f => exact ⟨hascending, hlow'⟩
        | ok s =>
            obtain ⟨hown, hbounds⟩ := numbers_ofBlock hblock
            change ((s :: succeeded (outcomes rest (number + 1))).flatMap numbers).Pairwise _
              ∧ ∀ n ∈ (s :: succeeded (outcomes rest (number + 1))).flatMap numbers, _
            rw [List.flatMap_cons, List.pairwise_append]
            refine ⟨⟨hown, hascending, ?_⟩, ?_⟩
            · intro n hn n' hn'
              apply Int.lt_of_lt_of_le (hbounds n hn).2 (hlow n' hn')
            · intro n hn
              rcases List.mem_append.mp hn with hn | hn
              · have hle := (hbounds n hn).1
                omega
              · apply hlow' n hn
      · exact ⟨hascending, hlow'⟩

end Montage.Scene
