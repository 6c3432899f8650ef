import Montage.Proofs.Scene.RoundTrip
import Montage.Proofs.Timeline.Complete

/-!
# How a body is made up

A body is read forward, anew from each separator on to the next boundary.  Here it is described
looking back from each line to the nearest boundary before it: the lines for which this is a
given separator are `belonging` to it, and `sceneAt?` is the scene that they make up.  Both
descriptions come to the same scenes, so scenes and commands part the lines of the body among
them: `partitions_ofBody`.
-/

namespace Montage

namespace Scene

/-! ### Looking back -/

section Back

variable (ls : List (List Char))

/-- Whether there is a boundary on the line of an index. -/
def boundaryAt (i : Nat) : Bool :=
  ls[i]?.any isBoundary

/-- The nearest boundary before the line of an index. -/
def boundaryBefore? : Nat → Option Nat
  | 0 => none
  | j + 1 => if boundaryAt ls j then some j else boundaryBefore? j

/-- A line that is no boundary belongs to the nearest boundary before it. -/
def Belongs (i j : Nat) : Prop :=
  boundaryAt ls j = false ∧ boundaryBefore? ls j = some i

instance (i j : Nat) : Decidable (Belongs ls i j) :=
  inferInstanceAs (Decidable (_ ∧ _))

/-- The indices of the lines that belong to a boundary. -/
def belonging (i : Nat) : List Nat :=
  (List.range ls.length).filter (Belongs ls i ·)

/-- The lines that belong to a boundary. -/
def contentAt (i : Nat) : List (List Char) :=
  (belonging ls i).filterMap (ls[·]?)

end Back

/-- The scene of given times on a given line with given lines as its content. -/
def ofContent (start stop : Double) (line : Int) (content : List (List Char)) : Scene :=
  let (title, subtitle, freeText) := decompose (line + 1) content
  { start, stop, line, title, subtitle, freeText
    content := String.ofList (Text.trim (Text.joinLines content)) }

/-- The scene on the line of an index: there is one if the line is a separator whose second
time is not before the first. -/
def sceneAt? (ls : List (List Char)) (offset : Int) (i : Nat) : Option Scene :=
  match ls[i]?.bind separatorTimes? with
  | none => none
  | some (start, stop) =>
    if stop < start then none
    else some (ofContent start stop (offset + 1 + i) (contentAt ls i))

/-- How the lines of a body, before which `offset` lines of the document come, are parted among
its scenes and its commands. -/
structure Partitions (ls : List (List Char)) (offset : Int) (scenes : List Scene)
    (commands : List Command) : Prop where
  /-- The scenes are those on the lines of the body, in order. -/
  scenes : scenes = (List.range ls.length).filterMap (sceneAt? ls offset)
  /-- No line belongs to two of them. -/
  once : ∀ i i' j, j ∈ belonging ls i → j ∈ belonging ls i' → i = i'
  /-- No separator and no command is content. -/
  plain : ∀ i, ∀ line ∈ contentAt ls i, separatorTimes? line = none
    ∧ Command.isCommandLine (String.ofList line) = false
  /-- What comes after a command, or after a separator whose times are out of order, belongs to
  no scene. -/
  stray : ∀ (i : Nat) line j, ls[i]? = some line →
    (Command.isCommandLine (String.ofList line) = true
      ∨ ∃ start stop, separatorTimes? line = some (start, stop) ∧ stop < start) →
    boundaryBefore? ls j = some i → ∀ i', (sceneAt? ls offset i').isSome → j ∉ belonging ls i'
  /-- The lines that end content as commands are those the commands stand on. -/
  commands : ∀ (i : Nat) line, ls[i]? = some line →
    (Command.isCommandLine (String.ofList line) = true ↔ ∃ c ∈ commands, c.line = offset + 1 + i)

variable {ls rest : List (List Char)} {i j k : Nat} {line : List Char}

theorem boundaryAt_of_getElem? (h : ls[i]? = some line) :
  boundaryAt ls i = isBoundary line
  := by
  rw [boundaryAt, h, Option.any_some]

/-- A boundary is the nearest if there is none in between. -/
theorem boundaryBefore?_eq_some :
  boundaryBefore? ls j = some i
    ↔ (i < j ∧ boundaryAt ls i = true) ∧ ∀ m, i < m → m < j → boundaryAt ls m = false
  := by
  induction j with
  | zero => simp [boundaryBefore?]
  | succ j ih =>
      rw [boundaryBefore?]
      by_cases hj : boundaryAt ls j = true
      · rw [if_pos hj, Option.some.injEq]
        constructor
        · rintro rfl
          exact ⟨⟨Nat.lt_succ_self j, hj⟩, fun m hm hm' => absurd hm' (by omega)⟩
        · rintro ⟨⟨hlt, -⟩, hbetween⟩
          by_contra hne
          have hnone := hbetween j (by omega) (Nat.lt_succ_self j)
          rw [hj] at hnone
          cases hnone
      · have hnone := Bool.eq_false_iff.mpr hj
        rw [if_neg hj, ih]
        constructor
        · rintro ⟨⟨hlt, hi⟩, hbetween⟩
          refine ⟨⟨Nat.lt_succ_of_lt hlt, hi⟩, fun m hm hm' => ?_⟩
          rcases Nat.lt_succ_iff_lt_or_eq.mp hm' with hlt | rfl
          · apply hbetween m hm hlt
          · apply hnone
        · rintro ⟨⟨hlt, hi⟩, hbetween⟩
          have hne : i ≠ j := by
            rintro rfl
            exact hj hi
          exact ⟨⟨by omega, hi⟩, fun m hm hm' => hbetween m hm (Nat.lt_succ_of_lt hm')⟩

/-- A boundary in between keeps a line from belonging to what is before it. -/
theorem not_belongs (hik : i < k) (hkj : k ≤ j) (hk : boundaryAt ls k = true) :
  ¬ Belongs ls i j
  := by
  rintro ⟨hj, hbefore⟩
  have hnone : boundaryAt ls k = false := by
    rcases Nat.lt_or_eq_of_le hkj with hlt | rfl
    · apply (boundaryBefore?_eq_some.mp hbefore).2 k hik hlt
    · apply hj
  rw [hk] at hnone
  cases hnone

/-! ### Reading forward -/

theorem getElem?_of_drop (h : ls.drop k = line :: rest) :
  ls[k]? = some line ∧ ls.drop (k + 1) = rest
  := by
  constructor
  · rw [← Nat.add_zero k, ← List.getElem?_drop, h, List.getElem?_cons_zero]
  · rw [← List.drop_drop, h, List.drop_one, List.tail_cons]

/-- Reading on from a place up to which there has been no boundary. -/
theorem takeWhile_eq (hi : boundaryAt ls i = true) (hik : i < k)
    (hbetween : ∀ m, i < m → m < k → boundaryAt ls m = false) (hrest : ls.drop k = rest) :
  rest.takeWhile (!isBoundary ·)
    = ((List.range' k rest.length).filter (Belongs ls i ·)).filterMap (ls[·]?)
  := by
  induction rest generalizing k with
  | nil => rfl
  | cons line rest ih =>
      obtain ⟨hline, hdrop⟩ := getElem?_of_drop hrest
      have hboundary := boundaryAt_of_getElem? hline
      cases hkind : isBoundary line with
      | true =>
          have hnone : (List.range' k (line :: rest).length).filter (Belongs ls i ·) = [] := by
            apply List.filter_eq_nil_iff.mpr
            intro j hj
            rw [decide_eq_true_iff]
            apply not_belongs hik (List.mem_range'_1.mp hj).1 (hboundary.trans hkind)
          rw [hnone, List.takeWhile_cons, hkind]
          rfl
      | false =>
          have hk := hboundary.trans hkind
          have hbelongs : Belongs ls i k := ⟨hk, boundaryBefore?_eq_some.mpr ⟨⟨hik, hi⟩, hbetween⟩⟩
          have hbetween' : ∀ m, i < m → m < k + 1 → boundaryAt ls m = false := by
            intro m hm hm'
            rcases Nat.lt_succ_iff_lt_or_eq.mp hm' with hlt | rfl
            · apply hbetween m hm hlt
            · apply hk
          rw [List.takeWhile_cons, hkind, List.length_cons, List.range'_succ,
            List.filter_cons_of_pos (by simpa using hbelongs), List.filterMap_cons, hline,
            ← ih (Nat.lt_succ_of_lt hik) hbetween' hdrop]
          rfl

/-- What is read on from a boundary up to the next is what belongs to it. -/
theorem takeWhile_eq_contentAt (h : boundaryAt ls i = true) :
  (ls.drop (i + 1)).takeWhile (!isBoundary ·) = contentAt ls i
  := by
  have hlt : i < ls.length := by
    rw [boundaryAt] at h
    by_contra hle
    rw [List.getElem?_eq_none (Nat.le_of_not_lt hle)] at h
    cases h
  have hrange : List.range ls.length
      = List.range' 0 (i + 1) ++ List.range' (i + 1) (ls.drop (i + 1)).length := by
    have hlength : ls.length = i + 1 + (ls.drop (i + 1)).length := by
      rw [List.length_drop]
      omega
    have happend := List.range'_append_1 (s := 0) (m := i + 1) (n := (ls.drop (i + 1)).length)
    rw [List.range_eq_range', hlength, ← happend, Nat.zero_add]
  have hnone : (List.range' 0 (i + 1)).filter (Belongs ls i ·) = [] := by
    apply List.filter_eq_nil_iff.mpr
    intro j hj
    rw [decide_eq_true_iff]
    rintro ⟨-, hbefore⟩
    have hij := (boundaryBefore?_eq_some.mp hbefore).1.1
    have hji := (List.mem_range'_1.mp hj).2
    omega
  rw [contentAt, belonging, hrange, List.filter_append, hnone, List.nil_append]
  apply takeWhile_eq h (Nat.lt_succ_self i) _ rfl
  intro m hm hm'
  omega

/-! ### Scenes -/

/-- The times of a separator are those of timecodes. -/
theorem isTime_of_separatorTimes? {start stop : Double}
    (h : separatorTimes? line = some (start, stop)) :
  Edit.IsTime start ∧ Edit.IsTime stop
  := by
  simp only [separatorTimes?, Option.bind_eq_bind, Option.bind_eq_some_iff, Option.pure_def,
    Option.some.injEq, Prod.mk.injEq, Prod.exists] at h
  obtain ⟨r₁, -, r₂, -, t, r₃, hstart, r₄, -, t', r₅, hstop, r₆, -, r₇, -, -, -, rfl, rfl⟩ := h
  exact ⟨⟨t, Timecode.proper_of_scan? hstart, rfl⟩, ⟨t', Timecode.proper_of_scan? hstop, rfl⟩⟩

/-- A separator starts with a dash. -/
theorem exists_of_separatorTimes? (h : (separatorTimes? line).isSome = true) :
  ∃ cs, line = '-' :: cs
  := by
  cases line with
  | nil => cases h
  | cons c cs =>
      by_cases hc : c = '-'
      · exact ⟨cs, by rw [hc]⟩
      · have hnone : dashes? (c :: cs) = none := by
          rw [dashes?, List.takeWhile_cons_of_neg (by simpa using hc)]
          rfl
        rw [separatorTimes?, hnone] at h
        cases h

/-- A separator is no command. -/
theorem isCommandLine_of_separatorTimes? (h : (separatorTimes? line).isSome = true) :
  Command.isCommandLine (String.ofList line) = false
  := by
  obtain ⟨cs, rfl⟩ := exists_of_separatorTimes? h
  have htrim : Text.trimStart ('-' :: cs) = '-' :: cs :=
    List.dropWhile_cons_of_neg (by decide)
  have hload : Text.looseKeyword? "LOAD".toList ('-' :: cs) = none := rfl
  have hcut : Text.keyword? "CUT".toList ('-' :: cs) = none := rfl
  have hverb : ∀ verb : RangeVerb, Text.keyword? verb.keyword.toList ('-' :: cs) = none := by
    intro verb
    cases verb <;> rfl
  simp only [Command.isCommandLine, Edit.ofLine?, String.toList_ofList, Edit.load?, Edit.cut?,
    Edit.range?, htrim, hload, hcut, hverb]
  rfl

/-- Times that are out of order make no scene. -/
theorem toOption_checked_of_lt {s : Scene} (h : s.stop < s.start) :
  (checked s).toOption = none
  := by
  rw [checked]
  by_cases hstart : s.start < .zero
  · rw [if_pos hstart]
    rfl
  · rw [if_neg hstart]
    simp only [if_pos h]
    cases Timecode.stamp s.stop with
    | error f => rfl
    | ok stop => cases Timecode.stamp s.start <;> rfl

/-- A separator opens a scene unless its times are out of order. -/
theorem toOption_ofBlock {start stop : Double} (h : separatorTimes? line = some (start, stop))
    (number : Int) (after : List (List Char)) :
  (ofBlock start stop number after).toOption
    = if stop < start then none
      else some (ofContent start stop number (after.takeWhile (!isBoundary ·)))
  := by
  have hblock : ofBlock start stop number after
      = checked (ofContent start stop number (after.takeWhile (!isBoundary ·))) := rfl
  rw [hblock]
  split
  · rename_i hlt
    apply toOption_checked_of_lt hlt
  · rename_i hnot
    rw [checked_eq_self (isTime_of_separatorTimes? h).1.not_lt_zero hnot]
    rfl

/-- The scenes from a place on. -/
theorem succeeded_outcomes (offset : Int) (hrest : ls.drop k = rest) :
  succeeded (outcomes rest (offset + 1 + k))
    = (List.range' k rest.length).filterMap (sceneAt? ls offset)
  := by
  induction rest generalizing k with
  | nil => rfl
  | cons line rest ih =>
      obtain ⟨hline, hdrop⟩ := getElem?_of_drop hrest
      have hih := ih hdrop
      rw [Int.natCast_add, Int.natCast_one, ← Int.add_assoc] at hih
      rw [List.length_cons, List.range'_succ, List.filterMap_cons, ← hih, outcomes, sceneAt?, hline,
        Option.bind_some]
      cases htimes : separatorTimes? line with
      | none => rfl
      | some times =>
          obtain ⟨start, stop⟩ := times
          have hboundary : boundaryAt ls k = true := by
            rw [boundaryAt_of_getElem? hline]
            apply isBoundary_of_separatorTimes?
            rw [htimes]
            rfl
          have hscene := toOption_ofBlock htimes (offset + 1 + k) rest
          rw [← hdrop, takeWhile_eq_contentAt hboundary, hdrop] at hscene
          dsimp only
          rw [← hscene]
          cases ofBlock start stop (offset + 1 + k) rest <;> rfl

end Scene

/-! ### Commands -/

namespace Command

/-- Commands stand on the lines that they are read from. -/
theorem mem_ofLines {lines : List String} {first : Int} {c : Command} :
  c ∈ ofLines lines first
    ↔ ∃ (i : Nat) (line : String), lines[i]? = some line ∧ ofLine? line (first + i) = some c
  := by
  induction lines generalizing first with
  | nil => simp [ofLines]
  | cons line rest ih =>
      have hrest : c ∈ ofLines rest (first + 1) ↔ ∃ (i : Nat) (l : String),
          (line :: rest)[i + 1]? = some l ∧ ofLine? l (first + (i + 1 : Nat)) = some c := by
        rw [ih]
        simp only [List.getElem?_cons_succ, Int.natCast_add, Int.natCast_one, Int.add_assoc,
          Int.add_comm 1]
      have hsplit : (∃ (i : Nat) (l : String), (line :: rest)[i]? = some l
            ∧ ofLine? l (first + i) = some c)
          ↔ ofLine? line first = some c ∨ c ∈ ofLines rest (first + 1) := by
        rw [hrest]
        constructor
        · rintro ⟨_ | i, l, hl, hc⟩
          · left
            cases hl
            simpa using hc
          · right
            exact ⟨i, l, hl, hc⟩
        · rintro (hc | ⟨i, l, hl, hc⟩)
          · exact ⟨0, line, rfl, by simpa using hc⟩
          · exact ⟨i + 1, l, hl, hc⟩
      rw [hsplit, ofLines]
      cases hline : ofLine? line first with
      | none => simp
      | some c' => simp [eq_comm]

/-- The commands of a body stand on those of its lines that are commands. -/
theorem isCommandLine_iff {body : String} {offset : Int} {i : Nat} {line : List Char}
    (hline : (Text.splitLines body.toList)[i]? = some line) :
  isCommandLine (String.ofList line) = true ↔ ∃ c ∈ ofBody body offset, c.line = offset + 1 + i
  := by
  have hlines : (Text.lines body)[i]? = some (String.ofList line) := by
    rw [Text.lines, List.getElem?_map, hline]
    rfl
  simp only [ofBody, mem_ofLines, isCommandLine, Option.isSome_iff_exists]
  constructor
  · rintro ⟨e, he⟩
    refine ⟨⟨e, offset + 1 + i⟩, ⟨i, _, hlines, ?_⟩, rfl⟩
    rw [ofLine?, he]
    rfl
  · rintro ⟨c, ⟨i', l, hl, hc⟩, hnumber⟩
    obtain ⟨e, he, rfl⟩ := Option.map_eq_some_iff.mp hc
    obtain rfl : i' = i := by
      dsimp only at hnumber
      omega
    obtain rfl := Option.some.inj (hl.symm.trans hlines)
    exact ⟨e, he⟩

end Command

/-! ### Bodies -/

namespace Scene

variable {ls : List (List Char)} {i j : Nat} {line : List Char}

theorem mem_belonging :
  j ∈ belonging ls i ↔ j < ls.length ∧ Belongs ls i j
  := by
  rw [belonging, List.mem_filter, List.mem_range, decide_eq_true_iff]

/-- There is no scene on the line of a command, nor on that of a separator whose times are out
of order. -/
theorem sceneAt?_eq_none (hline : ls[i]? = some line)
    (h : Command.isCommandLine (String.ofList line) = true
      ∨ ∃ start stop, separatorTimes? line = some (start, stop) ∧ stop < start) (offset : Int) :
  sceneAt? ls offset i = none
  := by
  rw [sceneAt?, hline, Option.bind_some]
  rcases h with hcommand | ⟨start, stop, htimes, hlt⟩
  · cases htimes : separatorTimes? line with
    | none => rfl
    | some times =>
        have hnot : Command.isCommandLine (String.ofList line) = false :=
          isCommandLine_of_separatorTimes? (by rw [htimes]; rfl)
        rw [hcommand] at hnot
        cases hnot
  · rw [htimes]
    apply if_pos hlt

/-- Commands and the text of scenes partition a body.  There is one scene for each separator
whose times are in order, made up of the lines for which it is the nearest boundary before
them.  Separators that open no scene are reported, unless the number of a line is too long to be
written. -/
theorem partitions_ofBody (body : String) (offset : Int) :
  Partitions (Text.splitLines body.toList) offset (succeeded (ofBody body offset))
      (Command.ofBody body offset)
    ∧ ((∃ reports, skipped (ofBody body offset) = .ok reports)
      ∨ ∃ i < (Text.splitLines body.toList).length, Text.isWritable (offset + 1 + i) = false)
  := by
  generalize hls : Text.splitLines body.toList = ls
  have hbody : ofBody body offset = outcomes ls (offset + 1) := by
    rw [ofBody, hls]
  refine ⟨?_, ?_⟩
  · constructor
    case scenes =>
        have hscenes := succeeded_outcomes offset (List.drop_zero (l := ls))
        rw [Int.natCast_zero, Int.add_zero] at hscenes
        rw [hbody, hscenes, List.range_eq_range']
    case once =>
        intro i i' j hj hj'
        have hbefore := (mem_belonging.mp hj).2.2
        rw [(mem_belonging.mp hj').2.2] at hbefore
        apply (Option.some.inj hbefore).symm
    case plain =>
        intro i line hline
        obtain ⟨j, hj, hline⟩ := List.mem_filterMap.mp hline
        have hkind := (mem_belonging.mp hj).2.1
        rw [boundaryAt_of_getElem? hline, isBoundary, Bool.or_eq_false_iff] at hkind
        exact ⟨by simpa using hkind.1, hkind.2⟩
    case stray =>
        intro i line j hline hstray hbefore i' hscene hj
        have hbefore' := (mem_belonging.mp hj).2.2
        obtain rfl := Option.some.inj (hbefore.symm.trans hbefore')
        rw [sceneAt?_eq_none hline hstray] at hscene
        cases hscene
    case commands =>
        intro i line hline
        apply Command.isCommandLine_iff
        rw [hls, hline]
  · rw [or_iff_not_imp_right]
    intro hwritable
    apply skipped_ok
    intro p hp
    rw [hbody] at hp
    obtain ⟨hlow, hhigh⟩ := line_of_mem_failed hp
    by_contra hnot
    apply hwritable
    refine ⟨(p.1 - (offset + 1)).toNat, by omega, ?_⟩
    rw [show offset + 1 + ((p.1 - (offset + 1)).toNat : Int) = p.1 by omega]
    simpa using hnot

/-- A command ends a scene, and what follows it is in none. -/
example :
  (succeeded (ofBody "--- [00:00:00.000 -> 00:00:01.000] ---\na\nCUT 00:00:01.000\nb" 4)).map
    (fun s => (s.line, s.content)) = [(5, "a")]
  := by decide +kernel

end Scene

end Montage
