import Mathlib.Data.List.DropRight
import Montage.Proofs.Command.Canonical
import Montage.Proofs.Text.Blank
import Montage.Proofs.Timecode.Reading

/-!
# Canonical texts that are read back

The canonical text of a command is meant to be a line that asks for the same command.  A path
is written as it is, so it is read back only if reading takes nothing away from it: no blanks
at its ends and no quotes around it.  A time is read back as long as two digits are enough for
its hours.  `Command.text_regenerates` says that nothing else can go wrong.
-/

namespace Montage

/-! ### Paths -/

theorem Text.trim_sublist (cs : List Char) :
  (trim cs).Sublist cs
  := by
  have hstart : (trimStart cs).Sublist cs := List.dropWhile_sublist _
  apply (List.rdropWhile_prefix isBlank (trimStart cs)).sublist.trans hstart

/-- Removing the blanks around a text changes nothing exactly if it neither starts nor ends
with one. -/
theorem Text.trim_eq_self_iff {cs : List Char} (h : cs ≠ []) :
  trim cs = cs ↔ isBlank (cs.head h) = false ∧ isBlank (cs.getLast h) = false
  := by
  have hstart : trimStart cs = cs ↔ isBlank (cs.head h) = false := by
    rw [trimStart, List.dropWhile_eq_self_iff]
    simp [List.head_eq_getElem, List.length_pos_iff.mpr h]
  have hend : trimEnd cs = cs ↔ isBlank (cs.getLast h) = false := by
    change cs.rdropWhile isBlank = cs ↔ _
    rw [List.rdropWhile_eq_self_iff]
    simp [h]
  rw [← hstart, ← hend]
  constructor
  · intro htrim
    have hsub : (trimStart cs).Sublist cs := List.dropWhile_sublist _
    have hsub' : (trim cs).Sublist (trimStart cs) :=
      (List.rdropWhile_prefix isBlank (trimStart cs)).sublist
    have hkept : trimStart cs = cs := by
      apply hsub.eq_of_length_le
      have hlength := hsub'.length_le
      rwa [htrim] at hlength
    rw [trim, hkept] at htrim
    exact ⟨hkept, htrim⟩
  · rintro ⟨hkept, hkept'⟩
    rw [trim, hkept, hkept']

namespace Edit

variable {cs rest : List Char}

/-- Removing the quotes around a path changes nothing exactly if there are none. -/
theorem unquoted_eq_self_iff (h : cs ≠ []) :
  unquoted cs = cs ↔ cs.length = 1 ∨ ¬ (cs.head h = '"' ∧ cs.getLast h = '"')
  := by
  obtain ⟨c, rest, rfl⟩ := List.exists_cons_of_ne_nil h
  rw [List.head_cons, List.length_cons]
  by_cases hc : c = '"'
  · subst hc
    rw [unquoted]
    by_cases hrest : rest = []
    · subst hrest
      simp
    · have hlength : 0 < rest.length := List.length_pos_iff.mpr hrest
      have hne : rest.dropLast ≠ '"' :: rest := by
        intro heq
        have := congrArg List.length heq
        rw [List.length_dropLast, List.length_cons] at this
        omega
      rw [List.getLast?_eq_some_getLast hrest, List.getLast_cons hrest]
      simp only [Option.some.injEq, true_and]
      split
      · rename_i hlast
        simp [hne, hlast, hrest]
      · rename_i hlast
        simp [hlast]
  · have hkept : unquoted (c :: rest) = c :: rest := by
      rw [unquoted]
      rintro more heq
      exact absurd (List.cons.inj heq).1 hc
    simp [hkept, hc]

theorem unquoted_sublist (cs : List Char) :
  (unquoted cs).Sublist cs
  := by
  rw [unquoted.eq_def]
  split
  · split
    · apply (List.dropLast_sublist _).trans (List.sublist_cons_self _ _)
    · apply List.Sublist.refl
  · apply List.Sublist.refl

/-- A path that reading leaves as it is: a single character, or more of them with no blank at
either end and no quotes around them. -/
def IsBare (path : List Char) : Prop :=
  ∃ h : path ≠ [], path.length = 1
    ∨ (Text.isBlank (path.head h) = false ∧ Text.isBlank (path.getLast h) = false
      ∧ ¬ (path.head h = '"' ∧ path.getLast h = '"'))

/-- The path that is read where a path is written after a blank. -/
def pathRead? (path : List Char) : Option (List Char) :=
  (pathAfter? (' ' :: path)).map unquoted

/-- Something visible after a gap is the path, without the blanks around it. -/
theorem pathAfter?_of_visible {gap : List Char} (hgap : Text.IsGap gap) (hfeed : '\n' ∉ cs)
    (hvisible : Text.trimStart cs ≠ []) :
  pathAfter? (gap ++ cs) = some (Text.trim cs)
  := by
  have hkept : (Text.trim cs).contains '\n' = false := by
    simpa using fun hmem => hfeed ((Text.trim_sublist cs).subset hmem)
  rw [pathAfter?, hgap.afterBlanks?]
  split
  · rename_i heq
    cases heq
  · rename_i heq
    exact absurd (Option.some.inj heq) hvisible
  · rename_i heq
    cases heq
    dsimp only
    rw [← Text.trim, hkept, if_neg Bool.false_ne_true]

/-- Of blanks the last one is the path, unless it is the first as well. -/
theorem pathAfter?_of_blank (hfeed : '\n' ∉ cs) (hblank : ∀ c ∈ cs, Text.isBlank c = true) :
  pathAfter? cs = (cs.drop 1).getLast?.map ([·])
  := by
  cases cs with
  | nil => rfl
  | cons c more =>
      have hmore : Text.trimStart more = [] :=
        Text.trimStart_eq_nil_iff.mpr fun b hb => hblank b (List.mem_cons_of_mem c hb)
      have hkept : more.filter (· ≠ '\n') = more := by
        rw [List.filter_eq_self]
        intro b hb
        apply decide_eq_true
        rintro rfl
        exact hfeed (List.mem_cons_of_mem c hb)
      rw [pathAfter?, Text.afterBlanks?, if_pos (hblank c List.mem_cons_self), hmore,
        List.drop_succ_cons, List.drop_zero, hkept]

/-- A blank has no quotes around it. -/
theorem unquoted_blank {c : Char} :
  unquoted [c] = [c]
  := by
  rw [unquoted_eq_self_iff (List.cons_ne_nil c [])]
  exact Or.inl rfl

/-- A path of which something remains without its blanks. -/
theorem pathRead?_of_visible (hfeed : '\n' ∉ cs) (hvisible : Text.trimStart cs ≠ []) :
  pathRead? cs = some (unquoted (Text.trim cs))
  := by
  have hgap : Text.IsGap [' '] := Text.isGap_cons rfl (nofun)
  rw [pathRead?, ← List.singleton_append, pathAfter?_of_visible hgap hfeed hvisible,
    Option.map_some]

/-- Of a path of blanks the last one is read. -/
theorem pathRead?_of_blank (hfeed : '\n' ∉ cs) (hblank : Text.trimStart cs = []) :
  pathRead? cs = cs.getLast?.map ([·])
  := by
  have hgap : Text.IsGap (' ' :: cs) := Text.isGap_cons rfl (Text.trimStart_eq_nil_iff.mp hblank)
  have hfeed' : '\n' ∉ ' ' :: cs := by simp [hfeed]
  rw [pathRead?, pathAfter?_of_blank hfeed' hgap.blank, List.drop_succ_cons, List.drop_zero,
    Option.map_map]
  congr 1
  funext c
  exact unquoted_blank

/-- A path is read back exactly if reading leaves it as it is. -/
theorem pathRead?_eq_self_iff (hfeed : '\n' ∉ cs) :
  pathRead? cs = some cs ↔ IsBare cs
  := by
  by_cases hnil : cs = []
  · subst hnil
    constructor
    · intro h
      cases h
    · rintro ⟨h, -⟩
      exact absurd rfl h
  have hbare : IsBare cs ↔ cs.length = 1
      ∨ (Text.trim cs = cs ∧ ¬ (cs.head hnil = '"' ∧ cs.getLast hnil = '"')) := by
    rw [Text.trim_eq_self_iff hnil, IsBare]
    simp [hnil, and_assoc]
  -- Of a path of blanks only the last one is left, so it is bare only if it is a single blank.
  by_cases hblank : Text.trimStart cs = []
  · have htrim : Text.trim cs ≠ cs := by
      rw [Text.trim, hblank]
      exact Ne.symm hnil
    rw [pathRead?_of_blank hfeed hblank, List.getLast?_eq_some_getLast hnil, hbare,
      or_iff_left fun h => htrim h.1, Option.map_some, Option.some.injEq]
    constructor
    · intro heq
      rw [← heq]
      rfl
    · intro hlength
      obtain ⟨c, rfl⟩ := List.length_eq_one_iff.mp hlength
      rfl
  · rw [pathRead?_of_visible hfeed hblank, Option.some.injEq, hbare]
    constructor
    · -- Blanks and quotes are both removed, so if nothing is missing neither took anything away.
      intro heq
      have hsub : (Text.trim cs).Sublist cs := Text.trim_sublist cs
      have htrim : Text.trim cs = cs := by
        apply hsub.eq_of_length_le
        have hlength := (unquoted_sublist (Text.trim cs)).length_le
        rwa [heq] at hlength
      rw [htrim, unquoted_eq_self_iff hnil] at heq
      exact heq.imp id fun hquotes => ⟨htrim, hquotes⟩
    · rintro (hlength | ⟨htrim, hquotes⟩)
      · obtain ⟨c, rfl⟩ := List.length_eq_one_iff.mp hlength
        have hc : Text.isBlank c = false := by
          by_contra hc
          apply hblank
          rw [Text.trimStart, List.dropWhile_cons_of_pos (by simpa using hc), List.dropWhile_nil]
        have htrim : Text.trim [c] = [c] :=
          (Text.trim_eq_self_iff (List.cons_ne_nil c [])).mpr ⟨hc, hc⟩
        rw [htrim, unquoted_eq_self_iff (List.cons_ne_nil c [])]
        exact Or.inl rfl
      · rw [htrim, unquoted_eq_self_iff hnil]
        exact Or.inr hquotes

/-- Nothing is read of an empty path only. -/
theorem pathRead?_eq_none_iff (hfeed : '\n' ∉ cs) :
  pathRead? cs = none ↔ cs = []
  := by
  by_cases hblank : Text.trimStart cs = []
  · rw [pathRead?_of_blank hfeed hblank, Option.map_eq_none_iff, List.getLast?_eq_none_iff]
  · rw [pathRead?_of_visible hfeed hblank]
    constructor
    · intro h
      cases h
    · rintro rfl
      exact absurd rfl hblank

/-! ### Times -/

/-- A stamp that follows a blank is read as the time it stands for, unless it takes three
digits for its hours. -/
theorem IsTime.timeAfter? {time : Double} {s : String} (h : IsTime time)
    (hs : Timecode.stamp time = .ok s) (rest : List Char) :
  Edit.timeAfter? (' ' :: (s.toList ++ rest))
    = if time < Timecode.hundredHours then some (time, rest) else none
  := by
  obtain ⟨t, ht, rfl⟩ := h
  obtain rfl := Except.ok.inj ((Timecode.stamp_time ht).symm.trans hs)
  have hmillis := ht.millis
  have hafter : ∀ n : Nat, Text.afterBlanks? (' ' :: ((Timecode.ofMillis n).toList ++ rest))
      = some ((Timecode.ofMillis n).toList ++ rest) := by
    intro n
    change some (Text.trimStart ((Timecode.ofMillis n).toList ++ rest)) = _
    rw [Timecode.trimStart_ofMillis]
  rw [Edit.timeAfter?, hafter, Option.bind_eq_bind, Option.bind_some]
  split
  · rename_i hlt
    rw [ht.time_lt_hundredHours] at hlt
    rw [Timecode.scan?_ofMillis (by omega)]
    change some ((Timecode.ofTotal _).time, rest) = _
    rw [Timecode.time_ofTotal hmillis]
  · rename_i hge
    rw [ht.time_lt_hundredHours] at hge
    rw [Timecode.scan?_ofMillis_eq_none (by omega)]
    rfl

/-! ### Lines -/

/-- A line that starts with the keyword of a load and a blank. -/
theorem ofLine?_load (path : String) :
  ofLine? ("LOAD " ++ path) = (pathRead? path.toList).map fun cs => load (String.ofList cs)
  := by
  have hline : ("LOAD " ++ path).toList = 'L' :: 'O' :: 'A' :: 'D' :: ' ' :: path.toList := by
    simp
  have hload : load? ('L' :: 'O' :: 'A' :: 'D' :: ' ' :: path.toList)
      = (pathRead? path.toList).map fun cs => load (String.ofList cs) := by
    have hkeyword : Text.looseKeyword? "LOAD".toList
        (Text.trimStart ('L' :: 'O' :: 'A' :: 'D' :: ' ' :: path.toList))
          = some (' ' :: path.toList) := rfl
    rw [load?, hkeyword, Option.bind_eq_bind, Option.bind_some, pathRead?, Option.map_map]
    cases pathAfter? (' ' :: path.toList) <;> rfl
  rw [ofLine?, hline, hload]
  cases pathRead? path.toList <;> rfl

/-- The canonical text of a cut. -/
theorem ofLine?_cut {time : Double} {s : String} (h : IsTime time)
    (hs : Timecode.stamp time = .ok s) :
  ofLine? ("CUT " ++ s) = if time < Timecode.hundredHours then some (cut time) else none
  := by
  have hline : ("CUT " ++ s).toList = 'C' :: 'U' :: 'T' :: ' ' :: s.toList := by simp
  have hkeyword : Text.keyword? "CUT".toList
      (Text.trimStart ('C' :: 'U' :: 'T' :: ' ' :: s.toList)) = some (' ' :: s.toList) := rfl
  have htime := h.timeAfter? hs []
  rw [List.append_nil] at htime
  have hcut : cut? ('C' :: 'U' :: 'T' :: ' ' :: s.toList)
      = if time < Timecode.hundredHours then some (cut time) else none := by
    rw [cut?, hkeyword, Option.bind_eq_bind, Option.bind_some, htime]
    split <;> rfl
  rw [ofLine?, hline, hcut]
  split <;> rfl

/-- The canonical text of an edit that applies a verb to a range. -/
theorem ofLine?_range (verb : RangeVerb) {start stop : Double} {s e : String}
    (h : IsTime start) (h' : IsTime stop) (hs : Timecode.stamp start = .ok s)
    (he : Timecode.stamp stop = .ok e) :
  ofLine? (verb.keyword ++ " " ++ s ++ " " ++ e)
    = if start < Timecode.hundredHours ∧ stop < Timecode.hundredHours
      then some (range verb start stop) else none
  := by
  have hline : (verb.keyword ++ " " ++ s ++ " " ++ e).toList
      = verb.keyword.toList ++ ' ' :: (s.toList ++ ' ' :: e.toList) := by simp
  have hkeyword : ∀ cs, Text.keyword? verb.keyword.toList
      (Text.trimStart (verb.keyword.toList ++ ' ' :: cs)) = some (' ' :: cs) := by
    intro cs
    cases verb <;> rfl
  have hstop := h'.timeAfter? he []
  rw [List.append_nil] at hstop
  have hrange : range? verb (verb.keyword.toList ++ ' ' :: (s.toList ++ ' ' :: e.toList))
      = if start < Timecode.hundredHours ∧ stop < Timecode.hundredHours
        then some (range verb start stop) else none := by
    rw [range?, hkeyword, Option.bind_eq_bind, Option.bind_some, h.timeAfter? hs]
    by_cases hlt : start < Timecode.hundredHours
    · by_cases hlt' : stop < Timecode.hundredHours
      · rw [if_pos hlt, if_pos ⟨hlt, hlt'⟩]
        simp only [Option.bind_eq_bind, Option.bind_some, hstop, if_pos hlt']
        rfl
      · rw [if_pos hlt, if_neg fun h => hlt' h.2]
        simp only [Option.bind_eq_bind, Option.bind_some, hstop, if_neg hlt', Option.bind_none]
    · rw [if_neg hlt, if_neg fun h => hlt h.1]
      rfl
  rw [ofLine?, hline]
  cases verb with
  | hide =>
      rw [hrange]
      split <;> rfl
  | reveal =>
      rw [hrange]
      split <;> rfl
  | delete =>
      rw [hrange]
      rfl

/-- An edit whose canonical text is a line that asks for an edit. -/
def Legible : Edit → Prop
  | load path => path ≠ ""
  | cut time => time < Timecode.hundredHours
  | range _ start stop => start < Timecode.hundredHours ∧ stop < Timecode.hundredHours

/-- An edit whose canonical text asks for itself. -/
def Regenerates : Edit → Prop
  | load path => IsBare path.toList
  | cut time => time < Timecode.hundredHours
  | range _ start stop => start < Timecode.hundredHours ∧ stop < Timecode.hundredHours

/-- What the canonical text of an edit that was read asks for. -/
theorem Readable.ofLine?_text {e : Edit} {s : String} (h : e.Readable) (hs : e.text = .ok s) :
  (ofLine? s = some e ↔ e.Regenerates) ∧ (ofLine? s = none ↔ ¬ e.Legible)
  := by
  cases e with
  | load path =>
      obtain rfl := Except.ok.inj hs
      rw [ofLine?_load, Option.map_eq_none_iff, pathRead?_eq_none_iff h, Regenerates, Legible,
        ← pathRead?_eq_self_iff h]
      constructor
      · constructor
        · intro hload
          obtain ⟨cs, hcs, hpath⟩ := Option.map_eq_some_iff.mp hload
          rw [hcs, ← load.inj hpath, String.toList_ofList]
        · intro hpath
          rw [hpath, Option.map_some, String.ofList_toList]
      · simp
  | cut time =>
      obtain ⟨t, ht, -, -⟩ := IsTime.stamp h
      rw [Edit.text, ht] at hs
      obtain rfl := Except.ok.inj hs
      rw [ofLine?_cut h ht, Regenerates, Legible]
      split <;> simp [*]
  | range verb start stop =>
      obtain ⟨t, ht, -, -⟩ := IsTime.stamp h.1
      obtain ⟨t', ht', -, -⟩ := IsTime.stamp h.2
      rw [Edit.text, ht, ht'] at hs
      obtain rfl := Except.ok.inj hs
      rw [ofLine?_range verb h.1 h.2 ht ht', Regenerates, Legible]
      split <;> simp [*]

end Edit

namespace Command

/-- The canonical text of a command that was read asks for the same command exactly if its path
is bare and its times are below a hundred hours.  It asks for no command at all exactly if its
path is empty or one of its times is not below a hundred hours; otherwise, the blanks or the
quotes of its path are lost. -/
theorem text_regenerates {line : String} {number : Int} {c : Command}
    (h : ofLine? line number = some c) :
  ∃ s, c.text = .ok s ∧ (ofLine? s number = some c ↔ c.edit.Regenerates)
    ∧ (isCommandLine s = false ↔ ¬ c.edit.Legible)
  := by
  obtain ⟨e, he, rfl⟩ := Option.map_eq_some_iff.mp h
  have hread := Edit.readable_of_ofLine? he
  obtain ⟨s, -, hs, -, -, -⟩ := hread.text
  obtain ⟨hself, hnone⟩ := hread.ofLine?_text hs
  use s, hs
  constructor
  · rw [← hself, ofLine?, Option.map_eq_some_iff]
    simp
  · rw [← hnone, isCommandLine]
    simp

theorem text_regenerates_respelled :
  (ofLine? " load  \"my file.mp4\" " 3 = some ⟨.load "my file.mp4", 3⟩
      ∧ ∃ s, text ⟨.load "my file.mp4", 3⟩ = .ok s
        ∧ ofLine? s 3 = some ⟨.load "my file.mp4", 3⟩)
    ∧ (ofLine? "HIDE 00:00:01.000 00:00:90.000" 4
          = some ⟨.range .hide (.ofInt 1) (.ofInt 90), 4⟩
      ∧ ∃ s, text ⟨.range .hide (.ofInt 1) (.ofInt 90), 4⟩ = .ok s
        ∧ ofLine? s 4 = some ⟨.range .hide (.ofInt 1) (.ofInt 90), 4⟩)
  := by
  have hload : ofLine? " load  \"my file.mp4\" " 3 = some ⟨.load "my file.mp4", 3⟩ := by
    decide +kernel
  have hhide : ofLine? "HIDE 00:00:01.000 00:00:90.000" 4
      = some ⟨.range .hide (.ofInt 1) (.ofInt 90), 4⟩ := by
    decide +kernel
  have hbare : Edit.Regenerates (.load "my file.mp4") := by
    use by decide
    exact Or.inr (by decide)
  have htimes : Edit.Regenerates (.range .hide (.ofInt 1) (.ofInt 90)) := by
    rw [Edit.Regenerates]
    decide +kernel
  obtain ⟨s, hs, hself, -⟩ := text_regenerates hload
  obtain ⟨s', hs', hself', -⟩ := text_regenerates hhide
  exact ⟨⟨hload, s, hs, hself.mpr hbare⟩, ⟨hhide, s', hs', hself'.mpr htimes⟩⟩

/-- A blank at the front of a path in quotes is lost, and a time of a hundred hours, which
minutes can make up, is written as what is no timecode. -/
theorem regeneration_loses :
  (ofLine? "LOAD \" a.mp4\"" 1 = some ⟨.load " a.mp4", 1⟩
      ∧ text ⟨.load " a.mp4", 1⟩ = .ok "LOAD  a.mp4"
      ∧ ofLine? "LOAD  a.mp4" 1 = some ⟨.load "a.mp4", 1⟩)
    ∧ (ofLine? "CUT 99:60:00.000" 1 = some ⟨.cut (.ofInt 360000), 1⟩
      ∧ (text ⟨.cut (.ofInt 360000), 1⟩).toOption = some "CUT 100:00:00.000"
      ∧ ofLine? "CUT 100:00:00.000" 1 = none)
  := by
  have htext : text ⟨.load " a.mp4", 1⟩ = .ok "LOAD  a.mp4" := rfl
  rw [htext]
  decide +kernel

end Command

end Montage
