import Montage.Proofs.Command.Grammar
import Montage.Proofs.Command.Regenerate

/-!
# The lines of loads

A line is read as the grammar has it, with one exception: if nothing but blanks, two or more of
them, follows the keyword of a load, the last blank is read as its path.  Apart from such lines,
blanks at the ends of a line make no difference: `load_grammar`.
-/

namespace Montage

namespace Text

theorem isLetter_iff_toUpper {capital c : Char}
    (h : ∀ p ∈ specialLetters, p.2 ≠ capital) :
  isLetter capital c = true ↔ c.toUpper = capital
  := by
  constructor
  · intro hletter
    rcases toUpper_or_special hletter with hupper | hspecial
    · exact hupper
    · exact absurd rfl (h _ hspecial)
  · intro hupper
    simp [isLetter, hupper]

/-- The letters of a keyword without special ones are those whose capitals are its own. -/
theorem spells_iff_map {word key : List Char}
    (h : ∀ capital ∈ word, ∀ p ∈ specialLetters, p.2 ≠ capital) :
  Spells word key ↔ key.map Char.toUpper = word
  := by
  induction word generalizing key with
  | nil => simp [Spells]
  | cons capital more ih =>
      have hmore : ∀ k ∈ more, ∀ p ∈ specialLetters, p.2 ≠ k :=
        fun k hk => h k (List.mem_cons_of_mem capital hk)
      have hletter : ∀ c, isLetter capital c = true ↔ c.toUpper = capital :=
        fun c => isLetter_iff_toUpper (h capital List.mem_cons_self)
      cases key with
      | nil => simp [Spells]
      | cons c rest =>
          rw [Spells, List.forall₂_cons, hletter, List.map_cons, List.cons.injEq]
          exact and_congr_right fun _ => ih hmore

end Text

namespace Edit

variable {cs gap rest path : List Char} {e : Edit}

/-- Quotes are taken away as a pair. -/
theorem unquotes_iff :
  Unquotes cs path ↔ unquoted cs = path
  := by
  -- Quotes stand around a text exactly if one follows the first and is the last.
  have hquoted : ∀ inner : List Char, (inner ++ ['"']).getLast? = some '"' := by simp
  constructor
  · intro h
    cases h with
    | quoted => rw [unquoted, if_pos (hquoted path), List.dropLast_concat]
    | bare hbare =>
        rw [unquoted.eq_def]
        split
        · split
          · rename_i hlast
            obtain ⟨inner, rfl⟩ := List.getLast?_eq_some_iff.mp hlast
            exact absurd rfl (hbare inner)
          · rfl
        · rfl
  · rintro rfl
    rw [unquoted.eq_def]
    split
    · split
      · rename_i hlast
        obtain ⟨inner, rfl⟩ := List.getLast?_eq_some_iff.mp hlast
        rw [List.dropLast_concat]
        exact .quoted inner
      · rename_i rest hlast
        refine .bare fun inner heq => hlast ?_
        rw [(List.cons.inj heq).2, hquoted]
    · rename_i hother
      exact .bare fun inner heq => hother _ heq

/-! ### Blanks after the keyword -/

/-- A line with nothing but blanks, two or more, after the keyword of a load. -/
def Trails (cs : List Char) : Prop :=
  ∃ front key back, (∀ c ∈ front, Text.isBlank c = true) ∧ key.map Char.toUpper = "LOAD".toList
    ∧ (∀ c ∈ back, Text.isBlank c = true) ∧ 2 ≤ back.length ∧ cs = front ++ (key ++ back)

theorem spells_load_iff {key : List Char} :
  Text.Spells "LOAD".toList key ↔ key.map Char.toUpper = "LOAD".toList
  := by
  apply Text.spells_iff_map
  simp [Text.specialLetters]

theorem load?_eq_some_iff :
  load? cs = some e
    ↔ ∃ key after path, key.map Char.toUpper = "LOAD".toList ∧ Text.trimStart cs = key ++ after
      ∧ pathAfter? after = some path ∧ e = load (String.ofList (unquoted path))
  := by
  simp only [load?, Option.bind_eq_bind, Option.bind_eq_some_iff, Option.pure_def,
    Option.some.injEq, Text.looseKeyword?_eq_some_iff, spells_load_iff]
  constructor
  · rintro ⟨after, ⟨key, hkey, hcs⟩, path, hpath, rfl⟩
    exact ⟨key, after, path, hkey, hcs, hpath, rfl⟩
  · rintro ⟨key, after, path, hkey, hcs, hpath, rfl⟩
    exact ⟨after, ⟨key, hkey, hcs⟩, path, hpath, rfl⟩

theorem not_mem_of_trimStart {key after : List Char} (hfeed : '\n' ∉ cs)
    (hcs : Text.trimStart cs = key ++ after) :
  '\n' ∉ after
  := by
  intro hmem
  apply hfeed
  apply (List.dropWhile_sublist Text.isBlank).subset
  change _ ∈ Text.trimStart cs
  rw [hcs]
  exact List.mem_append_right key hmem

/-- Any other line is read as a load exactly if it is one of the grammar. -/
theorem load?_eq_some_iff_spells (hfeed : '\n' ∉ cs) (htrails : ¬ Trails cs) :
  load? cs = some e ↔ (∃ path, e = load path) ∧ Spells (Text.trim cs) e
  := by
  rw [load?_eq_some_iff]
  constructor
  · rintro ⟨key, after, path, hkey, hcs, hpath, rfl⟩
    have hfeed' := not_mem_of_trimStart hfeed hcs
    by_cases hblank : ∀ c ∈ after, Text.isBlank c = true
    · -- Of blanks alone the last one is read, so there are two of them.
      rw [pathAfter?_of_blank hfeed' hblank] at hpath
      obtain ⟨c, hlast, -⟩ := Option.map_eq_some_iff.mp hpath
      have hlength : 0 < (after.drop 1).length :=
        List.length_pos_iff.mpr (List.ne_nil_of_mem (List.mem_of_getLast? hlast))
      rw [List.length_drop] at hlength
      obtain ⟨front, hfront, hline⟩ := Text.exists_trimStart cs
      rw [hcs] at hline
      exact absurd ⟨front, key, after, hfront, hkey, hblank, by omega, hline⟩ htrails
    · obtain ⟨gap, rest, hgap, rfl⟩ := exists_isGap_of_pathAfter? hpath
      have hrest : ∃ c ∈ rest, Text.isBlank c = false := by
        by_contra hnone
        apply hblank
        intro c hc
        rcases List.mem_append.mp hc with hc | hc
        · exact hgap.blank c hc
        · by_contra hvisible
          exact hnone ⟨c, hc, by simpa using hvisible⟩
      rw [pathAfter?_of_visible hgap (fun hmem => hfeed' (List.mem_append_right gap hmem))
        (Text.trimStart_ne_nil_iff.mpr hrest)] at hpath
      obtain rfl := Option.some.inj hpath
      have htrim : Text.trim cs = key ++ (gap ++ Text.trimEnd rest) := by
        rw [Text.trim, hcs, ← List.append_assoc, Text.trimEnd_append_of_visible hrest,
          List.append_assoc]
      rw [htrim]
      refine ⟨⟨_, rfl⟩, .load hkey hgap (Text.exists_mem_trimEnd hrest) ?_⟩
      rw [Text.trim_trimEnd, unquotes_iff]
  · rintro ⟨⟨path, he⟩, hspells⟩
    generalize htrim : Text.trim cs = line at hspells
    cases hspells with
    | cut => cases he
    | range => cases he
    | @load key gap rest path hkey hgap hrest hpath =>
        obtain ⟨back, hback, hcs⟩ := Text.exists_trimEnd (Text.trimStart cs)
        rw [← Text.trim, htrim, List.append_assoc, List.append_assoc] at hcs
        have hfeed' := not_mem_of_trimStart hfeed hcs
        have hvisible : Text.trimStart (rest ++ back) ≠ [] := by
          obtain ⟨c, hc, hblank⟩ := hrest
          exact Text.trimStart_ne_nil_iff.mpr ⟨c, List.mem_append_left back hc, hblank⟩
        refine ⟨key, gap ++ (rest ++ back), Text.trim rest, hkey, hcs, ?_, ?_⟩
        · rw [pathAfter?_of_visible hgap (fun hmem => hfeed' (List.mem_append_right gap hmem))
            hvisible, Text.trim_append_blank hback]
        · rw [unquotes_iff.mp hpath]

/-- The letters of the keyword are all that is left without the blanks, of which the last one is
the path. -/
theorem Trails.load? (hfeed : '\n' ∉ cs) (htrails : Trails cs) :
  ∃ b, cs.getLast? = some b ∧ Text.isBlank b = true
    ∧ Edit.load? cs = some (load (String.ofList [b])) ∧ (Text.trim cs).length = 4
  := by
  obtain ⟨front, key, back, hfront, hkey, hback, hlength, rfl⟩ := htrails
  have hletters : Text.Spells "LOAD".toList key := spells_load_iff.mpr hkey
  have hnil : key ≠ [] := hletters.ne_nil (by decide)
  have hvisible : ∀ c ∈ key, Text.isBlank c = false :=
    hletters.isBlank Pattern.load.keyword_isCapital
  have hfirst : Text.trimStart (front ++ (key ++ back)) = key ++ back := by
    apply Text.trimStart_append hfront
    intro c hc
    rw [List.head?_append, List.head?_eq_some_head hnil, Option.some_or, Option.some.injEq] at hc
    exact hvisible c (hc ▸ List.head_mem hnil)
  have hbacknil : back ≠ [] := List.length_pos_iff.mp (Nat.lt_of_lt_of_le Nat.two_pos hlength)
  have hlast : back.getLast? = some (back.getLast hbacknil) :=
    List.getLast?_eq_some_getLast hbacknil
  have hdrop : (back.drop 1).getLast? = some (back.getLast hbacknil) := by
    rw [List.getLast?_drop, if_neg (by omega), hlast]
  refine ⟨back.getLast hbacknil, ?_, hback _ (List.getLast_mem hbacknil), ?_, ?_⟩
  · rw [List.getLast?_append_of_ne_nil _ (List.append_ne_nil_of_right_ne_nil key hbacknil),
      List.getLast?_append_of_ne_nil _ hbacknil, hlast]
  · have hfeed' := not_mem_of_trimStart hfeed hfirst
    have hpath : pathAfter? back = some [back.getLast hbacknil] := by
      rw [pathAfter?_of_blank hfeed' hback, hdrop, Option.map_some]
    exact load?_eq_some_iff.mpr ⟨key, back, _, hkey, hfirst, hpath, by rw [unquoted_blank]⟩
  · have hself : Text.trim key = key :=
      (Text.trim_eq_self_iff hnil).mpr
        ⟨hvisible _ (List.head_mem hnil), hvisible _ (List.getLast_mem hnil)⟩
    rw [Text.trim_append hfront hback, hself]
    simpa using congrArg List.length hkey

/-- The grammar has no line of which only the keyword is left without the blanks. -/
theorem Trails.not_spells (hfeed : '\n' ∉ cs) (htrails : Trails cs) (e : Edit) :
  ¬ Spells (Text.trim cs) e
  := by
  obtain ⟨b, -, -, hload, hlength⟩ := htrails.load? hfeed
  intro hspells
  have hread : Pattern.load.read? cs = some (.load (String.ofList [b])) := hload
  have hother : ∀ p : Pattern, p.read? cs = some e → p = .load :=
    fun p hp => Pattern.eq_of_read? hp hread
  rcases e with path | time | ⟨verb, start, stop⟩
  · generalize Text.trim cs = line at hspells hlength
    cases hspells with
    | load hkey hgap =>
        have hfour := congrArg List.length hkey
        have hpos := List.length_pos_iff.mpr hgap.ne_nil
        rw [List.length_map] at hfour
        change _ = 4 at hfour
        rw [List.length_append, List.length_append] at hlength
        omega
  · cases hother .cut (cut?_eq_some_iff.mpr ⟨⟨time, rfl⟩, hspells⟩)
  · cases hother (.range verb) (range?_eq_some_iff.mpr ⟨⟨start, stop, rfl⟩, hspells⟩)

/-- Any line without blanks to spare after the keyword asks for what the grammar says. -/
theorem ofLine?_eq_some_iff_spells {line : String} (hfeed : '\n' ∉ line.toList)
    (htrails : ¬ Trails line.toList) :
  ofLine? line = some e ↔ Spells (Text.trim line.toList) e
  := by
  rw [ofLine?_eq_some_iff]
  rcases e with path | time | ⟨verb, start, stop⟩
  · exact (load?_eq_some_iff_spells hfeed htrails).trans (and_iff_right ⟨path, rfl⟩)
  · exact cut?_eq_some_iff.trans (and_iff_right ⟨time, rfl⟩)
  · exact range?_eq_some_iff.trans (and_iff_right ⟨start, stop, rfl⟩)

end Edit

namespace Command

/-- A line without line feeds is read as the grammar has it, with one exception.  If nothing but
blanks, two or more, follows the keyword of a load, the grammar has no such line, but the last
blank is read as a path.  So blanks at the ends of a line make no difference, as long as the
line is none of these and does not become one. -/
theorem load_grammar (line : String) (number : Int) (hfeed : '\n' ∉ line.toList) :
  (¬ Edit.Trails line.toList → ∀ c, ofLine? line number = some c
      ↔ c.line = number ∧ Edit.Spells (Text.trim line.toList) c.edit)
    ∧ (Edit.Trails line.toList →
      (∃ b, line.toList.getLast? = some b ∧ Text.isBlank b = true
        ∧ ofLine? line number = some ⟨.load (String.ofList [b]), number⟩)
      ∧ ∀ e, ¬ Edit.Spells (Text.trim line.toList) e)
    ∧ ∀ line', '\n' ∉ line'.toList → Text.trim line'.toList = Text.trim line.toList →
      ¬ Edit.Trails line.toList → ¬ Edit.Trails line'.toList →
      ofLine? line' number = ofLine? line number ∧ isCommandLine line' = isCommandLine line
  := by
  refine ⟨?_, ?_, ?_⟩
  · intro htrails c
    rw [ofLine?_eq_some_iff, Edit.ofLine?_eq_some_iff_spells hfeed htrails]
  · intro htrails
    obtain ⟨b, hlast, hblank, hload, -⟩ := htrails.load? hfeed
    refine ⟨⟨b, hlast, hblank, ?_⟩, htrails.not_spells hfeed⟩
    rw [ofLine?_eq_some_iff]
    exact ⟨rfl, Edit.ofLine?_eq_some_iff.mpr hload⟩
  · intro line' hfeed' htrim htrails htrails'
    have hsame : Edit.ofLine? line' = Edit.ofLine? line := by
      apply Option.ext
      intro e
      rw [Edit.ofLine?_eq_some_iff_spells hfeed' htrails', htrim,
        Edit.ofLine?_eq_some_iff_spells hfeed htrails]
    rw [ofLine?, isCommandLine, hsame]
    exact ⟨rfl, rfl⟩

/-- A load in small letters, with blanks of other kinds around it and without, and the keyword
alone with two blanks after it. -/
theorem load_grammar_respelled :
  ofLine? "\u3000load\u00a0\t\"my file.mp4\" \r" 3 = some ⟨.load "my file.mp4", 3⟩
    ∧ Edit.Spells "load\u00a0\t\"my file.mp4\"".toList (.load "my file.mp4")
    ∧ ofLine? "load\u00a0\t\"my file.mp4\"" 3 = ofLine? "\u3000load\u00a0\t\"my file.mp4\" \r" 3
    ∧ ofLine? "\tLOAD \u00a0" 4 = some ⟨.load "\u00a0", 4⟩
  := by
  have hloose : ofLine? "\u3000load\u00a0\t\"my file.mp4\" \r" 3
      = some ⟨.load "my file.mp4", 3⟩ := by
    decide +kernel
  have htight : ofLine? "load\u00a0\t\"my file.mp4\"" 3 = some ⟨.load "my file.mp4", 3⟩ := by
    decide +kernel
  have hletter : ∀ b : Char, "my file.mp4" ≠ String.ofList [b] := by
    intro b heq
    have hletters : "my file.mp4".toList = [b] := by rw [heq, String.toList_ofList]
    cases congrArg List.length hletters
  have hbare : Edit.Trails "\tLOAD \u00a0".toList :=
    ⟨['\t'], "LOAD".toList, [' ', '\u00a0'], List.all_eq_true.mp (by decide), by decide,
      List.all_eq_true.mp (by decide), by decide, by decide⟩
  obtain ⟨hgrammar, hblank, hends⟩ :=
    load_grammar "\u3000load\u00a0\t\"my file.mp4\" \r" 3 (by decide)
  obtain ⟨-, hblank', -⟩ := load_grammar "load\u00a0\t\"my file.mp4\"" 3 (by decide)
  obtain ⟨-, hblank'', -⟩ := load_grammar "\tLOAD \u00a0" 4 (by decide)
  -- Neither of the first two lines asks for a single blank.
  have htrails : ¬ Edit.Trails "\u3000load\u00a0\t\"my file.mp4\" \r".toList := by
    intro htrails
    obtain ⟨b, -, -, hb⟩ := (hblank htrails).1
    exact hletter b (Edit.load.inj (congrArg Command.edit (Option.some.inj (hloose.symm.trans hb))))
  have htrails' : ¬ Edit.Trails "load\u00a0\t\"my file.mp4\"".toList := by
    intro htrails'
    obtain ⟨b, -, -, hb⟩ := (hblank' htrails').1
    exact hletter b (Edit.load.inj (congrArg Command.edit (Option.some.inj (htight.symm.trans hb))))
  obtain ⟨b, hlast, -, hb⟩ := (hblank'' hbare).1
  refine ⟨hloose, ((hgrammar htrails _).mp hloose).2,
    (hends _ (by decide) (by decide) htrails htrails').1, ?_⟩
  obtain rfl : '\u00a0' = b := Option.some.inj hlast
  exact hb

/-- The keyword of a load alone asks for nothing, but with two blanks after it for a blank. -/
theorem bare_keyword_loads :
  Text.trim "LOAD  ".toList = Text.trim "LOAD".toList
    ∧ ofLine? "LOAD" 1 = none ∧ isCommandLine "LOAD" = false
    ∧ ofLine? "LOAD  " 1 = some ⟨.load " ", 1⟩ ∧ isCommandLine "LOAD  " = true
  := by
  decide +kernel

end Command

end Montage
