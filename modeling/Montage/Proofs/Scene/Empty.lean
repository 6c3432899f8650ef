import Montage.Proofs.Scene.Content

/-!
# Empty text in scenes

Whether a line of a scene is blank is decided before its mark is removed, so a heading or a quote
can be nothing but its mark.  What such a line says is empty, and it counts all the same: as the
title, if it is the first heading; as a paragraph, if it is a later one; and as a line of the
subtitle.  Nothing else in a scene is empty.  So a scene has empty text exactly if one of its
headings says nothing, or if it has quotes and none of them says anything.
-/

namespace Montage.Scene

/-- A scene without empty text. -/
structure Telling (s : Scene) : Prop where
  title : ∀ t ∈ s.title, Text.isBlankText t = false
  subtitle : ∀ t ∈ s.subtitle, Text.isBlankText t = false
  freeText : ∀ p ∈ s.freeText, Text.isBlankText p.text = false

/-- A line of nothing but a mark and the space after it, with blanks around them. -/
def IsMute (mark : Char) (line : List Char) : Prop :=
  ∃ front back, (∀ c ∈ front, Text.isBlank c = true) ∧ (∀ c ∈ back, Text.isBlank c = true)
    ∧ line = front ++ mark :: ' ' :: back

theorem isBlankText_ofList {cs : List Char} :
  Text.isBlankText (String.ofList cs) = true ↔ ∀ c ∈ cs, Text.isBlank c = true
  := by
  rw [Text.isBlankText, String.toList_ofList, List.all_eq_true]

namespace ContentLine

variable {line text : List Char}

theorem isMute_iff {mark : Char} (hmark : Text.isBlank mark = false) :
  IsMute mark line ↔ ∃ rest, Text.trimStart line = mark :: ' ' :: rest ∧ Text.trim rest = []
  := by
  constructor
  · rintro ⟨front, back, hfront, hback, rfl⟩
    refine ⟨back, Text.trimStart_append hfront ?_, Text.trim_eq_nil_iff.mpr hback⟩
    intro c hc
    cases hc
    exact hmark
  · rintro ⟨rest, htrim, hrest⟩
    obtain ⟨front, hfront, hline⟩ := Text.exists_trimStart line
    exact ⟨front, rest, hfront, Text.trim_eq_nil_iff.mp hrest, htrim ▸ hline⟩

theorem ofLine_eq_heading_iff :
  ofLine line = heading text ↔ ∃ rest, Text.trimStart line = '#' :: ' ' :: rest
    ∧ Text.trim rest = text
  := by
  rw [ofLine]
  split <;> simp_all

theorem ofLine_eq_quote_iff :
  ofLine line = quote text ↔ ∃ rest, Text.trimStart line = '>' :: ' ' :: rest
    ∧ Text.trim rest = text
  := by
  rw [ofLine]
  split <;> simp_all

theorem heading?_eq_some_iff {kind : ContentLine} :
  kind.heading? = some text ↔ kind = heading text
  := by
  cases kind <;> simp [heading?]

theorem quote?_eq_some_iff {kind : ContentLine} :
  kind.quote? = some text ↔ kind = quote text
  := by
  cases kind <;> simp [quote?]

theorem ofLine_eq_heading_nil_iff :
  ofLine line = heading [] ↔ IsMute '#' line
  := by
  rw [ofLine_eq_heading_iff, isMute_iff (by decide)]

theorem ofLine_eq_quote_nil_iff :
  ofLine line = quote [] ↔ IsMute '>' line
  := by
  rw [ofLine_eq_quote_iff, isMute_iff (by decide)]

/-- What a heading says is blank only if it is nothing. -/
theorem blank_heading_iff (h : ofLine line = heading text) :
  (∀ c ∈ text, Text.isBlank c = true) ↔ text = []
  := by
  obtain ⟨rest, -, rfl⟩ := ofLine_eq_heading_iff.mp h
  exact Text.trim_blank_iff

theorem blank_quote_iff (h : ofLine line = quote text) :
  (∀ c ∈ text, Text.isBlank c = true) ↔ text = []
  := by
  obtain ⟨rest, -, rfl⟩ := ofLine_eq_quote_iff.mp h
  exact Text.trim_blank_iff

/-- What a plain line says is visible. -/
theorem visible_plain (h : ofLine line = plain text) :
  ∃ c ∈ text, Text.isBlank c = false
  := by
  have hvisible : ∃ c ∈ line, Text.isBlank c = false := by
    by_contra hnone
    push Not at hnone
    have hblank : line.all Text.isBlank = true := by simpa using hnone
    rw [ofLine_of_blank hblank] at h
    cases h
  have htext : text = Text.trimStart line := by
    rw [ofLine] at h
    split at h <;> simp_all
  obtain ⟨front, hfront, hline⟩ := Text.exists_trimStart line
  obtain ⟨c, hc, hvisible⟩ := hvisible
  rw [hline, ← htext] at hc
  rcases List.mem_append.mp hc with hc | hc
  · rw [hfront c hc] at hvisible
    cases hvisible
  · exact ⟨c, hc, hvisible⟩

end ContentLine

/-! ### Parts of content -/

section Parts

variable {ls : List (List Char)} {first number : Int} {t : String}

/-- The first heading says nothing. -/
def MuteTitle (ls : List (List Char)) : Prop :=
  ∃ (i : Nat) (line : List Char), ls[i]? = some line ∧ IsMute '#' line
    ∧ headingBefore ls i = false

/-- There are quotes, and none of them says anything. -/
def MuteSubtitle (ls : List (List Char)) : Prop :=
  (∃ line ∈ ls, IsMute '>' line)
    ∧ ∀ line ∈ ls, (ContentLine.ofLine line).quote?.isSome = true → IsMute '>' line

/-- The line of an index is a heading that is not the first one and says nothing. -/
def MuteParagraph (ls : List (List Char)) (i : Nat) : Prop :=
  ∃ line, ls[i]? = some line ∧ IsMute '#' line ∧ headingBefore ls i = true

theorem title_decompose (first : Int) (ls : List (List Char)) :
  (decompose first ls).1
    = (ls.findSome? fun line => (ContentLine.ofLine line).heading?).map String.ofList
  := by
  change (Gathered.addAll {} first ls).close.title = _
  rw [Gathered.title_close, Gathered.title_addAll]
  rfl

theorem subtitle_decompose (first : Int) (ls : List (List Char)) :
  (decompose first ls).2.1
    = if quoted ls = [] then none else some (String.ofList (Text.joinLines (quoted ls)))
  := by
  change Gathered.subtitle _ = _
  rw [Gathered.subtitle, Gathered.quotes_close, Gathered.quotes_addAll, List.append_nil]
  simp

/-- The paragraphs are those that start on the lines. -/
theorem mem_freeText_decompose {p : Paragraph} :
  p ∈ (decompose first ls).2.2 ↔ ∃ i, paragraphAt? ls first i = some p
  := by
  have hfree := freeText_addAll (g := {}) (List.drop_zero (l := ls)) rfl rfl first
  rw [Int.natCast_zero, Int.add_zero, ← List.range_eq_range'] at hfree
  have hmem : p ∈ (decompose first ls).2.2
      ↔ p ∈ (List.range ls.length).filterMap (paragraphAt? ls first) :=
    iff_of_eq (congrArg (p ∈ ·) hfree)
  rw [hmem, List.mem_filterMap]
  constructor
  · rintro ⟨i, -, hp⟩
    exact ⟨i, hp⟩
  · rintro ⟨i, hp⟩
    refine ⟨i, List.mem_range.mpr ?_, hp⟩
    by_contra hle
    rw [paragraphAt?, List.drop_eq_nil_of_le (Nat.le_of_not_lt hle)] at hp
    cases hp

/-- What is said is blank as a whole only if each of its lines is. -/
theorem blank_joinLines_iff :
  (∀ c ∈ Text.joinLines ls, Text.isBlank c = true)
    ↔ ∀ line ∈ ls, ∀ c ∈ line, Text.isBlank c = true
  := by
  induction ls with
  | nil => simp [Text.joinLines]
  | cons line rest ih =>
      rw [Text.joinLines_cons]
      split
      · rename_i hrest
        simp [hrest]
      · rw [List.forall_mem_append, List.forall_mem_cons, ih, List.forall_mem_cons]
        exact and_congr_right fun _ => and_iff_right (by decide)

/-- A title is empty if the first heading says nothing. -/
theorem blank_title_iff :
  (∃ t ∈ (decompose first ls).1, Text.isBlankText t = true) ↔ MuteTitle ls
  := by
  simp only [title_decompose, Option.mem_def, MuteTitle, ← ContentLine.ofLine_eq_heading_nil_iff]
  constructor
  · rintro ⟨t, ht, hblank⟩
    obtain ⟨text, htext, rfl⟩ := Option.map_eq_some_iff.mp ht
    obtain ⟨before, line, after, rfl, hline, hbefore⟩ := List.findSome?_eq_some_iff.mp htext
    have hkind := ContentLine.heading?_eq_some_iff.mp hline
    rw [isBlankText_ofList, ContentLine.blank_heading_iff hkind] at hblank
    subst hblank
    refine ⟨before.length, line, by simp, hkind, ?_⟩
    simpa [headingBefore] using hbefore
  · rintro ⟨i, line, hline, hkind, hbefore⟩
    obtain ⟨hlt, hget⟩ := List.getElem?_eq_some_iff.mp hline
    have hlines : ls = ls.take i ++ line :: ls.drop (i + 1) := by
      rw [← hget, ← List.drop_eq_getElem_cons hlt, List.take_append_drop]
    have hfirst : (ls.findSome? fun line => (ContentLine.ofLine line).heading?) = some [] := by
      apply List.findSome?_eq_some_iff.mpr
      refine ⟨_, line, _, hlines, ContentLine.heading?_eq_some_iff.mpr hkind, ?_⟩
      simpa [headingBefore] using hbefore
    exact ⟨"", by rw [hfirst]; rfl, rfl⟩

/-- A subtitle is empty if there are quotes and none says anything. -/
theorem blank_subtitle_iff :
  (∃ t ∈ (decompose first ls).2.1, Text.isBlankText t = true) ↔ MuteSubtitle ls
  := by
  have hmem : ∀ text, text ∈ quoted ls ↔ ∃ line ∈ ls, ContentLine.ofLine line = .quote text := by
    intro text
    simp only [quoted, List.mem_filterMap, ContentLine.quote?_eq_some_iff]
  have hblank : (∃ t ∈ (decompose first ls).2.1, Text.isBlankText t = true)
      ↔ quoted ls ≠ [] ∧ ∀ text ∈ quoted ls, text = [] := by
    rw [subtitle_decompose]
    split
    · rename_i hnone
      simp [hnone]
    · rename_i hsome
      simp only [Option.mem_def, Option.some.injEq, exists_eq_left', isBlankText_ofList,
        blank_joinLines_iff]
      refine Iff.trans (forall₂_congr fun text htext => ?_) (and_iff_right hsome).symm
      obtain ⟨line, -, hkind⟩ := (hmem text).mp htext
      exact ContentLine.blank_quote_iff hkind
  simp only [hblank, MuteSubtitle, ← ContentLine.ofLine_eq_quote_nil_iff]
  constructor
  · rintro ⟨hsome, hall⟩
    obtain ⟨text, htext⟩ := List.exists_mem_of_ne_nil _ hsome
    obtain ⟨line, hline, hkind⟩ := (hmem text).mp htext
    refine ⟨⟨line, hline, hall text htext ▸ hkind⟩, fun line hline hquote => ?_⟩
    obtain ⟨text, hkind⟩ := Option.isSome_iff_exists.mp hquote
    rw [ContentLine.quote?_eq_some_iff] at hkind
    exact hall text ((hmem text).mpr ⟨line, hline, hkind⟩) ▸ hkind
  · rintro ⟨⟨line, hline, hkind⟩, hall⟩
    refine ⟨List.ne_nil_of_mem ((hmem []).mpr ⟨line, hline, hkind⟩), fun text htext => ?_⟩
    obtain ⟨line, hline, hkind⟩ := (hmem text).mp htext
    have hnil := hall line hline (by rw [hkind]; rfl)
    rw [hkind] at hnil
    exact ContentLine.quote.inj hnil

/-- What stands on the first of some lines is empty if it is a later heading that says nothing. -/
theorem blank_opened?_iff {titled inside : Bool} :
  (∃ p ∈ opened? titled inside number ls, Text.isBlankText p.text = true)
    ↔ titled = true ∧ ∃ line, ls.head? = some line ∧ IsMute '#' line
  := by
  simp only [← ContentLine.ofLine_eq_heading_nil_iff, Option.mem_def]
  cases ls with
  | nil => simp [opened?]
  | cons line rest =>
      rw [opened?]
      cases hkind : ContentLine.ofLine line with
      | blank | quote text => simp [hkind]
      | heading text =>
          have hblank := ContentLine.blank_heading_iff hkind
          rw [← isBlankText_ofList] at hblank
          cases titled <;> simp [hkind, hblank]
      | plain text =>
          -- A paragraph of plain lines holds what is visible on the first of them.
          have hsaid : ¬ Text.isBlankText (String.ofList (Text.trim (Text.joinLines
              (plainFront (line :: rest))))) = true := by
            obtain ⟨c, hc, hvisible⟩ := ContentLine.visible_plain hkind
            rw [isBlankText_ofList, Text.forall_mem_trim_iff, blank_joinLines_iff, plainFront,
              hkind]
            intro hblank
            rw [hblank text List.mem_cons_self c hc] at hvisible
            cases hvisible
          cases inside <;> simp [hkind, hsaid]

theorem line_of_opened? {titled inside : Bool} {p : Paragraph}
    (h : opened? titled inside number ls = some p) :
  p.line = number
  := by
  cases ls with
  | nil => cases h
  | cons line rest =>
      rw [opened?] at h
      split at h
      · split at h <;> cases h
        rfl
      · split at h <;> cases h
        rfl
      · cases h

/-- A paragraph is empty if it is a later heading that says nothing. -/
theorem blank_paragraph_iff :
  (∃ p ∈ (decompose first ls).2.2, p.line = number ∧ Text.isBlankText p.text = true)
    ↔ ∃ i : Nat, number = first + i ∧ MuteParagraph ls i
  := by
  constructor
  · rintro ⟨p, hp, rfl, hblank⟩
    obtain ⟨i, hi⟩ := mem_freeText_decompose.mp hp
    obtain ⟨hbefore, line, hline, hmute⟩ := blank_opened?_iff.mp ⟨p, hi, hblank⟩
    rw [List.head?_drop] at hline
    exact ⟨i, line_of_opened? hi, line, hline, hmute, hbefore⟩
  · rintro ⟨i, rfl, line, hline, hmute, hbefore⟩
    rw [← List.head?_drop] at hline
    obtain ⟨p, hi, hblank⟩ := blank_opened?_iff.mpr ⟨hbefore, line, hline, hmute⟩
    exact ⟨p, mem_freeText_decompose.mpr ⟨i, hi⟩, line_of_opened? hi, hblank⟩

/-- Some heading says nothing if the first or a later one does. -/
theorem exists_muteHeading_iff :
  (∃ line ∈ ls, IsMute '#' line) ↔ MuteTitle ls ∨ ∃ i, MuteParagraph ls i
  := by
  constructor
  · rintro ⟨line, hmem, hmute⟩
    obtain ⟨i, hline⟩ := List.mem_iff_getElem?.mp hmem
    cases hbefore : headingBefore ls i with
    | false => exact .inl ⟨i, line, hline, hmute, hbefore⟩
    | true => exact .inr ⟨i, line, hline, hmute, hbefore⟩
  · rintro (⟨i, line, hline, hmute, -⟩ | ⟨i, line, hline, hmute, -⟩) <;>
      exact ⟨line, List.mem_of_getElem? hline, hmute⟩

/-- A title is blank only if it is empty. -/
theorem blank_title (h : (decompose first ls).1 = some t) :
  Text.isBlankText t = true ↔ t.isEmpty = true
  := by
  rw [title_decompose] at h
  obtain ⟨text, htext, rfl⟩ := Option.map_eq_some_iff.mp h
  obtain ⟨line, -, hline⟩ := List.exists_of_findSome?_eq_some htext
  rw [isBlankText_ofList, ContentLine.blank_heading_iff (ContentLine.heading?_eq_some_iff.mp hline)]
  simp

/-- A subtitle is empty only if it is one quote that says nothing. -/
theorem isEmpty_subtitle (h : (decompose first ls).2.1 = some t) :
  t.isEmpty = true ↔ quoted ls = [[]]
  := by
  rw [subtitle_decompose] at h
  split at h
  · cases h
  · rename_i hsome
    obtain rfl := Option.some.inj h
    cases hquoted : quoted ls with
    | nil => exact absurd hquoted hsome
    | cons text rest =>
        rw [Text.joinLines_cons]
        split
        · rename_i hrest
          simp [hrest]
        · rename_i hrest
          simp [hrest]

end Parts

/-! ### Scenes -/

/-- Where the text of a scene with given lines as its content is empty. -/
structure EmptyWhere (s : Scene) (content : List (List Char)) : Prop where
  title : (∃ t ∈ s.title, Text.isBlankText t = true) ↔ MuteTitle content
  subtitle : (∃ t ∈ s.subtitle, Text.isBlankText t = true) ↔ MuteSubtitle content
  freeText : ∀ number, (∃ p ∈ s.freeText, p.line = number ∧ Text.isBlankText p.text = true)
    ↔ ∃ i : Nat, number = s.line + 1 + i ∧ MuteParagraph content i
  /-- Nothing is empty if each heading says something, and one of the quotes if there are any. -/
  telling : s.Telling ↔ (∀ line ∈ content, ¬ IsMute '#' line) ∧ ¬ MuteSubtitle content
  /-- No title is written where there is none or the first heading says nothing. -/
  titleLines : s.titleLines = [] ↔ s.title = none ∨ MuteTitle content
  /-- No subtitle is written where there is none or it is a single quote that says nothing. -/
  subtitleLines : s.subtitleLines = [] ↔ s.subtitle = none ∨ quoted content = [[]]

section Content

variable (start stop : Double) (line : Int) (content : List (List Char))

theorem telling_ofContent :
  (ofContent start stop line content).Telling
    ↔ (∀ l ∈ content, ¬ IsMute '#' l) ∧ ¬ MuteSubtitle content
  := by
  constructor
  · intro h
    refine ⟨fun l hl hmute => ?_, fun hquotes => ?_⟩
    · rcases exists_muteHeading_iff.mp ⟨l, hl, hmute⟩ with htitle | ⟨i, hi⟩
      · obtain ⟨t, ht, hblank⟩ := blank_title_iff.mpr htitle
        rw [h.title t ht] at hblank
        cases hblank
      · obtain ⟨p, hp, -, hblank⟩ := blank_paragraph_iff.mpr ⟨i, rfl, hi⟩
        rw [h.freeText p hp] at hblank
        cases hblank
    · obtain ⟨t, ht, hblank⟩ := blank_subtitle_iff.mpr hquotes
      rw [h.subtitle t ht] at hblank
      cases hblank
  · rintro ⟨hheadings, hquotes⟩
    have hnone : ¬ (MuteTitle content ∨ ∃ i, MuteParagraph content i) := by
      rw [← exists_muteHeading_iff]
      rintro ⟨l, hl, hmute⟩
      exact hheadings l hl hmute
    refine ⟨fun t ht => ?_, fun t ht => ?_, fun p hp => ?_⟩ <;> rw [← Bool.not_eq_true] <;>
      intro hblank
    · exact hnone (.inl (blank_title_iff.mp ⟨t, ht, hblank⟩))
    · exact hquotes (blank_subtitle_iff.mp ⟨t, ht, hblank⟩)
    · obtain ⟨i, -, hi⟩ := blank_paragraph_iff.mp ⟨p, hp, rfl, hblank⟩
      exact hnone (.inr ⟨i, hi⟩)

theorem titleLines_ofContent :
  (ofContent start stop line content).titleLines = []
    ↔ (ofContent start stop line content).title = none ∨ MuteTitle content
  := by
  have htitle : (∃ t ∈ (decompose (line + 1) content).1, Text.isBlankText t = true)
      ↔ MuteTitle content :=
    blank_title_iff
  rw [titleLines, ← htitle]
  cases ht : (decompose (line + 1) content).1 with
  | none => simp [ofContent, ht]
  | some t =>
      have hblank := blank_title ht
      simp [ofContent, ht, hblank]

theorem subtitleLines_ofContent :
  (ofContent start stop line content).subtitleLines = []
    ↔ (ofContent start stop line content).subtitle = none ∨ quoted content = [[]]
  := by
  rw [subtitleLines]
  cases ht : (decompose (line + 1) content).2.1 with
  | none => simp [ofContent, ht]
  | some t =>
      rw [← isEmpty_subtitle ht]
      simp [ofContent, ht, splitFeeds_ne_nil]

theorem emptyWhere_ofContent :
  EmptyWhere (ofContent start stop line content) content
  := by
  constructor
  case title => exact blank_title_iff
  case subtitle => exact blank_subtitle_iff
  case freeText => exact fun _ => blank_paragraph_iff
  case telling => exact telling_ofContent _ _ _ _
  case titleLines => exact titleLines_ofContent _ _ _ _
  case subtitleLines => exact subtitleLines_ofContent _ _ _ _

end Content

/-- A scene is made up of the lines that belong to its separator. -/
theorem exists_ofContent {body : String} {offset : Int} {s : Scene}
    (hs : s ∈ succeeded (ofBody body offset)) :
  ∃ (i : Nat) (start stop : Double),
    s = ofContent start stop (offset + 1 + i) (contentAt (Text.splitLines body.toList) i)
  := by
  have hscenes := succeeded_outcomes offset (List.drop_zero (l := Text.splitLines body.toList))
  rw [Int.natCast_zero, Int.add_zero] at hscenes
  rw [ofBody, hscenes] at hs
  obtain ⟨i, -, hi⟩ := List.mem_filterMap.mp hs
  rw [sceneAt?] at hi
  split at hi
  · cases hi
  · split at hi
    · cases hi
    · rename_i start stop _ _
      exact ⟨i, start, stop, (Option.some.inj hi).symm⟩

/-- The text of a scene is empty where a heading says nothing and where no quote does, and nowhere
else. -/
theorem empty_where_mute {body : String} {offset : Int} {s : Scene}
    (hs : s ∈ succeeded (ofBody body offset)) :
  ∃ i : Nat, s.line = offset + 1 + i ∧ EmptyWhere s (contentAt (Text.splitLines body.toList) i)
  := by
  obtain ⟨i, start, stop, rfl⟩ := exists_ofContent hs
  exact ⟨i, rfl, emptyWhere_ofContent _ _ _ _⟩

/-- A scene with headings and a quote that say nothing. -/
def mumbled : String :=
  "--- [00:00:00.000 -> 00:00:01.000] ---\n# \n# a\n > \t\nb\n\t#  "

/-- The first heading that says nothing is the title, a later one is a paragraph, and a quote that
says nothing is the subtitle. -/
theorem empty_where_mute_mumbled :
  ∃ s ∈ succeeded (ofBody mumbled 4), s.title = some "" ∧ s.subtitle = some ""
    ∧ s.freeText = [⟨"a", 7⟩, ⟨"b", 9⟩, ⟨"", 10⟩]
    ∧ ∃ i : Nat, s.line = 4 + 1 + i ∧ EmptyWhere s (contentAt (Text.splitLines mumbled.toList) i)
  := by
  have hscenes : succeeded (ofBody mumbled 4) = [⟨.zero, .ofInt 1, 5, "# \n# a\n > \t\nb\n\t#",
      some "", some "", [⟨"a", 7⟩, ⟨"b", 9⟩, ⟨"", 10⟩]⟩] := by decide +kernel
  refine ⟨_, hscenes ▸ List.mem_cons_self, rfl, rfl, rfl, ?_⟩
  apply empty_where_mute
  rw [hscenes]
  exact List.mem_cons_self

/-- A heading that says nothing takes the place of the next one as the title, and is not
written. -/
theorem mute_heading_titled :
  (¬ ∀ (body : String) (offset : Int), ∀ s ∈ succeeded (ofBody body offset), s.Telling)
    ∧ (succeeded (ofBody "--- [00:00:00.000 -> 00:00:01.000] ---\n# \n# a" 0)).map
        (fun s => (s.title, s.freeText, s.titleLines)) = [(some "", [⟨"a", 3⟩], [])]
  := by
  refine ⟨fun h => ?_, by decide +kernel⟩
  have hempty : (succeeded (ofBody mumbled 4)).any (·.title = some "") = true := by decide +kernel
  obtain ⟨s, hs, htitle⟩ := List.any_eq_true.mp hempty
  have hvisible := (h mumbled 4 s hs).title "" (of_decide_eq_true htitle)
  cases hvisible

end Montage.Scene
