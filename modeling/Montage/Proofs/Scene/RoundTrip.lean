import Montage.Proofs.Command.Regenerate
import Montage.Proofs.Scene.Numbers

/-!
# Scenes that are read back

What `Scene.render` writes is a separator with the stamps of the times, a heading and quotes.
Neither a heading nor a quote can be taken for a boundary or for a line of another kind,
whatever it says, so the scene is read back from the lines it is written in:
`ofBody_render`.
-/

namespace Montage

/-- The time of a timecode is not before zero. -/
theorem Edit.IsTime.not_lt_zero {time : Double} (h : IsTime time) :
  ¬ time < .zero
  := by
  obtain ⟨t, ht, rfl⟩ := h
  obtain ⟨b, c, hc, htime, -⟩ := ht.time_approximates
  rw [htime, Double.zero, Double.fin_lt_fin]
  apply Nat.not_lt_zero

/-- A stamp below a hundred hours is read as the time it stands for. -/
theorem Edit.IsTime.scan? {time : Double} {s : String} (h : IsTime time)
    (hlt : time < Timecode.hundredHours) (hs : Timecode.stamp time = .ok s)
    (rest : List Char) :
  ∃ t : Timecode, t.time = time ∧ Timecode.scan? (s.toList ++ rest) = some (t, rest)
    ∧ Text.trimStart (s.toList ++ rest) = s.toList ++ rest
  := by
  obtain ⟨t, ht, rfl⟩ := h
  obtain rfl := Except.ok.inj ((Timecode.stamp_time ht).symm.trans hs)
  rw [ht.time_lt_hundredHours] at hlt
  have hmillis := ht.millis
  exact ⟨_, Timecode.time_ofTotal hmillis, Timecode.scan?_ofMillis (by omega) rest,
    Timecode.trimStart_ofMillis _ rest⟩

namespace Scene

/-! ### Line feeds -/

theorem splitFeeds_ne_nil (cs : List Char) :
  splitFeeds cs ≠ []
  := by
  fun_cases splitFeeds cs <;> exact List.cons_ne_nil _ _

/-- A text is made up of the parts between its line feeds. -/
theorem joinLines_splitFeeds (cs : List Char) :
  Text.joinLines (splitFeeds cs) = cs
  := by
  fun_induction splitFeeds cs with
  | case1 => rfl
  | case2 cs ih => rw [Text.joinLines_cons, if_neg (splitFeeds_ne_nil cs), ih, List.nil_append]
  | case3 c cs _ hnil => exact absurd hnil (splitFeeds_ne_nil cs)
  | case4 c cs _ line rest hcons ih =>
      rw [hcons, Text.joinLines_cons] at ih
      rw [Text.joinLines_cons]
      split at ih <;> simp_all

theorem not_mem_splitFeeds {cs line : List Char} (h : line ∈ splitFeeds cs) :
  '\n' ∉ line
  := by
  fun_induction splitFeeds cs generalizing line with
  | case1 =>
      obtain rfl := List.mem_singleton.mp h
      exact nofun
  | case2 cs ih =>
      rcases List.mem_cons.mp h with rfl | hrest
      · exact nofun
      · apply ih hrest
  | case3 c cs _ hnil => exact absurd hnil (splitFeeds_ne_nil cs)
  | case4 c cs hfeed first rest hcons ih =>
      rcases List.mem_cons.mp h with rfl | hrest
      · have hfirst : '\n' ∉ first := ih (hcons ▸ List.mem_cons_self)
        simp [hfirst, Ne.symm hfeed]
      · apply ih
        rw [hcons]
        apply List.mem_cons_of_mem first hrest

/-! ### Headings and quotes -/

/-- Headings and quotes are no boundaries. -/
theorem isBoundary_marked {mark : Char} (h : mark = '#' ∨ mark = '>') (cs : List Char) :
  isBoundary (mark :: cs) = false
  := by
  have hcommand : Edit.ofLine? (String.ofList (mark :: cs)) = none := by
    rw [Edit.ofLine?, String.toList_ofList]
    rcases h with rfl | rfl <;> rfl
  have hseparator : separatorTimes? (mark :: cs) = none := by
    rcases h with rfl | rfl <;> rfl
  rw [isBoundary, hseparator, Command.isCommandLine, hcommand]
  rfl

theorem isBoundary_nil :
  isBoundary [] = false
  := by decide

/-- What is trimmed makes a whole line behind a mark and a blank. -/
theorem isWhole_marked {mark : Char} (hmark : mark ≠ '\n') {cs : List Char}
    (hfeed : '\n' ∉ cs) (htrim : Text.trim cs = cs) :
  Text.IsWhole (mark :: ' ' :: cs)
  := by
  constructor
  · simp [hfeed, hmark.symm]
  · by_cases hnil : cs = []
    · simp [hnil]
    · obtain ⟨-, hlast⟩ := (Text.trim_eq_self_iff hnil).mp htrim
      rw [List.getLast?_cons_cons, List.getLast?_cons, List.getLast?_eq_some_getLast hnil]
      intro hreturn
      have hreturn := Option.some.inj hreturn
      rw [Option.getD_some] at hreturn
      rw [hreturn] at hlast
      exact absurd hlast (by decide)

namespace Gathered

/-- A heading is the title if there is none yet. -/
theorem add_heading {g : Gathered} (hparagraph : g.paragraph = []) (htitle : g.title = none)
    (number : Int) (cs : List Char) :
  g.add number ('#' :: ' ' :: cs) = { g with title := some (String.ofList (Text.trim cs)) }
  := by
  have hline : ContentLine.ofLine ('#' :: ' ' :: cs) = .heading (Text.trim cs) := rfl
  rw [add, hline]
  simp only [close_of_paragraph hparagraph, htitle]

theorem add_quote {g : Gathered} (hparagraph : g.paragraph = []) (number : Int)
    (cs : List Char) :
  g.add number ('>' :: ' ' :: cs) = { g with quotes := Text.trim cs :: g.quotes }
  := by
  have hline : ContentLine.ofLine ('>' :: ' ' :: cs) = .quote (Text.trim cs) := rfl
  rw [add, hline]
  simp only [close_of_paragraph hparagraph]

/-- Quotes are gathered one after the other, up to the line without text at the end. -/
theorem addAll_quotes {g : Gathered} (hparagraph : g.paragraph = []) {ls : List (List Char)}
    (htrim : ∀ l ∈ ls, Text.trim l = l) (number : Int) :
  g.addAll number (ls.map ('>' :: ' ' :: ·) ++ [[]]) = { g with quotes := ls.reverse ++ g.quotes }
  := by
  induction ls generalizing g number with
  | nil => exact close_of_paragraph hparagraph
  | cons l rest ih =>
      have hrest : ∀ l ∈ rest, Text.trim l = l := fun l hl => htrim l (List.mem_cons_of_mem _ hl)
      rw [List.map_cons, List.cons_append, addAll, add_quote hparagraph,
        htrim l List.mem_cons_self, ih _ hrest, List.reverse_cons, List.append_assoc]
      · rfl
      · exact hparagraph

end Gathered

/-! ### Scenes -/

/-- A scene that can be written and read back.  Its times are those of timecodes, in order and
below a hundred hours; its title is one line and its subtitle one or more, all without blanks
around them, and neither is empty. -/
structure Restorable (s : Scene) : Prop where
  start : Edit.IsTime s.start
  start_lt : s.start < Timecode.hundredHours
  stop : Edit.IsTime s.stop
  stop_lt : s.stop < Timecode.hundredHours
  start_le_stop : s.start ≤ s.stop
  title : ∀ t ∈ s.title, t ≠ "" ∧ Text.trimmed t = t ∧ '\n' ∉ t.toList
  subtitle : ∀ t ∈ s.subtitle, t ≠ "" ∧ ∀ l ∈ splitFeeds t.toList, Text.trim l = l

/-- The title of a scene, if it has one. -/
def headings (s : Scene) : List (List Char) :=
  s.title.toList.map String.toList

/-- The lines of the subtitle of a scene. -/
def quotes (s : Scene) : List (List Char) :=
  s.subtitle.toList.flatMap fun t => splitFeeds t.toList

/-- The lines that follow the separator where a scene is written. -/
def writtenLines (s : Scene) : List (List Char) :=
  s.headings.map ('#' :: ' ' :: ·) ++ s.quotes.map ('>' :: ' ' :: ·)

theorem checked_eq_self {s : Scene} (hstart : ¬ s.start < .zero) (hstop : ¬ s.stop < s.start) :
  checked s = .ok s
  := by
  rw [checked, if_neg hstart]
  simp only [if_neg hstop]
  rfl

/-- No scene starts among lines that are no boundaries. -/
theorem outcomes_eq_nil {ls : List (List Char)} (h : ∀ l ∈ ls, isBoundary l = false)
    {number : Int} :
  outcomes ls number = []
  := by
  induction ls generalizing number with
  | nil => rfl
  | cons line rest ih =>
      have hline := h line List.mem_cons_self
      have hnone : separatorTimes? line = none := by
        simpa using (Bool.or_eq_false_iff.mp hline).1
      rw [outcomes, hnone]
      apply ih fun l hl => h l (List.mem_cons_of_mem line hl)

namespace Restorable

variable {s : Scene} (h : s.Restorable)

include h

theorem trim_of_mem_headings {cs : List Char} (hcs : cs ∈ s.headings) :
  Text.trim cs = cs ∧ '\n' ∉ cs
  := by
  obtain ⟨t, ht, rfl⟩ := List.mem_map.mp hcs
  obtain ⟨-, htrim, hfeed⟩ := h.title t (Option.mem_toList.mp ht)
  refine ⟨?_, hfeed⟩
  rw [← String.toList_ofList (l := Text.trim t.toList)]
  exact congrArg String.toList htrim

theorem trim_of_mem_quotes {cs : List Char} (hcs : cs ∈ s.quotes) :
  Text.trim cs = cs ∧ '\n' ∉ cs
  := by
  obtain ⟨t, ht, hcs⟩ := List.mem_flatMap.mp hcs
  exact ⟨(h.subtitle t (Option.mem_toList.mp ht)).2 cs hcs, not_mem_splitFeeds hcs⟩

theorem toList_titleLines :
  s.titleLines.map String.toList = s.headings.map ('#' :: ' ' :: ·)
  := by
  rw [titleLines, headings]
  cases ht : s.title with
  | none => rfl
  | some t =>
      have hne : t.isEmpty = false := by simpa using (h.title t ht).1
      simp [hne]

theorem toList_subtitleLines :
  s.subtitleLines.map String.toList = s.quotes.map ('>' :: ' ' :: ·)
  := by
  rw [subtitleLines, quotes]
  cases ht : s.subtitle with
  | none => rfl
  | some t =>
      have hne : t.isEmpty = false := by simpa using (h.subtitle t ht).1
      simp [hne]

/-- The separator is read as the times of the scene. -/
theorem separator :
  ∃ line, s.separator = .ok line ∧ separatorTimes? line.toList = some (s.start, s.stop)
    ∧ Text.IsWhole line.toList
  := by
  obtain ⟨start, hstart, -, hfeed⟩ := h.start.stamp
  obtain ⟨stop, hstop, -, hfeed'⟩ := h.stop.stamp
  obtain ⟨t, ht, hscan, -⟩ := h.start.scan? h.start_lt hstart
    (" -> ".toList ++ (stop.toList ++ "] ---".toList))
  obtain ⟨t', ht', hscan', htrim⟩ := h.stop.scan? h.stop_lt hstop "] ---".toList
  have hline : ("--- [" ++ start ++ " -> " ++ stop ++ "] ---").toList = "--- [".toList
      ++ (start.toList ++ (" -> ".toList ++ (stop.toList ++ "] ---".toList))) := by simp
  refine ⟨"--- [" ++ start ++ " -> " ++ stop ++ "] ---", ?_, ?_, ?_⟩
  · rw [Scene.separator, hstart, hstop]
    rfl
  · have hopen : ∀ cs, dashes? ("--- [".toList ++ cs) = some (" [".toList ++ cs) := fun _ => rfl
    have hbracket : ∀ cs, Text.keyword? ['['] (Text.trimStart (" [".toList ++ cs)) = some cs :=
      fun _ => rfl
    have harrow : ∀ cs, Text.keyword? ['-', '>'] (Text.trimStart (" -> ".toList ++ cs))
        = some (' ' :: cs) := fun _ => rfl
    have hblank : ∀ cs, Text.trimStart (' ' :: cs) = Text.trimStart cs := fun _ => rfl
    rw [hline, separatorTimes?]
    simp only [Option.bind_eq_bind, hopen, Option.bind_some, hbracket, hscan, harrow, hblank,
      htrim, hscan', ht, ht']
    rfl
  · rw [hline]
    constructor
    · simp [hfeed, hfeed']
    · have hlast : "] ---".toList.getLast? = some '-' := rfl
      simp only [List.getLast?_append, hlast, Option.some_or]
      decide

/-- The lines that are written after the separator are whole, and no boundaries. -/
theorem of_mem_writtenLines {line : List Char} (hline : line ∈ s.writtenLines) :
  Text.IsWhole line ∧ isBoundary line = false
  := by
  rcases List.mem_append.mp hline with hheading | hquote
  · obtain ⟨cs, hcs, rfl⟩ := List.mem_map.mp hheading
    obtain ⟨htrim, hfeed⟩ := h.trim_of_mem_headings hcs
    exact ⟨isWhole_marked (by decide) hfeed htrim, isBoundary_marked (Or.inl rfl) _⟩
  · obtain ⟨cs, hcs, rfl⟩ := List.mem_map.mp hquote
    obtain ⟨htrim, hfeed⟩ := h.trim_of_mem_quotes hcs
    exact ⟨isWhole_marked (by decide) hfeed htrim, isBoundary_marked (Or.inr rfl) _⟩

/-- The title and the subtitle are gathered from the lines in which they are written. -/
theorem decompose (first : Int) :
  Scene.decompose first (s.writtenLines ++ [[]]) = (s.title, s.subtitle, [])
  := by
  have hquotes : ∀ (g : Gathered) (number : Int), g.paragraph = [] →
      g.addAll number (s.quotes.map ('>' :: ' ' :: ·) ++ [[]])
        = { g with quotes := s.quotes.reverse ++ g.quotes } :=
    fun g number hparagraph => Gathered.addAll_quotes hparagraph
      (fun l hl => (h.trim_of_mem_quotes hl).1) number
  have hgathered : Gathered.addAll {} first (s.writtenLines ++ [[]])
      = { title := s.title, quotes := s.quotes.reverse } := by
    rw [writtenLines, List.append_assoc]
    cases ht : s.title with
    | none =>
        rw [headings, ht]
        apply (hquotes {} first rfl).trans
        rw [List.append_nil]
    | some t =>
        have htrim : String.ofList (Text.trim t.toList) = t := (h.title t ht).2.1
        rw [headings, ht]
        change Gathered.addAll (Gathered.add {} first ('#' :: ' ' :: t.toList)) (first + 1)
          (s.quotes.map ('>' :: ' ' :: ·) ++ [[]]) = _
        rw [Gathered.add_heading rfl rfl, htrim]
        apply (hquotes { title := some t } (first + 1) rfl).trans
        rw [List.append_nil]
  have hsubtitle : Gathered.subtitle { title := s.title, quotes := s.quotes.reverse }
      = s.subtitle := by
    rw [Gathered.subtitle, quotes]
    cases ht : s.subtitle with
    | none => rfl
    | some t => simp [splitFeeds_ne_nil, joinLines_splitFeeds]
  rw [Scene.decompose, hgathered, Gathered.close_of_paragraph rfl]
  dsimp only
  rw [hsubtitle]
  rfl

end Restorable

/-- A scene is read back as it was written: one scene with the same times, title and subtitle
and without free text.  Neither a title nor a line of a subtitle is taken for anything else,
whatever it says. -/
theorem ofBody_render {s : Scene} (h : s.Restorable) (offset : Int) :
  ∃ text, s.render = .ok text ∧ ∃ content,
    ofBody text offset = [.ok { s with line := offset + 1, content := content, freeText := [] }]
  := by
  obtain ⟨line, hline, htimes, hwhole⟩ := h.separator
  have hrender : s.render
      = .ok (Text.unlines (line :: s.titleLines ++ s.subtitleLines ++ [""])) := by
    rw [render, hline]
    rfl
  have hlines : Text.splitLines
        (Text.unlines (line :: s.titleLines ++ s.subtitleLines ++ [""])).toList
      = line.toList :: (s.writtenLines ++ [[]]) := by
    have hwritten : (line :: s.titleLines ++ s.subtitleLines ++ [""]).map String.toList
        = line.toList :: s.writtenLines ++ [[]] := by
      rw [writtenLines, ← h.toList_titleLines, ← h.toList_subtitleLines]
      simp
    have hall : ∀ l ∈ line.toList :: s.writtenLines, Text.IsWhole l :=
      List.forall_mem_cons.mpr ⟨hwhole, fun l hl => (h.of_mem_writtenLines hl).1⟩
    have hsplit := Text.splitLines_joinLines hall []
    rw [List.append_nil] at hsplit
    rw [Text.unlines, String.toList_ofList, hwritten, hsplit]
    rfl
  have hcontent : ∀ l ∈ s.writtenLines ++ [[]], isBoundary l = false := by
    intro l hl
    rcases List.mem_append.mp hl with hwritten | hlast
    · apply (h.of_mem_writtenLines hwritten).2
    · rw [List.mem_singleton.mp hlast, isBoundary_nil]
  have hblock : ofBlock s.start s.stop (offset + 1) (s.writtenLines ++ [[]])
      = .ok { s with
          line := offset + 1
          content := String.ofList (Text.trim (Text.joinLines (s.writtenLines ++ [[]])))
          freeText := [] } := by
    have htake : (s.writtenLines ++ [[]]).takeWhile (!isBoundary ·) = s.writtenLines ++ [[]] := by
      rw [List.takeWhile_eq_self_iff]
      intro l hl
      rw [hcontent l hl]
      rfl
    rw [ofBlock, htake, h.decompose]
    apply checked_eq_self
    · apply h.start.not_lt_zero
    · apply Double.not_lt_of_le h.start_le_stop
  refine ⟨_, hrender, String.ofList (Text.trim (Text.joinLines (s.writtenLines ++ [[]]))), ?_⟩
  rw [ofBody, hlines, outcomes, htimes]
  dsimp only
  rw [hblock, outcomes_eq_nil hcontent]
  rfl

/-- A scene whose title looks like a command, and whose subtitle looks like a separator, a
heading and a quote with nothing in between.  It runs to the last millisecond before a hundred
hours. -/
def lookalike : Scene where
  start := Timecode.time ⟨0, 0, 1, 5⟩
  stop := Timecode.time ⟨99, 59, 59, 999⟩
  line := 7
  content := "Boats"
  title := some "CUT 00:00:01.000"
  subtitle := some "--- [00:00:00.000 -> 00:00:01.000] ---\n\n# Harbour\n> at dawn"
  freeText := [⟨"Boats", 8⟩]

theorem ofBody_render_lookalike :
  lookalike.Restorable ∧ ∃ text content, lookalike.render = .ok text
    ∧ ofBody text 0 = [.ok { lookalike with line := 1, content := content, freeText := [] }]
  := by
  have h : lookalike.Restorable := {
    start := ⟨⟨0, 0, 1, 5⟩, ⟨by decide, by decide, by decide, by decide⟩, rfl⟩
    start_lt := by decide +kernel
    stop := ⟨⟨99, 59, 59, 999⟩, ⟨by decide, by decide, by decide, by decide⟩, rfl⟩
    stop_lt := by decide +kernel
    start_le_stop := by decide +kernel
    title := by
      rintro _ ⟨⟩
      exact ⟨by decide, by decide +kernel, by decide +kernel⟩
    subtitle := by
      rintro _ ⟨⟩
      exact ⟨by decide, by decide +kernel⟩ }
  obtain ⟨text, htext, content, hscene⟩ := ofBody_render h 0
  exact ⟨h, text, content, htext, hscene⟩

end Scene

end Montage
