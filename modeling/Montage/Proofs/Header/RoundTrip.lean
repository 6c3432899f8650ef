import Montage.Proofs.Header.Directive

/-!
# Headers that are read back

The header of a configuration consists of a line for each directive and a separator.  Each line
sets the value that it was written from, whatever the other lines are, and none of them ends the
header early; so the configuration is brought back from its header, and what stands after the
header is its body.
-/

namespace Montage

/-- The value of a directive in a configuration. -/
def Directive.valueIn (c : Config) : Directive → Value
  | project => .text c.projectName
  | resolution => .sides c.width c.height
  | frameRate => .count c.frameRate
  | font => .text c.font
  | fontSize => .count c.fontSize
  | titleColor => .text c.titleColor
  | subtitleColor => .text c.subtitleColor
  | backgroundAlpha => .fraction c.backgroundAlpha
  | titleX => .fraction c.titleX
  | titleY => .fraction c.titleY
  | subtitleY => .fraction c.subtitleY
  | titleFontSize => .count c.titleFontSize
  | subtitleFontSize => .count c.subtitleFontSize
  | freeTextColor => .text c.freeTextColor

/-- The configurations that a header can bring back. -/
structure Config.Restorable (c : Config) : Prop where
  names : ∀ s ∈ [c.projectName, c.font], IsName s
  counts : ∀ n ∈ [c.width, c.height, c.frameRate, c.fontSize, c.titleFontSize,
    c.subtitleFontSize], IsCount n
  colors : ∀ s ∈ [c.titleColor, c.subtitleColor, c.freeTextColor], IsColor s
  fractions : ∀ x ∈ [c.backgroundAlpha, c.titleX, c.titleY, c.subtitleY], IsFraction x

namespace Header

open Directive (valueIn)

/-! ### The lines of a header -/

/-- Every value of a configuration is read back from its text. -/
theorem reads_renderValue {c : Config} (h : c.Restorable) (d : Directive) :
  d.kind.Reads (renderValue c d).toList (d.valueIn c)
  := by
  cases d with
  | project | font => exact Directive.reads_name (h.names _ (by simp))
  | resolution => exact Directive.reads_sides (h.counts _ (by simp)) (h.counts _ (by simp))
  | frameRate | fontSize | titleFontSize | subtitleFontSize =>
      exact Directive.reads_count (h.counts _ (by simp))
  | titleColor | subtitleColor | freeTextColor =>
      exact Directive.reads_color (s := renderValue c _) (h.colors _ (by simp [renderValue]))
  | backgroundAlpha | titleX | titleY | subtitleY =>
      exact Directive.reads_fraction (h.fractions _ (by simp))

theorem toList_renderLine (c : Config) (d : Directive) :
  (renderLine c d).toList = d.line (renderValue c d).toList
  := by
  rw [renderLine, String.toList_append, String.toList_append, List.append_assoc]
  rfl

/-- The lines of the directives for a configuration. -/
def directiveLines (c : Config) : List (List Char) :=
  Directive.all.map fun d => d.line (renderValue c d).toList

theorem toList_render (c : Config) :
  (render c).toList = Text.joinLines (directiveLines c ++ ["===".toList] ++ [[]])
  := by
  rw [render, Text.unlines, String.toList_ofList, List.map_append, List.map_map,
    List.append_assoc, directiveLines]
  simp only [Function.comp_def, toList_renderLine]
  rfl

/-- The values that are written for a configuration are read as those of another one. -/
def ReadsAs (c c' : Config) : Prop :=
  ∀ d : Directive, d.kind.Reads (renderValue c d).toList (d.valueIn c')

theorem isWhole_of_mem {c c' : Config} (h : ReadsAs c c') :
  ∀ l ∈ directiveLines c ++ ["===".toList], Text.IsWhole l
  := by
  intro l hl
  rcases List.mem_append.mp hl with hl | hl
  · obtain ⟨d, -, rfl⟩ := List.mem_map.mp hl
    apply Directive.isWhole_line (h d)
  · obtain rfl := List.mem_singleton.mp hl
    exact ⟨by decide, by decide⟩

/-- The lines of a header are brought back together with those of the text after it. -/
theorem splitLines_of_readsAs {c c' : Config} (h : ReadsAs c c') (b : String) :
  Text.splitLines (render c ++ b).toList
    = directiveLines c ++ ["===".toList] ++ Text.splitLines b.toList
  := by
  rw [String.toList_append, toList_render, Text.splitLines_joinLines (isWhole_of_mem h)]

theorem splitLines_render {c : Config} (h : c.Restorable) (b : String) :
  Text.splitLines (render c ++ b).toList
    = directiveLines c ++ ["===".toList] ++ Text.splitLines b.toList
  := splitLines_of_readsAs (reads_renderValue h) b

/-! ### Reading the lines -/

/-- Lines that are no separators are applied in order. -/
theorem splitFrom_append (c : Config) (before : Nat) {ls : List (List Char)}
    (h : ∀ l ∈ ls, isSeparator l = false) (rest : List (List Char)) :
  splitFrom c before (ls ++ rest)
    = splitFrom (ls.foldl (fun c l => Directive.apply l c) c) (before + ls.length) rest
  := by
  induction ls generalizing c before with
  | nil => rfl
  | cons l more ih =>
      have hl : ¬ isSeparator l = true := by simp [h l List.mem_cons_self]
      have hmore : ∀ l ∈ more, isSeparator l = false :=
        fun b hb => h b (List.mem_cons_of_mem l hb)
      rw [List.cons_append, splitFrom, if_neg hl, ih _ _ hmore, List.foldl_cons,
        List.length_cons, Nat.add_right_comm, Nat.add_assoc]

/-- The values of a configuration make it up, whatever it starts from. -/
theorem foldl_set (c c₀ : Config) :
  Directive.all.foldl (fun c' d => d.set (d.valueIn c) c') c₀ = c
  := by
  simp only [Directive.all, List.foldl_cons, List.foldl_nil, Directive.set, valueIn]

theorem foldl_of_readsAs {c c' : Config} (h : ReadsAs c c') (c₀ : Config) :
  (directiveLines c).foldl (fun c' l => Directive.apply l c') c₀ = c'
  := by
  rw [directiveLines, List.foldl_map]
  simp only [Directive.apply_line (h _)]
  apply foldl_set

theorem foldl_directiveLines {c : Config} (h : c.Restorable) (c₀ : Config) :
  (directiveLines c).foldl (fun c' l => Directive.apply l c') c₀ = c
  := foldl_of_readsAs (reads_renderValue h) c₀

theorem isSeparator_of_mem {c : Config} {l : List Char} (hl : l ∈ directiveLines c) :
  isSeparator l = false
  := by
  obtain ⟨d, -, rfl⟩ := List.mem_map.mp hl
  apply Directive.isSeparator_line

/-- What is written for a configuration and read as another one leads to that one. -/
theorem split_of_readsAs {c c' : Config} (h : ReadsAs c c') (b : String) :
  split (render c ++ b) = (c', 15)
  := by
  rw [split, splitLines_of_readsAs h, List.append_assoc,
    splitFrom_append _ _ fun l hl => isSeparator_of_mem hl, foldl_of_readsAs h]
  rfl

/-- A configuration is read back from its header, and the body is what stands after it. -/
theorem split_render {c : Config} (h : c.Restorable) (b : String) :
  split (render c ++ b) = (c, 15)
    ∧ bodyText (render c ++ b) 15 = Text.unlines (Text.lines b)
  := by
  have hseparators : ∀ l ∈ directiveLines c, isSeparator l = false := by
    intro l hl
    obtain ⟨d, -, rfl⟩ := List.mem_map.mp hl
    apply Directive.isSeparator_line
  constructor
  · rw [split, splitLines_render h, List.append_assoc, splitFrom_append _ _ hseparators,
      foldl_directiveLines h]
    rfl
  · have hlines : ((Text.lines b).map String.toList) = Text.splitLines b.toList := by
      simp [Text.lines, Function.comp_def]
    rw [bodyText, splitLines_render h, Text.unlines, hlines]
    rfl

/-- Names with quotes, blanks and carriage returns, and fractions at the ends of their range. -/
def unusual : Config :=
  { projectName := " \"\r\" ", font := "\"", width := 1, fontSize := 10 ^ 4299,
    titleColor := "#0A9F00", backgroundAlpha := Double.quotient 0 10000,
    titleX := Double.quotient 1 10000, titleY := Double.quotient 9990 10000,
    subtitleY := Double.quotient 10000 10000 }

theorem split_render_unusual :
  unusual.Restorable
    ∧ split (render unusual ++ "one\r\n===\n\rtwo\n") = (unusual, 15)
    ∧ bodyText (render unusual ++ "one\r\n===\n\rtwo\n") 15 = "one\n===\n\rtwo\n"
  := by
  have hrestorable : unusual.Restorable := by
    refine ⟨by decide, by decide +kernel, ?_, ?_⟩
    · intro s hs
      simp only [unusual, List.mem_cons, List.not_mem_nil, or_false] at hs
      rcases hs with rfl | rfl | rfl
      · exact ⟨['0', 'A', '9', 'F', '0', '0'], by decide, by decide, by simp⟩
      · exact ⟨['F', 'F', 'F', 'F', 'F', 'F'], by decide, by decide, by simp⟩
      · exact ⟨['F', 'F', 'F', 'F', 'F', 'F'], by decide, by decide, by simp⟩
    · intro x hx
      simp only [unusual, List.mem_cons, List.not_mem_nil, or_false] at hx
      rcases hx with hx | hx | hx | hx
      · exact ⟨0, by decide, hx⟩
      · exact ⟨1, by decide, hx⟩
      · exact ⟨9990, by decide, hx⟩
      · exact ⟨10000, by decide, hx⟩
  obtain ⟨hsplit, hbody⟩ := split_render hrestorable "one\r\n===\n\rtwo\n"
  have hlines : Text.unlines (Text.lines "one\r\n===\n\rtwo\n") = "one\n===\n\rtwo\n" := by
    decide
  exact ⟨hrestorable, hsplit, hbody.trans hlines⟩

end Header

end Montage
