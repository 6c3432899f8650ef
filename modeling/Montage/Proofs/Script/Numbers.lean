import Montage.Proofs.Command.Canonical
import Montage.Proofs.Header.Body
import Montage.Proofs.Scene.Numbers

/-!
# Line numbers of scripts

The body of a text is taken apart as a text of its own, but what is found in it is numbered by
the lines of the whole text.  As long as each carriage return belongs to a line end the body
has the same lines as the text has after its header, so these numbers are right: each command
is what its line asks for, each scene stands on its separator, and each paragraph on the line
it starts on.
-/

namespace Montage

variable {text : String} {ls : List (List Char)}

/-! ### The lines of the body -/

theorem Header.splitLines_bodyText (h : Text.ReturnsPaired text.toList) (k : Nat) :
  Text.splitLines (bodyText text k).toList
    = if (Text.splitLines text.toList).drop k = [] then [[]]
      else (Text.splitLines text.toList).drop k
  := by
  rw [toList_bodyText]
  split
  · rename_i hnil
    rw [hnil]
    rfl
  · rename_i hsome
    apply Text.splitLines_joinLines_self hsome
    intro line hline
    obtain ⟨hfeed, hreturn⟩ := h.not_mem ((List.drop_sublist k _).mem hline)
    refine ⟨hfeed, fun hlast => hreturn (List.mem_of_getLast? hlast)⟩

/-- Commands are counted by the lines they are read from. -/
theorem Command.ofLines_eq (ls : List (List Char)) (k : Nat) :
  ofLines (ls.map String.ofList) (k + 1)
    = (ls.zipIdx k).filterMap fun (line, i) => ofLine? (String.ofList line) (i + 1)
  := by
  induction ls generalizing k with
  | nil => rfl
  | cons line rest ih =>
      have hrest := ih (k + 1)
      rw [Int.natCast_add, Int.natCast_one] at hrest
      rw [List.map_cons, ofLines, hrest, List.zipIdx_cons, List.filterMap_cons]
      dsimp only
      split
      · rename_i c hc
        rw [hc]
      · rename_i hnone
        rw [hnone]

theorem Command.ofBody_bodyText (h : Text.ReturnsPaired text.toList) (k : Nat) :
  ofBody (Header.bodyText text k) k
    = (((Text.splitLines text.toList).drop k).zipIdx k).filterMap
        fun (line, i) => ofLine? (String.ofList line) (i + 1)
  := by
  rw [ofBody, Text.lines, Header.splitLines_bodyText h, ofLines_eq]
  split
  · rename_i hnil
    have hnone : Edit.ofLine? (String.ofList []) = none := by decide
    simp [hnil, ofLine?, hnone]
  · rfl

theorem Scene.ofBody_bodyText (h : Text.ReturnsPaired text.toList) (k : Nat) :
  ofBody (Header.bodyText text k) k = outcomes ((Text.splitLines text.toList).drop k) (k + 1)
  := by
  rw [ofBody, Header.splitLines_bodyText h]
  split
  · rename_i hnil
    have hnone : separatorTimes? [] = none := rfl
    simp only [hnil, outcomes, hnone]
  · rfl

/-! ### The numbers of a script -/

/-- The numbers in a script are those of the lines of a text, counted from one. -/
structure Script.Numbered (text : String) (s : Script) : Prop where
  /-- The commands are what the lines after the header ask for. -/
  commands : s.commands
    = (((Text.splitLines text.toList).drop (Header.split text).2).zipIdx
        (Header.split text).2).filterMap
          fun (line, i) => Command.ofLine? (String.ofList line) (i + 1)
  /-- Each scene stands on a separator after the header, and each of its paragraphs on a line
  of its content that is not blank. -/
  scenes : ∀ scene ∈ s.scenes, ∃ (i : Nat) (line : List Char), (Header.split text).2 ≤ i
    ∧ (Text.splitLines text.toList)[i]? = some line
    ∧ (Scene.separatorTimes? line).isSome = true ∧ scene.line = i + 1
    ∧ ∀ p ∈ scene.freeText, ∃ (j : Nat) (line : List Char),
      Scene.InContent (Text.splitLines text.toList) i j
      ∧ (Text.splitLines text.toList)[j]? = some line ∧ line.all Text.isBlank = false
      ∧ p.line = j + 1
  /-- The lines of all scenes and of their paragraphs ascend in order. -/
  ascending : (s.scenes.flatMap Scene.numbers).Pairwise (· < ·)

theorem Script.numbered_ofText (h : Text.ReturnsPaired text.toList) :
  (ofText text).Numbered text
  := by
  have hscenes : (ofText text).scenes
      = Scene.succeeded (Scene.outcomes ((Text.splitLines text.toList).drop (Header.split text).2)
          ((Header.split text).2 + 1)) := by
    rw [← Scene.ofBody_bodyText h, scenes, ofText]
  refine ⟨?_, ?_, ?_⟩
  · rw [Command.commands_ofText, Command.ofBody_bodyText h]
  · rw [hscenes]
    intro scene hscene
    obtain ⟨i, line, hline, hseparator, hnumber, hfree⟩ :=
      Scene.of_mem_outcomes (Scene.mem_succeeded.mp hscene)
    rw [List.getElem?_drop] at hline
    refine ⟨_, line, Nat.le_add_right _ i, hline, hseparator, by omega, ?_⟩
    intro p hp
    obtain ⟨j, line', hcontent, hline', hvisible, hnumber'⟩ := hfree p hp
    rw [List.getElem?_drop] at hline'
    exact ⟨_, line', hcontent.of_drop, hline', hvisible, by omega⟩
  · rw [hscenes]
    apply (Scene.numbers_outcomes _ _).1

end Montage
