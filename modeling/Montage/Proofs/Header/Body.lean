import Mathlib.Data.List.Induction
import Mathlib.Data.List.TakeDrop
import Montage.Command.Parser
import Montage.Header.Basic
import Montage.Proofs.Text.Lines
import Montage.Scene.Parser

/-!
# The lines of a body

The lines after a header are joined by line feeds to make a body, and the body is cut into lines
once more.  A line that ends with a carriage return comes to stand before a line feed there, and
the two are one line end; so such a line is a carriage return short where it is read, unless it
is the last one.  All other lines are read as they were counted, and there are as many of them.
A text in which no line end follows a carriage return has no such line.
-/

namespace Montage

namespace Text

/-! ### Cutting once more -/

/-- A line without a carriage return at its end. -/
def shorn (line : List Char) : List Char :=
  if line.getLast? = some '\r' then line.dropLast else line

/-- Lines as they are cut out of the text that they make up. -/
def recut (ls : List (List Char)) : List (List Char) :=
  ls.dropLast.map shorn ++ ls.getLast?.toList

variable {line front cs : List Char} {ls : List (List Char)}

theorem shorn_eq_self_iff :
  shorn line = line ↔ line.getLast? ≠ some '\r'
  := by
  rw [shorn]
  split
  · rename_i hlast
    refine iff_of_false (fun hself => ?_) (not_not_intro hlast)
    have hnil : line ≠ [] := by
      rintro rfl
      cases hlast
    have hlength := congrArg List.length hself
    have hpos := List.length_pos_iff.mpr hnil
    rw [List.length_dropLast] at hlength
    omega
  · rename_i hlast
    exact iff_of_true rfl hlast

theorem length_recut (ls : List (List Char)) :
  (recut ls).length = ls.length
  := by
  cases ls using List.reverseRecOn <;> simp [recut]

/-- Lines are cut out as they were if a carriage return ends none but the last. -/
theorem recut_eq_self_iff :
  recut ls = ls ↔ ∀ line ∈ ls.dropLast, line.getLast? ≠ some '\r'
  := by
  have hparts : ls = ls.dropLast ++ ls.getLast?.toList := by
    cases ls using List.reverseRecOn <;> simp
  calc recut ls = ls
      ↔ ls.dropLast.map shorn ++ ls.getLast?.toList = ls.dropLast ++ ls.getLast?.toList := by
        rw [← hparts, recut]
    _ ↔ ls.dropLast.map shorn = ls.dropLast.map id := by
        rw [List.append_left_inj, List.map_id]
    _ ↔ ∀ line ∈ ls.dropLast, shorn line = line := List.map_inj_left
    _ ↔ ∀ line ∈ ls.dropLast, line.getLast? ≠ some '\r' := by
        simp only [shorn_eq_self_iff]

/-- A character that is part of no line end belongs to the first line. -/
theorem splitLines_cons {c : Char} (hc : c ≠ '\n') (hpair : c = '\r' → cs.head? ≠ some '\n') :
  splitLines (c :: cs) = (splitLines cs).modifyHead (c :: ·)
  := by
  rw [splitLines]
  · split
    · rename_i hnil
      exact absurd hnil (splitLines_ne_nil cs)
    · rename_i hcons
      rw [hcons, List.modifyHead_cons]
  · rintro more rfl rfl
    exact hpair rfl rfl
  · exact hc

/-- What stands before the first line feed belongs to the first line, up to a carriage return
right before the line feed. -/
theorem splitLines_append_front (hfeed : '\n' ∉ front)
    (hpair : front.getLast? = some '\r' → cs.head? ≠ some '\n') :
  splitLines (front ++ cs) = (splitLines cs).modifyHead (front ++ ·)
  := by
  induction front with
  | nil => exact (congrFun List.modifyHead_id _).symm
  | cons c more ih =>
      have hmore : more.getLast? = some '\r' → cs.head? ≠ some '\n' := by
        intro hlast
        apply hpair
        rw [List.getLast?_cons, hlast, Option.getD_some]
      have hc : c = '\r' → (more ++ cs).head? ≠ some '\n' := by
        rintro rfl
        cases more with
        | nil => exact hpair rfl
        | cons b rest =>
            rintro hhead
            obtain rfl := Option.some.inj hhead
            exact hfeed (List.mem_cons_of_mem _ List.mem_cons_self)
      have hne : c ≠ '\n' := by
        rintro rfl
        exact hfeed List.mem_cons_self
      rw [List.cons_append, splitLines_cons hne hc,
        ih (fun hmem => hfeed (List.mem_cons_of_mem c hmem)) hmore, List.modifyHead_modifyHead]
      rfl

/-- A line is cut out in front of a line feed, without a carriage return at its end. -/
theorem splitLines_append_feed (hfeed : '\n' ∉ line) (rest : List Char) :
  splitLines (line ++ '\n' :: rest) = shorn line :: splitLines rest
  := by
  rw [shorn]
  split
  · rename_i hlast
    obtain ⟨front, rfl⟩ := List.getLast?_eq_some_iff.mp hlast
    have hfront : '\n' ∉ front := fun hmem => hfeed (List.mem_append_left _ hmem)
    have hpair : front.getLast? = some '\r' → ('\r' :: '\n' :: rest).head? ≠ some '\n' := by
      simp
    rw [List.append_assoc, List.singleton_append, splitLines_append_front hfront hpair,
      List.dropLast_concat, splitLines, List.modifyHead_cons, List.append_nil]
  · rename_i hlast
    exact splitLines_append ⟨hfeed, hlast⟩ rest

/-- Lines that are joined by line feeds are cut out as `recut` says. -/
theorem splitLines_joinLines_recut (hnil : ls ≠ []) (h : ∀ line ∈ ls, '\n' ∉ line) :
  splitLines (joinLines ls) = recut ls
  := by
  induction ls with
  | nil => exact absurd rfl hnil
  | cons line more ih =>
      have hline := h line List.mem_cons_self
      rw [joinLines_cons]
      split
      · rename_i hlast
        subst hlast
        exact splitLines_of_not_mem hline
      · rename_i hsome
        rw [splitLines_append_feed hline,
          ih hsome fun l hl => h l (List.mem_cons_of_mem line hl), recut, recut,
          List.dropLast_cons_of_ne_nil hsome, List.getLast?_cons_of_ne_nil hsome]
        rfl

/-! ### Carriage returns before line ends -/

/-- A text starts with a line end exactly if its first line is empty and not the last one. -/
theorem startsWithEnd_iff {first : List Char} {rest : List (List Char)}
    (h : splitLines cs = first :: rest) :
  (cs.head? = some '\n' ∨ ['\r', '\n'] <+: cs) ↔ first = [] ∧ rest ≠ []
  := by
  fun_induction splitLines cs generalizing first rest with
  | case1 =>
      obtain ⟨rfl, rfl⟩ := List.cons.inj h
      simp
  | case2 more | case3 more =>
      obtain ⟨rfl, rfl⟩ := List.cons.inj h
      simp [splitLines_ne_nil]
  | case4 c more _ _ hnil => exact absurd hnil (splitLines_ne_nil more)
  | case5 c more hpair hfeed line rest' hcons =>
      obtain ⟨rfl, rfl⟩ := List.cons.inj h
      have hreturn : ¬ ['\r', '\n'] <+: c :: more := by
        rintro ⟨after, hafter⟩
        obtain ⟨rfl, rfl⟩ := List.cons.inj hafter
        exact hpair after rfl rfl
      have hne : c ≠ '\n' := hfeed
      simp [hne, hreturn]

/-- A line but the last ends with a carriage return exactly if one stands before a line end. -/
theorem exists_returned_iff :
  (∃ line ∈ (splitLines cs).dropLast, line.getLast? = some '\r') ↔ ['\r', '\r', '\n'] <:+: cs
  := by
  fun_induction splitLines cs with
  | case1 => simp
  | case2 cs ih | case3 cs ih =>
      rw [List.dropLast_cons_of_ne_nil (splitLines_ne_nil cs)]
      simp [List.infix_cons_iff, ih]
  | case4 c cs _ _ hnil => exact absurd hnil (splitLines_ne_nil cs)
  | case5 c cs hpair hfeed first rest hcons ih =>
      have hstart := startsWithEnd_iff hcons
      have hnone : c = '\r' → cs.head? ≠ some '\n' := by
        rintro rfl hhead
        obtain ⟨more, rfl⟩ := List.head?_eq_some_iff.mp hhead
        exact hpair more rfl rfl
      -- A carriage return ends the line that it starts if nothing else of that line follows.
      have hprefix : ['\r', '\r', '\n'] <+: c :: cs ↔ c = '\r' ∧ first = [] ∧ rest ≠ [] := by
        rw [List.cons_prefix_cons, ← hstart, eq_comm]
        exact and_congr_right fun hc => (or_iff_right (hnone hc)).symm
      rw [List.infix_cons_iff, hprefix, ← ih, hcons]
      by_cases hrest : rest = []
      · simp [hrest]
      · rw [List.dropLast_cons_of_ne_nil hrest, List.dropLast_cons_of_ne_nil hrest]
        cases first <;> simp [hrest]

end Text

namespace Header

open Text (splitLines recut)

variable {text : String} {k : Nat}

/-! ### Bodies -/

theorem toList_bodyText (text : String) (k : Nat) :
  (bodyText text k).toList = Text.joinLines ((splitLines text.toList).drop k)
  := by
  rw [bodyText, String.toList_ofList, if_neg (by omega), Int.toNat_natCast]

theorem splitLines_body (hk : k < (splitLines text.toList).length) :
  splitLines (bodyText text k).toList = recut ((splitLines text.toList).drop k)
  := by
  rw [toList_bodyText]
  apply Text.splitLines_joinLines_recut
  · rw [Ne, List.drop_eq_nil_iff]
    omega
  · intro line hline
    exact Text.not_mem_of_mem_splitLines (List.mem_of_mem_drop hline)

/-- How the lines of a text from an index on are read where they make up a body. -/
structure Reread (text : String) (k : Nat) : Prop where
  /-- A carriage return at the end of a line is lost, unless the line is the last one. -/
  lines : splitLines (bodyText text k).toList = recut ((splitLines text.toList).drop k)
  /-- There are as many lines as were counted. -/
  count : (splitLines (bodyText text k).toList).length + k = (splitLines text.toList).length
  /-- They are the lines that were counted exactly if no carriage return is lost. -/
  exact_iff : splitLines (bodyText text k).toList = (splitLines text.toList).drop k
    ↔ ∀ line ∈ ((splitLines text.toList).drop k).dropLast, line.getLast? ≠ some '\r'
  /-- They are what commands are read from. -/
  commands : Command.ofBody (bodyText text k) k
    = Command.ofLines ((recut ((splitLines text.toList).drop k)).map String.ofList) (k + 1)
  /-- They are what scenes are read from. -/
  scenes : Scene.ofBody (bodyText text k) k
    = Scene.outcomes (recut ((splitLines text.toList).drop k)) (k + 1)

theorem reread (hk : k < (splitLines text.toList).length) :
  Reread text k
  := by
  have hlines := splitLines_body hk
  constructor
  case lines => exact hlines
  case count =>
      rw [hlines, Text.length_recut, List.length_drop]
      omega
  case exact_iff => rw [hlines, Text.recut_eq_self_iff]
  case commands => rw [Command.ofBody, Text.lines, hlines]
  case scenes => rw [Scene.ofBody, hlines]

/-- All bodies of a text are read line by line as they were counted exactly if the whole of it
is. -/
theorem forall_exact_iff (text : String) :
  (∀ k < (splitLines text.toList).length,
      splitLines (bodyText text k).toList = (splitLines text.toList).drop k)
    ↔ ∀ line ∈ (splitLines text.toList).dropLast, line.getLast? ≠ some '\r'
  := by
  constructor
  · intro h
    have hpos := List.length_pos_iff.mpr (Text.splitLines_ne_nil text.toList)
    simpa using (reread hpos).exact_iff.mp (h 0 hpos)
  · intro h k hk
    apply (reread hk).exact_iff.mpr
    intro line hline
    rw [List.dropLast_drop_eq_drop_dropLast] at hline
    exact h line (List.mem_of_mem_drop hline)

/-- The body is read line by line as it was counted but for the carriage returns in front of line
ends.  Where a text has none of them, this is so for each of its bodies without exception; where
it has one, it is not. -/
theorem body_recut (hk : k < (splitLines text.toList).length) :
  Reread text k
    ∧ ((∀ k < (splitLines text.toList).length,
          splitLines (bodyText text k).toList = (splitLines text.toList).drop k)
        ↔ ¬ ['\r', '\r', '\n'] <:+: text.toList)
  := by
  refine ⟨reread hk, ?_⟩
  rw [forall_exact_iff, ← Text.exists_returned_iff]
  push Not
  rfl

/-- The first line after the header is a carriage return short, and the last is not. -/
theorem body_recut_mixed :
  1 < (splitLines "===\r\na\r\r\nb\r".toList).length
    ∧ Reread "===\r\na\r\r\nb\r" 1
    ∧ (splitLines "===\r\na\r\r\nb\r".toList).drop 1 = ["a\r".toList, "b\r".toList]
    ∧ splitLines (bodyText "===\r\na\r\r\nb\r" 1).toList = ["a".toList, "b\r".toList]
  := by
  have hk : 1 < (splitLines "===\r\na\r\r\nb\r".toList).length := by decide
  exact ⟨hk, (body_recut hk).1, by decide, by decide⟩

/-- A line that is no separator is read as one, without the carriage return at its end. -/
theorem return_lost :
  (¬ ∀ (text : String) (k : Nat), k < (splitLines text.toList).length →
      splitLines (bodyText text k).toList = (splitLines text.toList).drop k)
    ∧ Scene.outcomes
        (splitLines "--- [00:00:00.000 -> 00:00:01.000] ---\r\r\na".toList) 1 = []
    ∧ (Scene.succeeded (Scene.ofBody
        (bodyText "--- [00:00:00.000 -> 00:00:01.000] ---\r\r\na" 0) 0)).map Scene.content = ["a"]
  := by
  refine ⟨fun h => ?_, by decide +kernel, by decide +kernel⟩
  have hlines := h "a\r\r\nb" 0 (by decide)
  revert hlines
  decide

end Header

end Montage
