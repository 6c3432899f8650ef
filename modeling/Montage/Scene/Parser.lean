import Montage.Command.Parser
import Montage.Scene.Content

/-!
# Reading scenes

A scene starts at a separator line, `--- [start -> end] ---` with three or more dashes on
both sides, and its content runs up to the next boundary: another separator or a command.
A separator whose times are out of order opens no scene, and is reported.
-/

namespace Montage.Scene

/-- Three or more dashes at the front passed over. -/
def dashes? (cs : List Char) : Option (List Char) :=
  if 3 ≤ (cs.takeWhile (· == '-')).length then some (cs.dropWhile (· == '-')) else none

/-- The times on a separator line. -/
def separatorTimes? (line : List Char) : Option (Double × Double) := do
  let cs ← dashes? line
  let cs ← Text.keyword? ['['] (Text.trimStart cs)
  let (start, cs) ← Timecode.scan? cs
  let cs ← Text.keyword? ['-', '>'] (Text.trimStart cs)
  let (stop, cs) ← Timecode.scan? (Text.trimStart cs)
  let cs ← Text.keyword? [']'] cs
  let cs ← dashes? (Text.trimStart cs)
  guard cs.isEmpty
  return (start.time, stop.time)

/-- Whether a line ends the content of a scene. -/
def isBoundary (line : List Char) : Bool :=
  (separatorTimes? line).isSome || Command.isCommandLine (String.ofList line)

/-- The scene that a separator on a given line opens, from the lines after it. -/
def ofBlock (start stop : Double) (line : Int) (after : List (List Char)) :
    Except Fault Scene :=
  let content := after.takeWhile (!isBoundary ·)
  let (title, subtitle, freeText) := decompose (line + 1) content
  checked {
    start, stop, line, title, subtitle, freeText
    content := String.ofList (Text.trim (Text.joinLines content)) }

/-- What became of a separator: a scene, or the fault that prevented it on a line. -/
abbrev Outcome := Except (Int × Fault) Scene

/-- The outcomes of all separators among lines that are numbered from `number` on. -/
def outcomes : List (List Char) → Int → List Outcome
  | [], _ => []
  | line :: rest, number =>
    match separatorTimes? line with
    | some (start, stop) =>
      (ofBlock start stop number rest).mapError ((number, ·)) :: outcomes rest (number + 1)
    | none => outcomes rest (number + 1)

/-- The scenes among outcomes. -/
def succeeded (os : List Outcome) : List Scene :=
  os.filterMap (·.toOption)

/-- The faults among outcomes, each with its line. -/
def failed (os : List Outcome) : List (Int × Fault) :=
  os.filterMap fun
    | .ok _ => none
    | .error skipped => some skipped

/-- The report of a separator that opens no scene because of a fault. -/
def skippedLine (line : Int) (fault : Fault) : Except Fault String :=
  return "[scenes] Skipped block at line " ++ (← Text.writeInteger line) ++ ": "
    ++ fault.message

/-- The reports of all faults among outcomes. -/
def skipped (os : List Outcome) : Except Fault (List String) :=
  (failed os).mapM fun (line, fault) => skippedLine line fault

/-- The outcomes of all separators of a body of which `offset` lines of the document come
before. -/
def ofBody (body : String) (offset : Int) : List Outcome :=
  outcomes (Text.splitLines body.toList) (offset + 1)

end Montage.Scene
