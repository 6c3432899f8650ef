import Montage.Command.Basic

/-!
# Reading commands

A command takes one line.  LOAD is recognised in any letter case and takes the rest of the
line as its path; the other keywords are written in capitals and take one or two timecodes.
Blanks around a command do not matter.  A line that is no command is skipped.
-/

namespace Montage

namespace Edit

/-- A path without the double quotes around it, if it has both. -/
def unquoted (cs : List Char) : List Char :=
  match cs with
  | '"' :: rest =>
    if rest.getLast? = some '"' then rest.dropLast else cs
  | _ => cs

/-- The path that follows the keyword of a LOAD.  It is set apart by a blank and runs to the
last character that is not blank.  If all that follows is blank, the last character after
the first that is no line feed is the path. -/
def pathAfter? (cs : List Char) : Option (List Char) :=
  match Text.afterBlanks? cs with
  | none => none
  | some [] => ((cs.drop 1).filter (· ≠ '\n')).getLast?.map ([·])
  | some rest =>
    let path := Text.trimEnd rest
    if path.contains '\n' then none else some path

/-- A LOAD line. -/
def load? (cs : List Char) : Option Edit := do
  let rest ← Text.looseKeyword? "LOAD".toList (Text.trimStart cs)
  let path ← pathAfter? rest
  return load (String.ofList (unquoted path))

/-- A timecode that is set apart by a blank, and what follows it. -/
def timeAfter? (cs : List Char) : Option (Double × List Char) := do
  let rest ← Text.afterBlanks? cs
  let (t, rest) ← Timecode.scan? rest
  return (t.time, rest)

/-- A CUT line. -/
def cut? (cs : List Char) : Option Edit := do
  let rest ← Text.keyword? "CUT".toList (Text.trimStart cs)
  let (time, rest) ← timeAfter? rest
  guard (rest.all Text.isBlank)
  return cut time

/-- A line that applies a verb to a range. -/
def range? (verb : RangeVerb) (cs : List Char) : Option Edit := do
  let rest ← Text.keyword? verb.keyword.toList (Text.trimStart cs)
  let (start, rest) ← timeAfter? rest
  let (stop, rest) ← timeAfter? rest
  guard (rest.all Text.isBlank)
  return range verb start stop

/-- The edit that a line asks for. -/
def ofLine? (line : String) : Option Edit :=
  let cs := line.toList
  load? cs <|> cut? cs <|> range? .hide cs <|> range? .reveal cs <|> range? .delete cs

end Edit

namespace Command

/-- The command on a line of a given number. -/
def ofLine? (line : String) (number : Int) : Option Command :=
  (Edit.ofLine? line).map (⟨·, number⟩)

/-- Whether a line is a command. -/
def isCommandLine (line : String) : Bool :=
  (Edit.ofLine? line).isSome

/-- The commands among lines that are numbered from `first` on. -/
def ofLines : List String → Int → List Command
  | [], _ => []
  | line :: rest, first =>
    match ofLine? line first with
    | some c => c :: ofLines rest (first + 1)
    | none => ofLines rest (first + 1)

/-- The commands of a body of which `offset` lines of the document come before. -/
def ofBody (body : String) (offset : Int) : List Command :=
  ofLines (Text.lines body) (offset + 1)

end Command

end Montage
