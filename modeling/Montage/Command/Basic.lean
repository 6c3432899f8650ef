import Montage.Digest
import Montage.Text.Lines
import Montage.Timecode

/-!
# Edit commands

An `Edit` changes the timeline: it loads a file, cuts at a time, or hides, shows or deletes
what overlaps a range of times.  A `Command` is an edit together with the line of the
script it stands on.  `Edit.text` is its canonical text.

The canonical text of a list of commands has one line for each command and does not
mention their line numbers.  The fingerprint of the list is its digest.
-/

namespace Montage

/-- What a command does with the segments that overlap its range. -/
inductive RangeVerb where
  | hide
  | reveal
  | delete
  deriving DecidableEq, Repr

/-- The keyword of a verb. -/
def RangeVerb.keyword : RangeVerb → String
  | hide => "HIDE"
  | reveal => "SHOW"
  | delete => "DELETE"

/-- A change of the timeline. -/
inductive Edit where
  /-- Start over with the whole of a file. -/
  | load (path : String)
  /-- Part the segment that holds a time. -/
  | cut (time : Double)
  /-- Hide, show or delete the segments that overlap a range. -/
  | range (verb : RangeVerb) (start stop : Double)
  deriving DecidableEq

namespace Edit

/-- The canonical text of an edit.  There is none if one of its times is not finite. -/
def text : Edit → Except Fault String
  | load path => .ok ("LOAD " ++ path)
  | cut time => return "CUT " ++ (← Timecode.stamp time)
  | range verb start stop => do
    let s ← Timecode.stamp start
    let e ← Timecode.stamp stop
    return verb.keyword ++ " " ++ s ++ " " ++ e

end Edit

/-- An edit, and the number of the line it stands on. -/
structure Command where
  edit : Edit
  line : Int
  deriving DecidableEq

namespace Command

/-- The canonical text of a command does not mention its line. -/
def text (c : Command) : Except Fault String :=
  c.edit.text

/-- The canonical text of a list of commands. -/
def canonical (cs : List Command) : Except Fault String :=
  Text.unlines <$> cs.mapM text

/-- The fingerprint of a list of commands. -/
def fingerprint (cs : List Command) : Except Fault String :=
  Digest.ofText <$> canonical cs

end Command

end Montage
