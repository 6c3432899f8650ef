import Montage.Command.Basic
import Montage.Text.Upper

/-!
# Picking a range

A range of times is picked by two presses.  The first one sets a pivot, the second one
confirms the range between the pivot and the time of the press, whichever comes first.
`commandLine` turns a range into a line of a script.
-/

namespace Montage

/-- The state between presses. -/
structure RangePicker where
  /-- The time of the first press, while the second is awaited. -/
  pivot : Option Double := none
  deriving DecidableEq

namespace RangePicker

/-- Whether the second press is awaited. -/
def isRecording (p : RangePicker) : Bool :=
  p.pivot.isSome

/-- The range between two times. -/
def between (a b : Double) : Double × Double :=
  (Double.least a b, Double.greatest a b)

/-- The range that a second press at a time would confirm. -/
def preview (p : RangePicker) (time : Double) : Option (Double × Double) :=
  p.pivot.map (between · time)

/-- Confirms the range between the pivot and a time.  Without a pivot the range is empty. -/
def confirm (p : RangePicker) (time : Double) : RangePicker × (Double × Double) :=
  match p.pivot with
  | none => (p, (time, time))
  | some pivot => ({ p with pivot := none }, between pivot time)

/-- A press at a time: the first one sets the pivot, the second one confirms a range. -/
def press (p : RangePicker) (time : Double) : RangePicker × Option (Double × Double) :=
  match p.pivot with
  | none => ({ p with pivot := some time }, none)
  | some _ =>
    let (p, range) := p.confirm time
    (p, some range)

/-- Gives up the pivot. -/
def cancel (p : RangePicker) : RangePicker :=
  { p with pivot := none }

/-- The verb of a keyword in any letter case. -/
def verbOf (keyword : String) : Except Fault RangeVerb :=
  let word := Text.upper keyword
  match [RangeVerb.hide, .reveal, .delete].find? (·.keyword == word) with
  | some verb => .ok verb
  | none => .error (.notARangeKeyword word)

/-- The line that applies a verb, given by its keyword, to a range. -/
def commandLine (keyword : String) (start stop : Double) : Except Fault String := do
  let verb ← verbOf keyword
  (Edit.range verb start stop).text

end RangePicker

end Montage
