import Montage.Fault

/-!
# Segments

A `Clip` is a part of a source video, from a start to an end, with its visibility and state.
A `Segment` is a clip that has been given an id, by which a store knows it.
-/

namespace Montage

/-- What a segment is doing. -/
inductive PlayState where
  | stopped
  | playing
  | hidden
  deriving DecidableEq, Repr

namespace PlayState

/-- The name of a state. -/
def name : PlayState → String
  | stopped => "stopped"
  | playing => "playing"
  | hidden => "hidden"

/-- The state of a given name. -/
def ofName (word : String) : Except Fault PlayState :=
  match [stopped, playing, hidden].find? (·.name == word) with
  | some state => .ok state
  | none => .error (.unknownState word)

end PlayState

/-- A part of a source video. -/
structure Clip where
  start : Double
  stop : Double
  path : String
  visible : Bool := true
  state : PlayState := .stopped
  deriving DecidableEq

namespace Clip

/-- The clip itself if its times are in order: it starts at zero or later and ends after its
start. -/
def checked (c : Clip) : Except Fault Clip :=
  if c.start < .zero then .error .segmentStart
  else if c.stop ≤ c.start then .error (.segmentOrder c.stop c.start)
  else .ok c

/-- The length of a clip. -/
def duration (c : Clip) : Double :=
  c.stop - c.start

/-- Whether a time falls into a clip, both ends included. -/
def contains (c : Clip) (time : Double) : Bool :=
  c.start ≤ time && time ≤ c.stop

/-- Whether a time lies strictly between the ends of a clip. -/
def encloses (c : Clip) (time : Double) : Bool :=
  c.start < time && time < c.stop

/-- Whether a clip starts before a range ends and ends after it starts. -/
def overlaps (c : Clip) (start stop : Double) : Bool :=
  c.start < stop && start < c.stop

end Clip

/-- A clip with an id. -/
structure Segment extends Clip where
  id : Int
  deriving DecidableEq

end Montage
