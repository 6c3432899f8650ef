import Montage.Timecode
import Montage.Text.Lines

/-!
# Scenes

A scene is a stretch of time with the text that belongs to it: a title, a subtitle of one
or more lines, and paragraphs of free text.  `Scene.render` writes its separator line, its
title and its subtitle.
-/

namespace Montage

/-- A paragraph of free text and the line it starts on. -/
structure Paragraph where
  text : String
  line : Int
  deriving DecidableEq

/-- A stretch of time with its text. -/
structure Scene where
  start : Double
  stop : Double
  /-- The line of the separator that opens the scene. -/
  line : Int
  /-- The text between the separator and the next boundary. -/
  content : String
  title : Option String := none
  subtitle : Option String := none
  freeText : List Paragraph := []
  deriving DecidableEq

namespace Scene

/-- The scene itself if its times are in order: it starts at zero or later and does not end
before it starts. -/
def checked (s : Scene) : Except Fault Scene := do
  if s.start < .zero then throw .sceneStart
  if s.stop < s.start then
    let stop ← Timecode.stamp s.stop
    let start ← Timecode.stamp s.start
    throw (.sceneOrder stop start)
  return s

/-- The length of a scene. -/
def duration (s : Scene) : Double :=
  s.stop - s.start

/-- Whether a time falls into a scene, both ends included. -/
def contains (s : Scene) (time : Double) : Bool :=
  s.start ≤ time && time ≤ s.stop

/-- Whether a scene starts before a range ends and ends after it starts. -/
def overlaps (s : Scene) (start stop : Double) : Bool :=
  s.start < stop && start < s.stop

/-- The first scene that contains a time. -/
def at? (scenes : List Scene) (time : Double) : Option Scene :=
  scenes.find? (·.contains time)

/-- A text cut at each line feed. -/
def splitFeeds : List Char → List (List Char)
  | [] => [[]]
  | c :: cs =>
    if c = '\n' then [] :: splitFeeds cs
    else
      match splitFeeds cs with
      | [] => [[c]]
      | line :: rest => (c :: line) :: rest

/-- The separator line of a scene. -/
def separator (s : Scene) : Except Fault String := do
  let start ← Timecode.stamp s.start
  let stop ← Timecode.stamp s.stop
  return "--- [" ++ start ++ " -> " ++ stop ++ "] ---"

/-- The line of a title; an empty title has none. -/
def titleLines (s : Scene) : List String :=
  match s.title with
  | some title => if title.isEmpty then [] else ["# " ++ title]
  | none => []

/-- The lines of a subtitle; an empty subtitle has none. -/
def subtitleLines (s : Scene) : List String :=
  match s.subtitle with
  | some subtitle =>
    if subtitle.isEmpty then []
    else (splitFeeds subtitle.toList).map fun l => "> " ++ String.ofList l
  | none => []

/-- The separator, the title and the subtitle of a scene, each line ended by a line feed. -/
def render (s : Scene) : Except Fault String := do
  let separator ← s.separator
  return Text.unlines (separator :: s.titleLines ++ s.subtitleLines ++ [""])

end Scene

end Montage
