import Montage.Scene.Basic
import Montage.Text.Blank

/-!
# The content of a scene

The lines of a scene are of four kinds, told apart by how they start after the blanks in
front.  The first heading is the title, the quotes make up the subtitle, and everything
else is free text: each later heading on its own, and plain lines gathered into paragraphs
that end at the next line of another kind.
-/

namespace Montage.Scene

/-- The kinds of lines of a scene, with what they say. -/
inductive ContentLine where
  | blank
  | heading (text : List Char)
  | quote (text : List Char)
  | plain (text : List Char)
  deriving DecidableEq

namespace ContentLine

/-- The kind of a line.  A heading or a quote says what follows its mark, without blanks
around it; a plain line keeps the blanks at its end. -/
def ofLine (line : List Char) : ContentLine :=
  match Text.trimStart line with
  | [] => blank
  | '#' :: ' ' :: rest => heading (Text.trim rest)
  | '>' :: ' ' :: rest => quote (Text.trim rest)
  | rest => plain rest

end ContentLine

/-- What has been gathered from the lines read so far, newest first. -/
structure Gathered where
  title : Option String := none
  quotes : List (List Char) := []
  freeText : List Paragraph := []
  /-- The lines of the paragraph that is not yet ended. -/
  paragraph : List (List Char) := []
  /-- The line on which it started. -/
  paragraphLine : Int := 0

namespace Gathered

/-- The paragraph ended, if there is one. -/
def close (g : Gathered) : Gathered :=
  if g.paragraph.isEmpty then g
  else
    let text := String.ofList (Text.trim (Text.joinLines g.paragraph.reverse))
    { g with freeText := ⟨text, g.paragraphLine⟩ :: g.freeText, paragraph := [] }

/-- One more line, with its number. -/
def add (g : Gathered) (number : Int) (line : List Char) : Gathered :=
  match ContentLine.ofLine line with
  | .blank => g.close
  | .heading text =>
    let g := g.close
    match g.title with
    | none => { g with title := some (String.ofList text) }
    | some _ => { g with freeText := ⟨String.ofList text, number⟩ :: g.freeText }
  | .quote text =>
    let g := g.close
    { g with quotes := text :: g.quotes }
  | .plain text =>
    let started := if g.paragraph.isEmpty then number else g.paragraphLine
    { g with paragraph := text :: g.paragraph, paragraphLine := started }

/-- All lines in order, numbered from `number` on. -/
def addAll (g : Gathered) (number : Int) : List (List Char) → Gathered
  | [] => g
  | line :: rest => (g.add number line).addAll (number + 1) rest

/-- The subtitle that the quotes make up. -/
def subtitle (g : Gathered) : Option String :=
  if g.quotes.isEmpty then none else some (String.ofList (Text.joinLines g.quotes.reverse))

end Gathered

/-- Title, subtitle and free text of lines that are numbered from `first` on. -/
def decompose (first : Int) (ls : List (List Char)) :
    Option String × Option String × List Paragraph :=
  let g := (Gathered.addAll {} first ls).close
  (g.title, g.subtitle, g.freeText.reverse)

end Montage.Scene
