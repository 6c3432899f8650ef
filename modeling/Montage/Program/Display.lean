import Montage.Json
import Montage.Program.Options
import Montage.Report
import Montage.Store.Basic
import Montage.Text.Markup

/-!
# Showing results

An evaluation is shown as a panel with the settings, tables of the segments and scenes, and
lines about the duration and the failures, or all in one as JSON.  Texts from the script are
escaped, so that they cannot be taken for markup.
-/

namespace Montage

/-- A row of a table. -/
structure Display.Row where
  cells : List String
  dimmed : Bool := false

/-- A table: its columns, each aligned to the right or not, and its rows. -/
structure Display.Table where
  title : String
  columns : List (String × Bool)
  rows : List Display.Row

/-- Something shown. -/
inductive Display where
  | log (line : String)
  | lookup (path : String)
  | print (markup : String)
  | status (markup : String)
  | panel (body title : String)
  | table (table : Display.Table)
  | json (text : String)
  | sleep (seconds : Double)

namespace Display

/-- A text with blanks in front up to a width. -/
def rightAligned (width : Nat) (s : String) : String :=
  String.ofList (List.replicate (width - s.length) ' ' ++ s.toList)

/-! ### Panels and tables -/

/-- The panel of the settings. -/
def configPanel (c : Config) : Display :=
  .panel
    ("[bold]Resolution:[/] " ++ c.resolution ++ " @ " ++ toString c.frameRate ++ "fps\n"
      ++ "[bold]Font:[/]       " ++ Text.escapeMarkup c.font ++ " " ++ toString c.fontSize
      ++ "pt\n"
      ++ "[bold]Colors:[/]     title " ++ c.titleColor ++ ", subtitle " ++ c.subtitleColor
      ++ ", background alpha " ++ c.backgroundAlpha.toText)
    ("[bold cyan]" ++ Text.escapeMarkup c.projectName ++ "[/]")

/-- The row of a segment; invisible ones are dimmed. -/
def segmentRow (s : Segment) : Except Fault Row := do
  let start ← Timecode.stamp s.start
  let stop ← Timecode.stamp s.stop
  return ⟨[toString s.id, start, stop, s.state.name, Text.escapeMarkup s.path], !s.visible⟩

/-- The table of the segments. -/
def segmentTable (segments : List Segment) : Except Fault Display := do
  let rows ← segments.mapM segmentRow
  return .table
    { title := "Segments"
      columns :=
        [("id", true), ("start", false), ("end", false), ("state", false), ("source", false)]
      rows }

/-- A text on one line. -/
def onOneLine (s : String) : String :=
  String.ofList (s.toList.flatMap fun c => if c = '\n' then [' ', '/', ' '] else [c])

/-- The row of a scene. -/
def sceneRow (s : Scene) : Except Fault Row := do
  let start ← Timecode.stamp s.start
  let stop ← Timecode.stamp s.stop
  return {
    cells :=
      [toString s.line, start ++ " → " ++ stop, Text.escapeMarkup (s.title.getD ""),
        Text.escapeMarkup (onOneLine (s.subtitle.getD ""))] }

/-- The table of the scenes. -/
def sceneTable (scenes : List Scene) : Except Fault Display := do
  let rows ← scenes.mapM sceneRow
  return .table
    { title := "Scenes"
      columns := [("line", true), ("range", false), ("title", false), ("subtitle", false)]
      rows }

/-- The line about the duration of what is visible. -/
def durationLine (s : Store) : Except Fault Display := do
  let duration ← Timecode.stamp (s.assembledDuration .plain)
  return .print ("[bold]Output duration:[/] " ++ duration ++ " (" ++ toString s.visible.length
    ++ "/" ++ toString s.size ++ " segments visible)")

/-- The lines about failed commands. -/
def failureLines (r : Option Report) : List Display :=
  ((r.map (·.errorMessages)).getD []).map fun m =>
    .print ("[yellow]![/] " ++ Text.escapeMarkup m)

/-- An evaluation as panel, tables and lines. -/
def tables (p : Pass) (s : Store) : List (Except Fault Display) :=
  [.ok (configPanel p.script.config), segmentTable s.segments]
    ++ (if p.script.scenes.isEmpty then [] else [sceneTable p.script.scenes])
    ++ [durationLine s] ++ (failureLines p.report).map .ok
    ++ (if p.executed then [] else [.ok (.print "[dim]Commands unchanged, timeline kept.[/]")])

/-! ### JSON -/

/-- The settings as JSON. -/
def configJson (c : Config) : Json :=
  .object [("project_name", .string c.projectName), ("width", .int c.width),
    ("height", .int c.height), ("frame_rate", .int c.frameRate),
    ("default_font", .string c.font), ("default_font_size", .int c.fontSize),
    ("default_title_color", .string c.titleColor),
    ("default_subtitle_color", .string c.subtitleColor),
    ("default_background_alpha", .double c.backgroundAlpha),
    ("title_position_x", .double c.titleX), ("title_position_y", .double c.titleY),
    ("subtitle_position_y", .double c.subtitleY), ("title_font_size", .int c.titleFontSize),
    ("subtitle_font_size", .int c.subtitleFontSize),
    ("default_free_text_color", .string c.freeTextColor)]

/-- A segment as JSON. -/
def segmentJson (s : Segment) : Json :=
  .object [("id", .int s.id), ("start", .double s.start), ("end", .double s.stop),
    ("visible", .bool s.visible), ("state", .string s.state.name), ("path", .string s.path)]

/-- An optional text as JSON. -/
def textJson : Option String → Json
  | some s => .string s
  | none => .null

/-- A scene as JSON. -/
def sceneJson (s : Scene) : Json :=
  .object [("line", .int s.line), ("start", .double s.start), ("end", .double s.stop),
    ("title", textJson s.title), ("subtitle", textJson s.subtitle),
    ("content", .string s.content)]

/-- The report of a failed command as JSON. -/
def failureJson (r : Result) : Option Json :=
  r.fault?.map fun cause =>
    let response := (Fault.script cause).response r.place
    .object [("success", .bool false), ("error", .string response.error),
      ("code", .string response.code), ("suggestion", .string response.suggestion)]

/-- An evaluation as JSON. -/
def passJson (p : Pass) (s : Store) : Json :=
  .object [("config", configJson p.script.config),
    ("segments", .array (s.segments.map segmentJson)),
    ("scenes", .array (p.script.scenes.map sceneJson)), ("executed", .bool p.executed),
    ("errors", .array (((p.report.map (·.results)).getD []).filterMap failureJson))]

/-! ### All together -/

/-- What is shown of an evaluation, in order, up to what cannot be shown. -/
def ofPass (format : Format) (p : Pass) (s : Store) : List (Except Fault Display) :=
  match format with
  | .json => [.ok (.json (passJson p s).pretty)]
  | .table => tables p s

/-- The line of a command, with the number of its line. -/
def commandLine (c : Command) : Except Fault Display := do
  let text ← c.text
  return .print ("  [dim]" ++ rightAligned 4 (toString c.line) ++ "[/]  "
    ++ Text.escapeMarkup text)

/-- The line of a fault. -/
def errorLine (message : String) : Display :=
  .print ("[red]Error:[/] " ++ Text.escapeMarkup message)

end Display

end Montage
