import Montage.Media.Prober
import Montage.Program.PlainText
import Montage.Program.Run
import Montage.Text.Utf8

/-!
# The command line

The program reads the script named by its arguments and shows the timeline that results from
it, once or, while it watches, after every change of the script.  It runs no other programs,
so the durations of media files cannot be found out.
-/

namespace Montage.CommandLine

/-- The content of the file at a path, if it can be read. -/
def content? (path : String) : IO (Option ByteArray) := do
  try
    return some (← IO.FS.readBinFile path)
  catch _ => return none

/-- Whether there is a file at a path. -/
def isFile (path : String) : IO Bool := do
  try
    let handle ← IO.FS.Handle.mk path .read
    discard (handle.read 1)
    return true
  catch _ => return false

/-- The prober for a script. -/
def proberFor (script : FilePath) : IO Prober := do
  let here := FilePath.ofText (toString (← IO.currentDir))
  let home := (← IO.getEnv "HOME").map fun home => ("", home)
  return {
    base := some (here.under script.parent)
    command := ProberPlaces.choose {}
    homes := home.toList }

/-- The duration of a media file as far as it can be found out. -/
def duration (p : Prober) (path : String) : IO (Except Fault Double) := do
  match p.resolve path with
  | .error fault => return .error fault
  | .ok file =>
    if ← isFile file.toText then return p.durationOf file .missing
    else return .error (.script (.fileNotFound file.toText))

/-- The durations of all media files that a script loads. -/
def durationsFor (p : Prober) (text : String) : IO (String → Except Fault Double) := do
  let mut found := []
  for c in (Script.ofText text).commands do
    if let .load path := c.edit then
      found := (path, ← duration p path) :: found
  let table := found
  return fun path => (table.lookup path).getD (.error (.script (.fileNotFound path)))

/-- Carries out an operation of the program and writes what it shows; its result, or
`none` after a fault. -/
def carryOut {α : Type} (d : Desk Program.State) (x : Program.Act α) :
    IO (Desk Program.State × Option α) := do
  let (d, outcome) :=
    match x.run d with
    | .ok a d => (d, Except.ok a)
    | .error fault d => (d, .error fault)
  for shown in d.surroundings.shown.reverse do
    for line in PlainText.ofDisplay shown do
      IO.println line
  (← IO.getStdout).flush
  let d := { d with surroundings := { d.surroundings with shown := [] } }
  match outcome with
  | .ok a => return (d, some a)
  | .error fault =>
    IO.eprintln fault.message
    return (d, none)

/-- The desk with the durations of the media files that a script loads. -/
def prepared (d : Desk Program.State) (p : Prober) (text : String) :
    IO (Desk Program.State) := do
  let durations ← durationsFor p text
  return { d with surroundings := { d.surroundings with durations := durations } }

/-- Watches the script, whose content was `seen` at the last look. -/
partial def watch (d : Desk Program.State) (p : Prober) (script : FilePath)
    (seen : Option ByteArray) : IO UInt32 := do
  let found ← content? script.toText
  let mut d := d
  if let some bytes := found then
    if found != seen then
      match Text.Utf8.readFile bytes.toList with
      | .error fault =>
        IO.eprintln fault.message
        return 1
      | .ok text =>
        d ← prepared d p text
        d := (← carryOut d (Program.notice text)).1
  let (next, pause) ← carryOut d do
    let poll ← Program.waitingTime
    Desk.ofExcept (Timecode.millisOf poll)
  match pause with
  | none => return 1
  | some ms =>
    IO.sleep ms.toNat.toUInt32
    d := (← carryOut next Program.wait).1
    watch d p script (found <|> seen)

/-- Evaluates the script once. -/
def evaluate (d : Desk Program.State) (p : Prober) (bytes : ByteArray) : IO UInt32 := do
  match Text.Utf8.readFile bytes.toList with
  | .error fault =>
    IO.eprintln fault.message
    return 1
  | .ok text =>
    let d ← prepared d p text
    let (_, succeeded) ← carryOut d (Program.evaluateOnce text)
    return if succeeded = some true then 0 else 1

/-- Runs the program on the options that the arguments ask for. -/
def run (o : Options) : IO UInt32 := do
  let script := FilePath.ofText o.script
  let p ← proberFor script
  let d := Program.start o fun path => .error (.script (.fileNotFound path))
  match ← content? script.toText with
  | none =>
    for line in PlainText.ofDisplay (Program.notFound script.toText) do
      IO.println line
    return 1
  | some bytes =>
    if o.watch then
      let (d, started) ← carryOut d (Program.startWatching script.toText)
      if started.isNone then return 1
      watch d p script none
    else evaluate d p bytes

/-- How the program is called. -/
def usage : String :=
  "usage: montage [--watch] [--debounce-ms MS] [--poll SECONDS] [--format table|json] "
    ++ "[--dump-commands] SCRIPT"

end Montage.CommandLine

/-- Runs the program on its arguments. -/
def main (args : List String) : IO UInt32 := do
  match Montage.Options.parse args with
  | .ok o => Montage.CommandLine.run o
  | .error stop =>
    if stop = .help then IO.println Montage.CommandLine.usage
    else IO.eprintln Montage.CommandLine.usage
    return stop.exitCode.toUInt32
