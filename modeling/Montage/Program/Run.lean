import Montage.Coalescer
import Montage.Desk.Evaluate
import Montage.Program.Display

/-!
# The program

The program evaluates a script once and shows the result, or watches the script and does so
after every change.  It is a desk whose surroundings collect what is shown, with listeners
that show evaluations, commands and failures.  While it watches, changed texts go through a
coalescer, whose clock is moved on by the time between two looks at the script.
-/

namespace Montage.Program

/-- The state of the program beside the desk. -/
structure State where
  options : Options
  /-- Finds the duration of a media file. -/
  durations : String → Except Fault Double
  /-- What has been shown, latest first. -/
  shown : List Display := []
  coalescer : Coalescer := { quiet := 500 }

/-- An operation of the program. -/
abbrev Act := Run State

/-- Shows something. -/
def display (x : Display) : Act Unit :=
  modify fun d =>
    { d with surroundings := { d.surroundings with shown := x :: d.surroundings.shown } }

/-- Shows things in order, up to the first that cannot be shown. -/
def displayAll : List (Except Fault Display) → Act Unit
  | [] => return ()
  | x :: rest => do
    display (← Desk.ofExcept x)
    displayAll rest

/-- Shows an evaluation. -/
def displayPass (p : Pass) : Act Unit := do
  let d ← get
  displayAll (Display.ofPass d.surroundings.options.shownFormat p d.store)

/-- The listener that shows the commands of an evaluation. -/
def commandLister : Nat := 0

/-- The listener that shows an evaluation. -/
def presenter : Nat := 1

/-- The surroundings of the program. -/
def surroundings : Surroundings State where
  log line s := { s with shown := .log line :: s.shown }
  onEvent _ _ := return ()
  onPass listener p :=
    if listener = commandLister then displayAll (p.script.commands.map Display.commandLine)
    else displayPass p
  onError _ message := display (Display.errorLine message)
  lookup path := do
    display (.lookup path)
    let d ← get
    Desk.ofExcept (d.surroundings.durations path)

/-- The desk when the program starts. -/
def start (o : Options) (durations : String → Except Fault Double) : Desk State where
  passListeners :=
    (if o.dumpCommands then [commandLister] else []) ++ (if o.watch then [presenter] else [])
  errorListeners := [0]
  surroundings := { options := o, durations }

/-- Evaluates a text once and shows the result; whether that succeeded. -/
def evaluateOnce (text : String) : Act Bool := do
  display (.status "[cyan]Evaluating script...[/]")
  match ← Desk.submit surroundings text with
  | some p =>
    displayPass p
    return true
  | none => return false

/-- The coalescer of the program, which lets changed texts through to evaluation. -/
def outlet : Coalescer.Outlet Act where
  read := return (← get).surroundings.coalescer
  write c := modify fun d => { d with surroundings := { d.surroundings with coalescer := c } }
  deliver text :=
    tryCatch (do
      let _ ← Desk.submit surroundings text
      return .ok ()) fun f => return .error f

/-- Starts to watch. -/
def startWatching (script : String) : Act Unit := do
  match (← get).surroundings.options.debounceMs with
  | none => throw .noQuietTime
  | some quiet => outlet.write (← Desk.ofExcept (Coalescer.create quiet))
  display (.print ("[cyan]Watching " ++ script ++ "[/] (Ctrl-C to stop)"))

/-- Takes note of a changed text. -/
def notice (text : String) : Act Unit := do
  let c ← outlet.read
  let c ← Desk.ofExcept (c.push text)
  outlet.write c
  Desk.noteChange

/-- The time between two looks at the script. -/
def waitingTime : Act Double := do
  match (← get).surroundings.options.poll with
  | some poll => return poll
  | none => throw .noWaitingTime

/-- Lets the time between two looks at the script pass. -/
def wait : Act Unit := do
  let poll ← waitingTime
  display (.sleep poll)
  let ms ← Desk.ofExcept (Timecode.millisOf poll)
  let c ← outlet.read
  outlet.advance ms c.timers.length

/-- Ends the watching on request. -/
def stopWatching : Act Unit :=
  display (.print "\n[bold green]✓[/] Stopped watching")

/-- The line about a script that is not there. -/
def notFound (script : String) : Display :=
  .print ("[red]Error:[/] script not found: " ++ script)

end Montage.Program
