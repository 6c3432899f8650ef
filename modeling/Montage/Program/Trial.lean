import Montage.Media.FilePath
import Montage.Media.FileTree
import Montage.Program.Run
import Montage.Text.Utf8

/-!
# Trials of the program

A trial runs the program in a directory that holds an empty directory and, perhaps, the file
with the script.  While the program watches, something may happen to the file each time the
program has waited; when nothing more is to happen, the program is asked to stop.
-/

namespace Montage.Program

/-- What happens to the file with the script. -/
inductive Happening where
  | nothing
  | write (bytes : List UInt8)
  | touch
  | delete

/-- The file with the script. -/
structure ScriptFile where
  bytes : List UInt8
  /-- The time of its last change. -/
  changed : Int

/-- What is left of a trial: the exit code, the fault with which it broke off, and what was
shown. -/
structure Trace where
  exitCode : Option Nat := none
  raised : Option Fault := none
  shown : List Display := []

/-- The name of the file with the script. -/
def scriptName : String := "edit.txt"

/-- The directory of a trial. -/
def directory (file : Option ScriptFile) : FileTree :=
  .ofHere
    ((["dir"], .directory) :: (file.map fun f => ([scriptName], .file f.changed)).toList)

/-- The time of the last change of the file at a path, if it is there. -/
def changeTime? (file : Option ScriptFile) (path : FilePath) : Except Fault (Option Double) :=
  ((directory file).file? path.toText).map fun found => found.map (·.changed)

/-- The file after something has happened at a time. -/
def Happening.apply (time : Int) (file : Option ScriptFile) : Happening → Option ScriptFile
  | nothing => file
  | write bytes => some ⟨bytes, time⟩
  | touch => file.map fun f => { f with changed := time }
  | delete => none

/-- The text of the file. -/
def scriptText (file : Option ScriptFile) : Except Fault String :=
  Text.Utf8.readFile ((file.map (·.bytes)).getD [])

/-- One look at the script and the wait after it; the time of the last change seen. -/
def look (file : Option ScriptFile) (path : FilePath) (seen : Option Double) :
    Act (Option Double) := do
  let changed ← Desk.ofExcept (changeTime? file path)
  if changed.isSome && changed != seen then
    notice (← Desk.ofExcept (scriptText file))
    wait
    return changed
  else
    wait
    return seen

/-- Watches the script while things happen, the next one at the given time. -/
def watch (file : Option ScriptFile) (path : FilePath) (seen : Option Double) (time : Int) :
    List Happening → Act Unit
  | [] => do
    let _ ← look file path seen
    stopWatching
  | h :: rest => do
    let seen ← look file path seen
    watch (h.apply time file) path seen (time + 1) rest

/-- The trace of an operation that starts on a desk, where the exit code is taken from its
result. -/
def trace {α : Type} (d : Desk State) (x : Act α) (exitCode : α → Option Nat) : Trace :=
  match x.run d with
  | .ok a d => { exitCode := exitCode a, shown := d.surroundings.shown.reverse }
  | .error fault d => { raised := some fault, shown := d.surroundings.shown.reverse }

/-- Runs the program on its arguments. -/
def run (args : List String) (durations : String → Except Fault Double)
    (file : Option (List UInt8)) (happenings : List Happening) : Trace :=
  match Options.parse args with
  | .error stop => { exitCode := some stop.exitCode }
  | .ok options =>
    let path := FilePath.ofText options.script
    let file := file.map fun bytes => ScriptFile.mk bytes 0
    let d := start options durations
    match changeTime? file path with
    | .error fault => { raised := some fault }
    | .ok none => { exitCode := some 1, shown := [notFound path.toText] }
    | .ok (some _) =>
      if options.watch then
        trace d
          (do
            startWatching path.toText
            watch file path none 1 happenings)
          fun _ => none
      else
        trace d
          (do
            let text ← Desk.ofExcept (scriptText file)
            evaluateOnce text)
          fun succeeded => if succeeded then none else some 1

end Montage.Program
