import Montage.Desk.Execute
import Montage.Media.FileTree
import Montage.Media.Prober

/-!
# Trials of a prober

A trial is a list of steps carried out on a prober over a tree of files: lookups, loads into
an empty store, and changes of files.  A step says how the probing program ends when it is
run during that step.
-/

namespace Montage.Media

/-- A step of a trial. -/
inductive Step where
  | duration (path : String)
  | resolve (path : String)
  | load (path : String)
  | touch (path : String) (changed : Int)
  | delete (path : String)

/-- What a step answers. -/
inductive Reply where
  | nothing
  | duration (seconds : Double)
  | path (text : String)
  | loaded (result : Result) (segments : List Segment)

/-- One thing that happened during a step. -/
inductive Item where
  | run (arguments : List String)
  | log (line : String)

/-- The state of a trial. -/
structure State where
  prober : Prober
  files : FileTree
  /-- How the probing program ends during the step under way. -/
  run : ProbeRun := .finished "" "" 0
  /-- What happened during the step under way, latest first. -/
  trace : List Item := []

namespace State

/-- The outcome of a lookup, and the state after it. -/
def lookup (s : State) (path : String) : Except Fault Double × State :=
  let found := s.prober.lookup s.files.fileSystem s.run path
  let ran := (found.command.map Item.run).toList
  let logged := (found.log.map Item.log).toList
  (found.outcome, { s with prober := found.prober, trace := logged ++ ran ++ s.trace })

end State

/-- The surroundings in which files are loaded. -/
def surroundings : Surroundings State where
  log line s := { s with trace := .log line :: s.trace }
  onEvent _ _ := return ()
  onPass _ _ := return ()
  onError _ _ := return ()
  lookup path := do
    let d ← get
    let (outcome, s) := d.surroundings.lookup path
    set { d with surroundings := s }
    Desk.ofExcept outcome

/-- Loads a file into an empty store. -/
def load (s : State) (path : String) : Except Fault Reply × State :=
  match (Desk.executeOne surroundings ⟨.load path, 1⟩).run { surroundings := s } with
  | .ok result d => (.ok (.loaded result d.store.segments), d.surroundings)
  | .error fault d => (.error fault, d.surroundings)

/-- Carries out a step. -/
def perform (s : State) : Step → Except Fault Reply × State
  | .duration path =>
    let (outcome, s) := s.lookup path
    (outcome.map .duration, s)
  | .resolve path => ((s.prober.resolve path).map fun p => .path p.toText, s)
  | .load path => load s path
  | .touch path changed =>
    let (files, outcome) := s.files.addFile path changed
    (outcome.map fun _ => .nothing, { s with files := files })
  | .delete path =>
    match s.files.removeFile path with
    | .ok files => (.ok .nothing, { s with files := files })
    | .error fault => (.error fault, s)

/-- Carries out steps in order, each with how the probing program ends during it; the reply
of each and what happened. -/
def runAll (s : State) : List (Step × ProbeRun) → List (Except Fault Reply × List Item)
  | [] => []
  | (step, run) :: rest =>
    let s := { s with run := run, trace := [] }
    let (reply, s) := perform s step
    (reply, s.trace.reverse) :: runAll s rest

end Montage.Media
