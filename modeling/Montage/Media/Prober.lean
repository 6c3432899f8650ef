import Montage.Media.FilePath
import Montage.Text.Number

/-!
# Probing media files

A `Prober` finds the duration of a media file by running another program on it.  Relative
paths start from its base directory.  Durations are remembered by the place of a file and the
time of its last change, so that the program runs once for each state of a file, whatever
path leads to it; failures are not remembered.
-/

namespace Montage

/-- How a run of the probing program ends. -/
inductive ProbeRun where
  | finished (output errors : String) (exitCode : Int)
  /-- There is no such program. -/
  | missing
  /-- It took too long. -/
  | timedOut
  /-- It could not be run for another reason. -/
  | broken (fault : Fault)

/-- Where the probing program may be found. -/
structure ProberPlaces where
  /-- The one asked for. -/
  given : Option String := none
  /-- The one that the environment asks for. -/
  environment : Option String := none
  /-- The one that is found by its name. -/
  byName : Option String := none
  /-- The absolute paths at which there are files. -/
  existing : List String := []

namespace ProberPlaces

/-- Places to look at after all others. -/
def usual : List String :=
  ["/opt/homebrew/bin/ffprobe", "/usr/local/bin/ffprobe"]

/-- A text unless it is empty. -/
def nonempty (s : Option String) : Option String :=
  s.filter (!·.isEmpty)

/-- The program to run. -/
def choose (p : ProberPlaces) : String :=
  let found := p.byName <|> usual.find? p.existing.contains
  (nonempty p.given <|> nonempty p.environment <|> found).getD "ffprobe"

end ProberPlaces

/-- A finder of durations. -/
structure Prober where
  /-- Where relative paths start, if not where the program runs. -/
  base : Option FilePath := none
  /-- The program to run. -/
  command : String
  /-- The home directories. -/
  homes : List (String × String) := []
  /-- The durations known of files in the states in which they were probed. -/
  known : List (FileState × Double) := []

namespace Prober

/-- The path under which a media file is looked for. -/
def resolve (p : Prober) (path : String) : Except Fault FilePath := do
  let path ← (FilePath.ofText path).expand p.homes
  match p.base with
  | some base => return base.under path
  | none => return path

/-- The arguments with which the program runs. -/
def arguments (p : Prober) (file : FilePath) : List String :=
  [p.command, "-v", "error", "-show_entries", "format=duration", "-of",
    "default=noprint_wrappers=1:nokey=1", file.toText]

/-- The seconds that the program may take. -/
def timeout : Nat := 30

/-- The duration that a run reports. -/
def durationOf (p : Prober) (file : FilePath) : ProbeRun → Except Fault Double
  | .missing => .error (.script (.proberMissing p.command))
  | .timedOut => .error (.script (.proberTimeout file.toText))
  | .broken fault => .error fault
  | .finished output errors exitCode =>
    if exitCode ≠ 0 then .error (.script (.proberFailed file.toText (Text.trimmed errors)))
    else
      match Text.readDouble? (Text.trimmed output) with
      | none => .error (.script (.noDuration file.toText))
      | some d =>
        if !d.isFinite || d ≤ .zero then .error (.script (.notPlayable file.toText)) else .ok d

/-- What a lookup comes to. -/
structure Lookup where
  prober : Prober
  outcome : Except Fault Double
  /-- The arguments of the program, if it was run. -/
  command : Option (List String) := none
  /-- The line logged, if there is one. -/
  log : Option String := none

/-- Looks up the duration of a file, where `run` is how the program would end. -/
def lookup (p : Prober) (files : FileSystem) (run : ProbeRun) (path : String) : Lookup :=
  match p.resolve path with
  | .error fault => { prober := p, outcome := .error fault }
  | .ok file =>
    match files.state? file with
    | .error fault => { prober := p, outcome := .error fault }
    | .ok none => { prober := p, outcome := .error (.script (.fileNotFound file.toText)) }
    | .ok (some state) =>
      match p.known.lookup state with
      | some duration => { prober := p, outcome := .ok duration }
      | none =>
        let command := some (p.arguments file)
        match p.durationOf file run with
        | .error fault => { prober := p, outcome := .error fault, command }
        | .ok duration =>
          { prober := { p with known := (state, duration) :: p.known }
            outcome := .ok duration
            command
            log := some ("[media] " ++ file.name ++ ": " ++ duration.toFixed 3 ++ "s") }

end Prober

end Montage
