import Montage.Script

/-!
# Reports

A `Result` says what one command did: the ids of the segments it affected, or why it failed.
A `Report` collects the results of a batch of commands.  A `Pass` is what one evaluation of
a text publishes: what the text says, and the report if its commands were run.
-/

namespace Montage

/-- What a command did. -/
structure Result where
  command : Command
  outcome : Except ScriptFault (List Int)

namespace Result

/-- Whether the command succeeded. -/
def success (r : Result) : Bool :=
  r.outcome.isOk

/-- Why it failed, if it did. -/
def fault? (r : Result) : Option ScriptFault :=
  match r.outcome with
  | .ok _ => none
  | .error cause => some cause

/-- The ids of the segments it affected. -/
def affected (r : Result) : List Int :=
  match r.outcome with
  | .ok ids => ids
  | .error _ => []

/-- Whether it was given up because the document changed. -/
def isCancelled (r : Result) : Bool :=
  r.fault?.any (·.kind == .cancelled)

/-- The place of the command in the script. -/
def place (r : Result) : String :=
  "line " ++ toString r.command.line

end Result

/-- What a batch of commands did. -/
structure Report where
  results : List Result := []
  /-- Whether the batch was given up because the document changed. -/
  cancelled : Bool := false

namespace Report

/-- The number of commands run. -/
def total (r : Report) : Nat :=
  r.results.length

/-- The number of commands that succeeded. -/
def succeeded (r : Report) : Nat :=
  r.results.countP (·.success)

/-- The number of commands that failed. -/
def failed (r : Report) : Nat :=
  r.total - r.succeeded

/-- Whether no command failed. -/
def allSucceeded (r : Report) : Bool :=
  r.failed == 0

/-- One line for each failure. -/
def errorMessages (r : Report) : List String :=
  r.results.filterMap fun x => x.fault?.map fun cause => x.place ++ ": " ++ cause.message

end Report

/-- What one evaluation of a text publishes. -/
structure Pass where
  script : Script
  /-- The fingerprint of its commands. -/
  fingerprint : String
  /-- The report of its commands, if they were run. -/
  report : Option Report

/-- Whether the commands were run. -/
def Pass.executed (p : Pass) : Bool :=
  p.report.isSome

end Montage
