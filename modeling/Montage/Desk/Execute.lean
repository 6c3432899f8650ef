import Montage.Desk.Announce

/-!
# Executing commands

`executeOne` applies one command to the store of a desk and reports what it did; `execute`
runs a batch.  A command that fails is reported and logged, and the batch goes on, unless
the command was given up because the document has changed.  Hiding, showing and deleting
act on whole segments, also on those that overlap the range only in part.
-/

namespace Montage.Desk

variable {ε : Type} (host : Surroundings ε)

/-- How the failure of a lookup is reported: failures of the system, of values and of the
running program concern the media file, all others go on as they are. -/
def lookupFault (path : String) (f : Fault) : Fault :=
  match f with
  | .script cause => .script cause
  | f =>
    match f.family with
    | .system | .value | .runtime => .script (.lookupFailed path f.message)
    | .other => f

/-- The duration of a file, if it can be that of a segment and the document has not changed
meanwhile. -/
def playableDuration (path : String) : Run ε Double := do
  if Text.isBlankText path then throw (.script .pathMissing)
  let duration ← tryCatch (host.lookup path) fun f => throw (lookupFault path f)
  if !duration.isFinite || duration ≤ .zero then
    throw (.script (.unplayable path duration))
  if ← poll? then throw (.script (.overtaken path))
  return duration

/-- Replaces everything by the whole of a file. -/
def load (path : String) : Run ε (List Int) := do
  let duration ← playableDuration host path
  clear host
  let record ← add host { start := .zero, stop := duration, path } none
  log host ("[interpret] Loaded " ++ path ++ " (" ++ duration.toFixed 3 ++ "s)")
  return [(← refreshed record).id]

/-- Replaces the segment that encloses a time by its two parts. -/
def cut (time : Double) : Run ε (List Int) := do
  let d ← get
  match d.store.enclosing? time with
  | none =>
    let stamp ← ofExcept (Timecode.stamp time)
    match d.store.at? time with
    | some _ => throw (.script (.onBoundary stamp))
    | none => throw (.script (.uncovered stamp))
  | some target =>
    let part := { target.toClip with state := .stopped }
    let head ← ofExcept { part with stop := time }.checked
    let tail ← ofExcept { part with start := time }.checked
    remove host target.id
    let head ← add host head none
    let tail ← add host tail none
    return [(← refreshed head).id, (← refreshed tail).id]

/-- Sets visibility and state of given records, one after the other; their ids. -/
def showAll (visible : Bool) (state : PlayState) : List Held → Run ε (List Int)
  | [] => return []
  | record :: rest => do
    modifyStore (·.amend record.tag fun s => { s with visible := visible, state := state })
    put host { record with segment := ← refreshed record }
    let id := (← refreshed record).id
    let ids ← showAll visible state rest
    return id :: ids

/-- Removes given records, one after the other; their ids. -/
def removeAll : List Held → Run ε (List Int)
  | [] => return []
  | record :: rest => do
    remove host (← refreshed record).id
    let id := (← refreshed record).id
    let ids ← removeAll rest
    return id :: ids

/-- Hides, shows or deletes the segments that overlap a range. -/
def applyRange (verb : RangeVerb) (start stop : Double) : Run ε (List Int) := do
  let d ← get
  let records := d.store.overlapping start stop
  match verb with
  | .hide => showAll host false .hidden records
  | .reveal => showAll host true .stopped records
  | .delete => removeAll host records

/-- Applies an edit; the ids of the segments it affected. -/
def applyEdit : Edit → Run ε (List Int)
  | .load path => load host path
  | .cut time => cut host time
  | .range verb start stop => applyRange host verb start stop

/-- The result of a command that ended with a fault: the failures of commands are logged and
reported, all others go on. -/
def failed (command : Command) : Fault → Run ε Result
  | .script cause => do
    let line ← ofExcept (Text.writeInteger command.line)
    let text ← ofExcept command.text
    log host ("[interpret] line " ++ line ++ ": " ++ text ++ " failed: " ++ cause.message)
    return ⟨command, .error cause⟩
  | f => throw f

/-- Runs one command. -/
def executeOne (command : Command) : Run ε Result :=
  tryCatch
    (do
      let ids ← applyEdit host command.edit
      return ⟨command, .ok ids⟩)
    (failed host command)

/-- Runs commands in order until one is given up because the document has changed. -/
def executeAll : List Command → Run ε Report
  | [] => return {}
  | command :: rest => do
    let result ← executeOne host command
    if result.isCancelled then return ⟨[result], true⟩
    let report ← executeAll rest
    return ⟨result :: report.results, report.cancelled⟩

/-- Sets how a running batch finds out whether it is to be given up. -/
def setPoll (poll : Poll) : Run ε Unit :=
  modify fun d => { d with poll := poll }

/-- Runs a batch of commands. -/
def execute (commands : List Command) (poll : Poll) : Run ε Report := do
  setPoll poll
  try executeAll host commands
  finally setPoll .never

end Montage.Desk
