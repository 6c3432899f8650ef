import Montage.Desk.Execute

/-!
# Evaluating texts

`submit` evaluates a text: it reads the script, runs its commands on a cleared store unless
their fingerprint is that of the commands the store results from, and publishes what it
found.  `insertCut` cuts the timeline outside of any script.  While either is under way the
desk is in the phase `parsing`, and further calls of both are ignored.
-/

namespace Montage.Desk

variable {ε : Type} (host : Surroundings ε)

/-- Notes that the document has changed. -/
def noteChange : Run ε Unit :=
  modify fun d => { d with revision := d.revision + 1 }

/-- Remembers from which commands the store results, if from any. -/
def remember (fingerprint : Option String) : Run ε Unit :=
  modify fun d => { d with fingerprint := fingerprint }

/-- Enters or leaves a phase. -/
def enter (phase : Phase) : Run ε Unit :=
  modify fun d => { d with phase := phase }

/-- Logs lines in order. -/
def logAll : List String → Run ε Unit
  | [] => pure ()
  | line :: rest => do
    log host line
    logAll rest

/-- Runs the commands of a script on a cleared store.  A run that fails on the way leaves no
fingerprint behind, nor does one that is given up. -/
def rebuild (commands : List Command) (fingerprint : String) (revision : Nat) :
    Run ε Report := do
  remember none
  clear host
  let report ← execute host commands (.changedSince revision)
  remember (if report.cancelled then none else some fingerprint)
  let d ← get
  log host ("[pipeline] Executed " ++ toString report.total ++ " command(s): "
    ++ toString report.succeeded ++ " ok, " ++ toString report.failed ++ " failed, "
    ++ toString d.store.size ++ " segment(s)")
  return report

/-- Tells given listeners of a published evaluation. -/
def publish (pass : Pass) : List Nat → Run ε Unit
  | [] => pure ()
  | listener :: rest => do
    host.onPass listener pass
    publish pass rest

/-- Tells given listeners of a failed evaluation. -/
def complain (message : String) : List Nat → Run ε Unit
  | [] => pure ()
  | listener :: rest => do
    host.onError listener message
    complain message rest

/-- Evaluates a text. -/
def evaluate (text : String) : Run ε Pass := do
  let revision := (← get).revision
  let script := Script.ofText text
  logAll host (← ofExcept (Scene.skipped script.outcomes))
  let fingerprint ← ofExcept (Command.fingerprint script.commands)
  let report ←
    if (← get).fingerprint = some fingerprint then do
      log host ("[pipeline] Commands unchanged (" ++ toString script.commands.length
        ++ "), skipping execution")
      pure none
    else
      some <$> rebuild host script.commands fingerprint revision
  let pass : Pass := ⟨script, fingerprint, report⟩
  modify fun d => { d with last := some pass }
  let d ← get
  publish host pass d.passListeners
  return pass

/-- Reports that an evaluation failed. -/
def evaluationFailed (fault : Fault) : Run ε (Option Pass) := do
  let message := "parse failed: " ++ fault.message
  log host ("[pipeline] " ++ message)
  let d ← get
  complain host message d.errorListeners
  return none

/-- Evaluates a text; `none` if the evaluation failed or was ignored. -/
def submit (text : String) : Run ε (Option Pass) := do
  if (← get).phase = .parsing then
    log host "[pipeline] Pass already running, snapshot ignored"
    return none
  enter .parsing
  try tryCatch (some <$> evaluate host text) (evaluationFailed host)
  finally enter .idle

/-- Cuts at a time outside of any script; `none` if the cut was ignored.  The store then
results from no script. -/
def insertCut (time : Double) : Run ε (Option Result) := do
  if (← get).phase = .parsing then
    log host "[pipeline] Pass running, cut ignored"
    return none
  enter .parsing
  try
    let result ← executeOne host ⟨.cut time, 0⟩
    if result.success then remember none
    return some result
  finally enter .idle

end Montage.Desk
