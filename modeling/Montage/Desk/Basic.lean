import Montage.Report
import Montage.Store.Basic

/-!
# The editing desk

A `Desk` is a store of segments together with what is attached to it: the listeners that
follow its events, the question whether a running batch is to be given up, and the state of
the evaluation of texts.  The type `ε` is the state of whatever surrounds the desk.

An operation on a desk is a `Run`: it may fail, and what it changed before it failed stays
changed.  The surroundings take part through `Surroundings`.  What listeners do in response
to an event is itself a `Run`, so that it may call for further operations on the same desk
while one is under way.
-/

namespace Montage

/-- What happened to a store. -/
inductive EventKind where
  | added
  | removed
  | updated
  | cleared
  deriving DecidableEq, Repr

/-- The name of an event. -/
def EventKind.name : EventKind → String
  | added => "added"
  | removed => "removed"
  | updated => "updated"
  | cleared => "cleared"

/-- An event, with the segment that it is about, if any, as it is at the moment. -/
structure Event where
  kind : EventKind
  segment : Option Segment
  deriving DecidableEq

/-- How a running batch finds out whether it is to be given up. -/
inductive Poll where
  /-- It never is. -/
  | never
  /-- It is once the document's revision differs from the given one. -/
  | changedSince (revision : Nat)
  /-- The answers are given in advance, and the last one repeats. -/
  | answers (next : List Bool)
  deriving DecidableEq, Repr

/-- Whether a text is being evaluated. -/
inductive Phase where
  | idle
  | parsing
  deriving DecidableEq, Repr

/-- The name of a phase. -/
def Phase.name : Phase → String
  | idle => "idle"
  | parsing => "parsing"

/-- A store of segments and what is attached to it. -/
structure Desk (ε : Type) where
  store : Store := {}
  /-- The listeners that follow the store, in the order of their subscriptions; one that
  subscribed twice occurs twice. -/
  listeners : List Nat := []
  poll : Poll := .never
  phase : Phase := .idle
  /-- The fingerprint of the commands that the store is known to result from. -/
  fingerprint : Option String := none
  /-- What was published last. -/
  last : Option Pass := none
  /-- How often the document has changed. -/
  revision : Nat := 0
  /-- The listeners that follow evaluations. -/
  passListeners : List Nat := []
  /-- The listeners that follow failures of evaluations. -/
  errorListeners : List Nat := []
  /-- The state of the surroundings. -/
  surroundings : ε

/-- An operation on a desk. -/
abbrev Run (ε : Type) := EStateM Fault (Desk ε)

/-- What surrounds a desk. -/
structure Surroundings (ε : Type) where
  /-- Takes note of a line. -/
  log : String → ε → ε
  /-- What a listener does when it learns of an event. -/
  onEvent : Nat → Event → Run ε Unit
  /-- What a listener does when an evaluation is published. -/
  onPass : Nat → Pass → Run ε Unit
  /-- What a listener does when an evaluation fails. -/
  onError : Nat → String → Run ε Unit
  /-- Finds the duration of the media file at a path. -/
  lookup : String → Run ε Double

namespace Desk

variable {ε : Type} (host : Surroundings ε)

/-- A line noted by the surroundings. -/
def log (line : String) : Run ε Unit :=
  modify fun d => { d with surroundings := host.log line d.surroundings }

/-- The value of a computation that does not touch the desk. -/
def ofExcept {α : Type} : Except Fault α → Run ε α
  | .ok a => pure a
  | .error f => throw f

/-- The store changed by a function. -/
def modifyStore (f : Store → Store) : Run ε Unit :=
  modify fun d => { d with store := f d.store }

/-- Whether the running batch is to be given up, asked now. -/
def poll? : Run ε Bool := do
  let d ← get
  match d.poll with
  | .never => return false
  | .changedSince revision => return d.revision != revision
  | .answers [] => return false
  | .answers [answer] => return answer
  | .answers (answer :: rest) =>
    set { d with poll := .answers rest }
    return answer

end Desk

end Montage
