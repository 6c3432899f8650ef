import Montage.Desk.Evaluate
import Montage.Session.Step

/-!
# Running a session

`perform` carries out one step on a desk with given surroundings.  The surroundings of a
session look up media in a table and let listeners and hooks react.  A reaction consists of
steps, during which further reactions can take place: `surroundings n` allows for `n` of
them inside one another, and `run` allows for as many as its steps can give rise to.
-/

namespace Montage.Session

/-- A listener or hook: what it reacts to, and how often it still does. -/
structure Reaction where
  name : String := ""
  /-- The kind of event it reacts to, if it is a listener of events that reacts at all. -/
  on : Option String := none
  /-- The path that the segment of an event must have, if one is given. -/
  path : Option String := none
  left : Nat := 0
  actions : List Step := []

/-- Where the texts of the coalescer go. -/
inductive Target where
  /-- Each text is evaluated. -/
  | desk
  /-- Each text is noted; one that starts with an exclamation mark is refused, and one that
  starts with a plus sign is pushed again without it. -/
  | record
  deriving DecidableEq

/-- What happens at each push. -/
inductive PushHook where
  | notify
  | none
  | record
  | fail (fault : Fault)

/-- What a session keeps beside the desk itself. -/
structure State where
  /-- What happened during the step under way, latest first. -/
  trace : List Item := []
  /-- The listeners of events, by the number they subscribe with. -/
  listeners : List Reaction := []
  /-- The listener of each handle. -/
  handles : List Nat := []
  passHooks : List Reaction := []
  errorHooks : List Reaction := []
  lookupHooks : List (String × Reaction) := []
  media : List (String × Media) := []
  picker : RangePicker := {}
  coalescer : Coalescer := { quiet := 500 }
  target : Target := .desk
  onPush : PushHook := .notify

/-- An operation of a session. -/
abbrev Act := Run State

/-- The state of the session. -/
def current : Act State :=
  return (← get).surroundings

/-- Changes the state of the session. -/
def change (f : State → State) : Act Unit :=
  modify fun d => { d with surroundings := f d.surroundings }

/-- Adds to the trace. -/
def note (item : Item) : Act Unit :=
  change fun s => { s with trace := item :: s.trace }

/-! ### The coalescer -/

/-- What happens at a push, after it. -/
def afterPush : Act Unit := do
  match (← current).onPush with
  | .notify => Desk.noteChange
  | .none => return ()
  | .record => note .pushed
  | .fail fault => throw fault

/-- Pushes a text. -/
def push (text : String) : Act Unit := do
  let s ← current
  let c ← Desk.ofExcept (s.coalescer.push text)
  change fun s => { s with coalescer := c }
  afterPush

/-- Delivers a text. -/
def deliver (host : Surroundings State) (text : String) : Act Unit := do
  match (← current).target with
  | .desk => discard (Desk.submit host text)
  | .record =>
    note (.delivered text)
    match text.toList with
    | '!' :: _ => throw (.refused text)
    | '+' :: rest => push (String.ofList rest)
    | _ => return ()

/-- The fault with which an operation ends, if it does. -/
def outcomeOf (x : Act Unit) : Act (Except Fault Unit) :=
  tryCatch (do x; return .ok ()) fun f => return .error f

/-- The coalescer of a session. -/
def outlet (host : Surroundings State) : Coalescer.Outlet Act where
  read := return (← current).coalescer
  write c := change fun s => { s with coalescer := c }
  deliver text := outcomeOf (deliver host text)

/-! ### Steps -/

/-- The reply that shows a segment, or nothing. -/
def segmentReply : Option Segment → Reply
  | some segment => .segment segment
  | none => .nothing

/-- The reply that shows a range, or nothing. -/
def rangeReply : Option (Double × Double) → Reply
  | some (start, stop) => .range start stop
  | none => .nothing

/-- A segment with one field changed. -/
def amended (s : Segment) : Amendment → Except Fault Segment
  | .start time => .ok { s with start := time }
  | .stop time => .ok { s with stop := time }
  | .path path => .ok { s with path := path }
  | .visible visible => .ok { s with visible := visible }
  | .state word => return { s with state := ← PlayState.ofName word }
  | .id id => .ok { s with id := id }

/-- Changes fields of a record in place, one after the other. -/
def amendAll (record : Held) : List Amendment → Act Unit
  | [] => return ()
  | change :: rest => do
    let segment ← Desk.ofExcept (amended (← Desk.refreshed record) change)
    Desk.modifyStore (·.amend record.tag fun _ => segment)
    amendAll record rest

/-- Changes fields of the segment with an id in place. -/
def amend (id : Int) (changes : List Amendment) : Act Reply := do
  let d ← get
  match d.store.find? id with
  | none => return .nothing
  | some record => do
    amendAll record changes
    return .segment (← Desk.refreshed record)

/-- The commands of a batch up to the first plain text, and that text. -/
def splitBatch : List Entry → List Command × Option String
  | [] => ([], none)
  | .text s :: _ => ([], some s)
  | .command c :: rest =>
    let (commands, stray) := splitBatch rest
    (c :: commands, stray)

/-- Runs a batch.  The commands before plain text are run, unless one of them is given up. -/
def executeBatch (host : Surroundings State) (entries : List Entry)
    (answers : Option (List Bool)) : Act Report := do
  let (commands, stray) := splitBatch entries
  let report ← Desk.execute host commands ((answers.map Poll.answers).getD .never)
  match stray with
  | some text => if report.cancelled then return report else throw (.notACommand text)
  | none => return report

/-- A handle for a listener of a given number, which subscribes. -/
def subscribe (listener : Nat) : Act Reply := do
  let handle := (← current).handles.length
  Desk.subscribe listener
  change fun s => { s with handles := s.handles ++ [listener] }
  return .handle handle

/-- A hook for a path in place of an earlier one. -/
def setHook (path : String) (hook : Reaction) (hooks : List (String × Reaction)) :
    List (String × Reaction) :=
  (path, hook) :: hooks.filter (·.1 != path)

/-- Carries out a step. -/
def perform (host : Surroundings State) (fuel : Nat) : Step → Act Reply
  | .add request => do
    let clip ← Desk.ofExcept request.clip
    return .segment (← Desk.refreshed (← Desk.add host clip request.id))
  | .remove id => do
    Desk.remove host id
    return .nothing
  | .update request => do
    let clip ← Desk.ofExcept request.clip
    match request.id with
    | some id => Desk.update host ⟨clip, id⟩
    | none => pure ()
    return .nothing
  | .clear => do
    Desk.clear host
    return .nothing
  | .get id => return segmentReply ((← get).store.get? id)
  | .segmentAt time => return segmentReply ((← get).store.at? time)
  | .overlapping start stop =>
    return .ids (((← get).store.overlapping start stop).map (·.segment.id))
  | .amend id changes => amend id changes
  | .touch id => do
    Desk.touch host id
    return .nothing
  | .assembled => do
    let s := (← get).store
    return .timeline s.assembled (s.assembledDuration .plain) s.size (s.visible.map (·.id))
  | .listen name on path max actions => do
    let number := (← current).listeners.length
    let listener : Reaction := { name, on, path, left := max, actions }
    change fun s => { s with listeners := s.listeners ++ [listener] }
    subscribe number
  | .listenAgain handle => do
    match (← current).handles[handle]? with
    | some listener => subscribe listener
    | none => return .nothing
  | .unlisten handle => do
    match (← current).handles[handle]? with
    | some listener => Desk.unsubscribe listener
    | none => pure ()
    return .nothing
  | .fail fault => throw fault
  | .executeText text offset answers => do
    let entries := (Command.ofBody text offset).map Entry.command
    return .report (← executeBatch host entries answers)
  | .executeBatch entries answers => return .report (← executeBatch host entries answers)
  | .executeOne (.command c) => return .result (← Desk.executeOne host c)
  | .executeOne (.text s) => throw (.notACommand s)
  | .media path media => do
    change fun s => { s with media := (path, media) :: s.media }
    return .nothing
  | .onLookup path max actions => do
    let hook : Reaction := { left := max, actions }
    change fun s => { s with lookupHooks := setHook path hook s.lookupHooks }
    return .nothing
  | .submit text => do
    match ← Desk.submit host text with
    | some pass => return .pass pass
    | none => return .nothing
  | .cut time => do
    match ← Desk.insertCut host time with
    | some result => return .result result
    | none => return .nothing
  | .notify => do
    Desk.noteChange
    return .nothing
  | .onPass name max actions => do
    let number := (← current).passHooks.length
    change fun s => { s with passHooks := s.passHooks ++ [{ name, left := max, actions }] }
    modify fun d => { d with passListeners := d.passListeners ++ [number] }
    return .nothing
  | .onError name max actions => do
    let number := (← current).errorHooks.length
    change fun s => { s with errorHooks := s.errorHooks ++ [{ name, left := max, actions }] }
    modify fun d => { d with errorListeners := d.errorListeners ++ [number] }
    return .nothing
  | .state => do
    let d ← get
    return .desk d.phase d.fingerprint (d.last.map fun p => (p.fingerprint, p.executed))
  | .press time => do
    let (picker, range) := (← current).picker.press time
    change fun s => { s with picker := picker }
    return rangeReply range
  | .preview time => return rangeReply ((← current).picker.preview time)
  | .confirm time => do
    let (picker, range) := (← current).picker.confirm time
    change fun s => { s with picker := picker }
    return rangeReply (some range)
  | .cancel => do
    change fun s => { s with picker := s.picker.cancel }
    return .nothing
  | .picker => do
    let p := (← current).picker
    return .picker p.isRecording p.pivot
  | .push text => do
    push text
    return .nothing
  | .pending => return .flag (← current).coalescer.pending.isSome
  | .flush => do
    Desk.ofExcept (← (outlet host).flush)
    return .nothing
  | .close => do
    Desk.ofExcept (← (outlet host).close)
    return .nothing
  | .advance ms => do
    (outlet host).advance ms fuel
    return .nothing
  | .expire timer => do
    (outlet host).expire timer
    return .nothing

/-- Carries out a step whose reply can be written. -/
def answerStep (host : Surroundings State) (fuel : Nat) (step : Step) : Act Reply := do
  let reply ← perform host fuel step
  if reply.integers.all Text.isWritable then return reply else throw .tooLongToWrite

/-! ### Reactions -/

/-- Carries out the actions of a reaction and notes each that is completed. -/
def react (host : Surroundings State) (fuel : Nat) : List Step → Act Unit
  | [] => return ()
  | step :: rest => do
    let reply ← answerStep host fuel step
    note (.nested step.name reply)
    react host fuel rest

/-- Whether a listener reacts to an event. -/
def Reaction.concerns (r : Reaction) (e : Event) : Bool :=
  r.on == some e.kind.name
    && (r.path.isNone || r.path == e.segment.map (·.path))

/-- Adds an event to the trace, if its segment can be written. -/
def noteEvent (listener : String) (e : Event) : Act Unit :=
  if e.segment.all fun s => Text.isWritable s.id then note (.event e.kind listener e.segment)
  else throw .tooLongToWrite

/-- A reaction that has taken place once more. -/
def Reaction.spent (r : Reaction) : Reaction :=
  { r with left := r.left - 1 }

/-- The answer of the media table for a path. -/
def answer (path : String) : Act Double := do
  match (← current).media.lookup path with
  | some (some outcome) => Desk.ofExcept outcome
  | _ => throw (.script (.fileNotFound path))

/-- The surroundings of a session in which `inside` carries out the actions of a reaction. -/
def surroundingsWith (inside : List Step → Act Unit) : Surroundings State where
  log line s := { s with trace := .log line :: s.trace }
  onEvent listener e := do
    match (← current).listeners[listener]? with
    | none => return ()
    | some r =>
      noteEvent r.name e
      if r.concerns e && 0 < r.left then
        change fun s => { s with listeners := s.listeners.modify listener .spent }
        inside r.actions
  onPass listener p := do
    match (← current).passHooks[listener]? with
    | none => return ()
    | some r =>
      note (.pass r.name p.executed p.script.scenes.length p.script.commands.length)
      if 0 < r.left then
        change fun s => { s with passHooks := s.passHooks.modify listener .spent }
        inside r.actions
  onError listener message := do
    match (← current).errorHooks[listener]? with
    | none => return ()
    | some r =>
      note (.error r.name message)
      if 0 < r.left then
        change fun s => { s with errorHooks := s.errorHooks.modify listener .spent }
        inside r.actions
  lookup path := do
    note (.lookup path)
    match (← current).lookupHooks.lookup path with
    | none => pure ()
    | some r =>
      if 0 < r.left then
        change fun s => { s with lookupHooks := setHook path r.spent s.lookupHooks }
        inside r.actions
    answer path

/-- The surroundings of a session in which up to the given number of reactions take place
inside one another. -/
def surroundings (fuel : Nat) : Nat → Surroundings State
  | 0 => surroundingsWith fun _ => return ()
  | depth + 1 => surroundingsWith fun actions => react (surroundings fuel depth) fuel actions

/-! ### Whole sessions -/

/-- What a step leaves: its reply or fault, what happened, and the desk afterwards. -/
structure Record where
  outcome : Except Fault Reply
  trace : List Item
  segments : List Segment
  fingerprint : Option String
  phase : Phase

/-- Carries out steps on a desk one after the other. -/
def runFrom (host : Surroundings State) (fuel : Nat) (d : Desk State) : List Step → List Record
  | [] => []
  | step :: rest =>
    let start := { d with surroundings := { d.surroundings with trace := [] } }
    let (outcome, d) :=
      match (answerStep host fuel step).run start with
      | .ok reply d => (Except.ok reply, d)
      | .error fault d => (Except.error fault, d)
    let record : Record :=
      { outcome, trace := d.surroundings.trace.reverse, segments := d.store.segments
        fingerprint := d.fingerprint, phase := d.phase }
    record :: runFrom host fuel d rest

/-- The session whose events are recorded by a listener from the start. -/
def recorded (s : State) : Desk State where
  listeners := [0]
  surroundings := { s with listeners := [{ name := "rec" }], handles := [0] }

/-- Runs a session from its state at the start. -/
def run (record : Bool) (s : State) (steps : List Step) : List Record :=
  let fuel := weightAll steps + 1
  let d := if record then recorded s else { surroundings := s }
  runFrom (surroundings fuel fuel) fuel d steps

end Montage.Session
