import Montage.Desk.Basic
import Montage.Coalescer
import Montage.RangePicker

/-!
# Steps of a scripted session

A session is a list of steps that are carried out one after the other on a desk, a range
picker and a coalescer.  A listener, or a hook that is called when a file is looked up,
reacts with steps of its own, a limited number of times.  The carrying out of a step leaves
a reply and a trace of what happened meanwhile.
-/

namespace Montage.Session

/-- A segment as a step describes it. -/
structure SegmentRequest where
  start : Double
  stop : Double
  path : String := "a.mp4"
  visible : Bool := true
  state : String := "stopped"
  id : Option Int := none

/-- The clip that a request describes.  Its state is looked at first. -/
def SegmentRequest.clip (r : SegmentRequest) : Except Fault Clip := do
  let state ← PlayState.ofName r.state
  Clip.checked { start := r.start, stop := r.stop, path := r.path, visible := r.visible, state }

/-- A member of a batch: a command, or plain text where a command belongs. -/
inductive Entry where
  | command (c : Command)
  | text (s : String)

/-- A field of a segment given another value. -/
inductive Amendment where
  | start (time : Double)
  | stop (time : Double)
  | path (path : String)
  | visible (visible : Bool)
  | state (word : String)
  | id (id : Int)

/-- What a media file answers: a duration or a fault, and nothing if there is none. -/
abbrev Media := Option (Except Fault Double)

/-- A step of a session. -/
inductive Step where
  | add (segment : SegmentRequest)
  | remove (id : Int)
  | update (segment : SegmentRequest)
  | clear
  | get (id : Int)
  | segmentAt (time : Double)
  | overlapping (start stop : Double)
  | amend (id : Int) (changes : List Amendment)
  | touch (id : Int)
  | assembled
  /-- Subscribes a new listener, which reacts to events of one kind, and to those about
  segments of one path if a path is given. -/
  | listen (name : String) (on : Option String) (path : Option String) (max : Nat)
      (actions : List Step)
  /-- Subscribes the listener of a handle once more. -/
  | listenAgain (handle : Nat)
  | unlisten (handle : Nat)
  | fail (fault : Fault)
  | executeText (text : String) (offset : Int) (answers : Option (List Bool))
  | executeBatch (entries : List Entry) (answers : Option (List Bool))
  | executeOne (entry : Entry)
  | media (path : String) (media : Media)
  | onLookup (path : String) (max : Nat) (actions : List Step)
  | submit (text : String)
  | cut (time : Double)
  | notify
  | onPass (name : String) (max : Nat) (actions : List Step)
  | onError (name : String) (max : Nat) (actions : List Step)
  | state
  | press (time : Double)
  | preview (time : Double)
  | confirm (time : Double)
  | cancel
  | picker
  | push (text : String)
  | pending
  | flush
  | close
  | advance (ms : Int)
  | expire (timer : Nat)

/-- The name of a step. -/
def Step.name : Step → String
  | add _ => "add"
  | remove _ => "remove"
  | update _ => "update"
  | clear => "clear"
  | get _ => "get"
  | segmentAt _ => "at"
  | overlapping .. => "overlapping"
  | amend .. => "mutate"
  | touch _ => "touch"
  | assembled => "assembled"
  | listen .. => "listen"
  | listenAgain _ => "listen"
  | unlisten _ => "unlisten"
  | fail _ => "raise"
  | executeText .. => "execute"
  | executeBatch .. => "execute"
  | executeOne _ => "execute_one"
  | media .. => "media"
  | onLookup .. => "on_lookup"
  | submit _ => "submit"
  | cut _ => "cut"
  | notify => "notify"
  | onPass .. => "on_pass"
  | onError .. => "on_error"
  | state => "state"
  | press _ => "press"
  | preview _ => "preview"
  | confirm _ => "confirm"
  | cancel => "cancel"
  | picker => "anchor"
  | push _ => "push"
  | pending => "pending"
  | flush => "flush"
  | close => "close"
  | advance _ => "advance"
  | expire _ => "fire"

mutual

/-- A bound on how many reactions and deliveries a step can give rise to. -/
def Step.weight : Step → Nat
  | .listen _ _ _ max actions => max * (weightAll actions + 1)
  | .onLookup _ max actions => max * (weightAll actions + 1)
  | .onPass _ max actions => max * (weightAll actions + 1)
  | .onError _ max actions => max * (weightAll actions + 1)
  | .push text => text.length + 1
  | _ => 0

/-- A bound for a list of steps. -/
def weightAll : List Step → Nat
  | [] => 0
  | step :: rest => step.weight + weightAll rest

end

/-- What a step answers. -/
inductive Reply where
  | nothing
  | segment (segment : Segment)
  | ids (ids : List Int)
  | timeline (timeline : List (Double × Segment)) (duration : Double) (size : Nat)
      (visible : List Int)
  | handle (handle : Nat)
  | report (report : Report)
  | result (result : Result)
  | pass (pass : Pass)
  | flag (flag : Bool)
  | range (start stop : Double)
  | desk (phase : Phase) (fingerprint : Option String) (last : Option (String × Bool))
  | picker (recording : Bool) (pivot : Option Double)

/-- The integers that a result shows. -/
def integersOf (r : Result) : List Int :=
  r.command.line :: r.affected

/-- The integers that a reply shows and that may be of any size. -/
def Reply.integers : Reply → List Int
  | segment s => [s.id]
  | ids l => l
  | timeline placed _ _ visible => placed.map (·.2.id) ++ visible
  | report r => r.results.flatMap integersOf
  | result r => integersOf r
  | pass p => ((p.report.map (·.results)).getD []).flatMap integersOf
  | _ => []

/-- One thing that happened during a step. -/
inductive Item where
  | log (line : String)
  | lookup (path : String)
  | event (kind : EventKind) (listener : String) (segment : Option Segment)
  | pass (listener : String) (executed : Bool) (scenes commands : Nat)
  | error (listener message : String)
  | pushed
  | delivered (text : String)
  | nested (step : String) (reply : Reply)

end Montage.Session
