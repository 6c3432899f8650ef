import Montage.Coalescer
import Montage.Proofs.Desk.Outcome

/-!
# Watching a text

A text that is being edited is pushed to a coalescer, and each push counts as a change of the
document.  Texts that the coalescer lets through wait for a single worker, which evaluates
them one after the other.  While a media file is looked up for an evaluation under way the
world does not stand still: texts are pushed, the clock runs, and timers expire, which may
happen late.
-/

namespace Montage

/-- Something that happens to the coalescer of a watch. -/
inductive Nudge where
  /-- A text is pushed. -/
  | push (text : String)
  /-- The clock runs for a number of milliseconds. -/
  | advance (ms : Nat)
  /-- The timer of a number expires, whether or not it was cancelled. -/
  | expire (number : Nat)

/-- The state of a watch beside the desk.  Those who follow the desk have a state of their
own. -/
structure Watch (σ : Type) where
  coalescer : Coalescer
  /-- The texts that were pushed so far. -/
  pushed : List String := []
  /-- The texts that were let through so far. -/
  released : List String := []
  /-- How many of them the worker has taken up. -/
  taken : Nat := 0
  /-- The texts that were evaluated so far, each with what came of it. -/
  evaluated : List (String × Option Pass) := []
  /-- What happens during each of the coming lookups. -/
  plan : List (List Nudge) := []
  own : σ

variable {σ : Type}

namespace Watch

/-- The texts that wait for the worker. -/
def waiting (w : Watch σ) : List String :=
  w.released.drop w.taken

/-- Changes the state of the watch. -/
def change (f : Watch σ → Watch σ) : Run (Watch σ) Unit :=
  modify fun d => { d with surroundings := f d.surroundings }

/-- A desk on which nothing has changed but who follows it, and their own state. -/
def Aside (d d' : Desk (Watch σ)) : Prop :=
  d' = { d with
    listeners := d'.listeners
    passListeners := d'.passListeners
    errorListeners := d'.errorListeners
    surroundings := { d.surroundings with own := d'.surroundings.own } }

/-- An operation that stands aside: it changes nothing but who follows the desk, and their own
state, and it raises nothing. -/
def Aloof {α : Type} (x : Run (Watch σ) α) : Prop :=
  ∀ d, Desk.Meets x d (fun _ => Aside d) (fun _ _ => False)

/-- The coalescer of a watch.  A text that is let through waits for the worker. -/
def outlet : Coalescer.Outlet (Run (Watch σ)) where
  read := return (← get).surroundings.coalescer
  write c := change fun w => { w with coalescer := c }
  deliver text := do
    change fun w => { w with released := w.released ++ [text] }
    return .ok ()

end Watch

namespace Nudge

/-- Lets something happen to the coalescer.  It takes every push unless it was closed, which a
watch that goes on never does. -/
def perform : Nudge → Run (Watch σ) Unit
  | push text => do
    let c ← Watch.outlet.read
    match c.push text with
    | .ok c =>
      Watch.change fun w => { w with coalescer := c, pushed := w.pushed ++ [text] }
      Desk.noteChange
    | .error _ => return ()
  | advance ms => do
    let c ← Watch.outlet.read
    Watch.outlet.advance ms c.timers.length
  | expire number => Watch.outlet.expire number

/-- Lets things happen one after the other. -/
def performAll : List Nudge → Run (Watch σ) Unit
  | [] => return ()
  | n :: rest => do
    n.perform
    performAll rest

end Nudge

/-- Those who follow a desk whose text is watched.  They stand aside, as does the hook that is
called before a lookup. -/
structure Audience (σ : Type) where
  log : String → σ → σ
  onEvent : Nat → Event → Run (Watch σ) Unit
  onPass : Nat → Pass → Run (Watch σ) Unit
  onError : Nat → String → Run (Watch σ) Unit
  onLookup : String → Run (Watch σ) Unit
  aloof_onEvent : ∀ listener event, Watch.Aloof (onEvent listener event)
  aloof_onPass : ∀ listener pass, Watch.Aloof (onPass listener pass)
  aloof_onError : ∀ listener message, Watch.Aloof (onError listener message)
  aloof_onLookup : ∀ path, Watch.Aloof (onLookup path)

namespace Watch

variable (a : Audience σ) (media : String → Except Fault Double)

/-- What is planned for a lookup happens. -/
def disturb : Run (Watch σ) Unit := do
  let d ← get
  match d.surroundings.plan with
  | [] => return ()
  | now :: rest =>
    change fun w => { w with plan := rest }
    Nudge.performAll now

/-- What happens before a file is looked up. -/
def hook (path : String) : Run (Watch σ) Unit := do
  a.onLookup path
  disturb

/-- The surroundings of a desk whose text is watched. -/
def surroundings : Surroundings (Watch σ) where
  log line w := { w with own := a.log line w.own }
  onEvent := a.onEvent
  onPass := a.onPass
  onError := a.onError
  lookup path := do
    hook a path
    Desk.ofExcept (media path)

/-- The worker evaluates the first text that waits for it, while things happen as planned. -/
def serve (plan : List (List Nudge)) : Run (Watch σ) Unit := do
  let d ← get
  match d.surroundings.waiting with
  | [] => return ()
  | text :: _ =>
    change fun w => { w with taken := w.taken + 1, plan := plan }
    let result ← Desk.submit (surroundings a media) text
    change fun w => { w with evaluated := w.evaluated ++ [(text, result)], plan := [] }

/-- What happens next in a watch: something between evaluations, or an evaluation. -/
inductive Step where
  | nudge (n : Nudge)
  | serve (plan : List (List Nudge))

/-- Carries out a step. -/
def Step.act : Step → Run (Watch σ) Unit
  | nudge n => n.perform
  | serve plan => Watch.serve a media plan

/-- The desk after given steps. -/
def after (steps : List Step) (d : Desk (Watch σ)) : Desk (Watch σ) :=
  steps.foldl (fun d step => Desk.after (step.act a media) d) d

end Watch

end Montage
