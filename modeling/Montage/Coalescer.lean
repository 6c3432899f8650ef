import Montage.Double.Arith
import Montage.Fault

/-!
# Coalescing bursts of texts

A `Coalescer` takes texts that are pushed in bursts and lets through the latest one when no
push has come for a quiet time.  Each push starts a timer and cancels the one before, and a
timer that expires although it was cancelled finds that its push is no longer the latest.
`push`, `disarm`, `release`, `expire` and `close` are the steps that happen without
interruption; a flush is `disarm` followed by `release`.

Deliveries are made one after the other, and the outcome of the last one is kept.  The
clock counts milliseconds, and `advance` lets it run.  Closing waits for the deliveries to
end.
-/

namespace Montage

/-- A timer: when it expires, and whether it still will. -/
structure Timer where
  due : Int
  live : Bool := true
  deriving DecidableEq

/-- The state of a coalescer. -/
structure Coalescer where
  /-- The quiet time in milliseconds. -/
  quiet : Int
  /-- The time on the clock. -/
  now : Int := 0
  /-- The latest text, until it is let through. -/
  pending : Option String := none
  /-- The timers of all pushes, in order. -/
  timers : List Timer := []
  /-- The number of the timer that the next push cancels. -/
  armed : Option Nat := none
  closed : Bool := false
  /-- Whether a delivery is under way. -/
  delivering : Bool := false
  /-- How the last delivery ended, if there has been one. -/
  lastOutcome : Option (Except Fault Unit) := none

namespace Coalescer

/-- A coalescer with a quiet time that can be expressed in seconds. -/
def create (quiet : Int) : Except Fault Coalescer :=
  if (Double.quotient quiet 1000).isFinite then .ok { quiet } else .error .quotientTooLarge

/-- The timer of a number will not expire by itself any more. -/
def stop (c : Coalescer) (number : Nat) : Coalescer :=
  { c with timers := c.timers.modify number fun t => { t with live := false } }

/-- Cancels the armed timer, the first step of a flush. -/
def disarm (c : Coalescer) : Coalescer :=
  match c.armed with
  | none => c
  | some number => { c.stop number with armed := none }

/-- A text pushed: it becomes the pending one, and its timer the armed one. -/
def push (c : Coalescer) (text : String) : Except Fault Coalescer :=
  if c.closed then .error .closed
  else
    let c := c.disarm
    .ok { c with
      pending := some text
      timers := c.timers ++ [{ due := c.now + c.quiet }]
      armed := some c.timers.length }

/-- Lets the pending text through, if there is one: the second step of a flush. -/
def release (c : Coalescer) : Coalescer × Option String :=
  let text := if c.closed then none else c.pending
  ({ c with armed := none, pending := none }, text)

/-- The timer of a number expires, which it may also do late.  Unless a later push has
started another timer, it lets the pending text through. -/
def expire (c : Coalescer) (number : Nat) : Coalescer × Option String :=
  let c := c.stop number
  if number + 1 = c.timers.length then c.release else (c, none)

/-- No text is let through any more. -/
def close (c : Coalescer) : Coalescer :=
  { c.disarm with closed := true, pending := none }

/-- A delivery has ended. -/
def settle (c : Coalescer) (outcome : Except Fault Unit) : Coalescer :=
  { c with delivering := false, lastOutcome := some outcome }

/-- The clock set to a time, unless it is later already. -/
def moveTo (c : Coalescer) (time : Int) : Coalescer :=
  { c with now := max c.now time }

/-- The live timers with their numbers, from a number on. -/
def liveFrom : Nat → List Timer → List (Nat × Timer)
  | _, [] => []
  | number, t :: rest =>
    if t.live then (number, t) :: liveFrom (number + 1) rest else liveFrom (number + 1) rest

/-- Of two numbered timers the one that is due earlier, and the first if they are due at the
same time. -/
def earlier (a b : Nat × Timer) : Nat × Timer :=
  if b.2.due < a.2.due then b else a

/-- The next timer to expire by a given time: the earliest, and of several the oldest. -/
def nextDue? (c : Coalescer) (time : Int) : Option (Nat × Timer) :=
  match (liveFrom 0 c.timers).filter (·.2.due ≤ time) with
  | [] => none
  | t :: rest => some (rest.foldl earlier t)

/-! ### Running -/

/-- How a coalescer is reached, and where its texts go. -/
structure Outlet (m : Type → Type) where
  read : m Coalescer
  write : Coalescer → m Unit
  /-- Delivers a text; the outcome of the delivery. -/
  deliver : String → m (Except Fault Unit)

namespace Outlet

variable {m : Type → Type} [Monad m] (o : Outlet m)

/-- Delivers a text that was let through, if any, and keeps the outcome. -/
def pass : Coalescer × Option String → m Unit
  | (c, none) => o.write c
  | (c, some text) => do
    o.write { c with delivering := true }
    let outcome ← o.deliver text
    let c ← o.read
    o.write (c.settle outcome)

/-- The timer of a number expires; nothing happens if there is none. -/
def expire (number : Nat) : m Unit := do
  let c ← o.read
  if number < c.timers.length then pass o (c.expire number) else return ()

/-- Lets the timers expire that are due by a time, each when the clock has come to it. -/
def expireUntil (time : Int) : Nat → m Unit
  | 0 => return ()
  | fuel + 1 => do
    let c ← o.read
    match c.nextDue? time with
    | none => return ()
    | some (number, timer) =>
      pass o ((c.moveTo timer.due).expire number)
      expireUntil time fuel

/-- Lets the clock run for a number of milliseconds.  `fuel` bounds the number of timers
that expire. -/
def advance (ms : Int) (fuel : Nat) : m Unit := do
  let c ← o.read
  let time := c.now + ms
  expireUntil o time fuel
  let c ← o.read
  o.write { c with now := time }

/-- Delivers the pending text at once; the outcome of the last delivery. -/
def flush : m (Except Fault Unit) := do
  let c ← o.read
  o.write c.disarm
  let c ← o.read
  pass o c.release
  let c ← o.read
  return c.lastOutcome.getD (.ok ())

/-- Closes for good.  A delivery under way would have to be waited for, which it cannot do
itself: closing takes effect then too, but is a fault. -/
def close : m (Except Fault Unit) := do
  let c ← o.read
  o.write c.close
  return if c.delivering then .error .closedFromWithin else .ok ()

end Outlet

end Coalescer

end Montage
