import Montage.Proofs.Coalescer.Interleaving
import Montage.Session.Run

/-!
# Flushes at rest

Texts that were let through are delivered one after the other.  A delivery takes its time, may
fail, and leaves room for all other steps.  A coalescer is at rest if no text is pending and all
deliveries have ended.  A flush at rest delivers nothing and changes nothing, but it has the
outcome of the last delivery: one that failed is reported by every flush until another text has
been delivered, `flush_at_rest`.
-/

namespace Montage.Coalescer

/-- What happens to a coalescer and to the deliveries of its texts. -/
inductive Happening where
  | step (action : Action)
  /-- The clock shows a time. -/
  | clock (now : Int)
  /-- The next of the texts that were let through is being delivered from now on. -/
  | begin
  /-- The delivery under way ends. -/
  | finish (outcome : Except Fault Unit)

/-- A coalescer with what has happened to it and to its deliveries. -/
structure Service where
  history : History
  /-- How the deliveries have ended that have, in order. -/
  outcomes : List (Except Fault Unit) := []

namespace Service

/-- A coalescer to which nothing has happened. -/
def start (quiet : Int) : Service :=
  { history := .start quiet }

/-- The coalescer replaced by another one. -/
def withCoalescer (s : Service) (c : Coalescer) : Service :=
  { s with history := { s.history with coalescer := c } }

/-- What becomes of a service when something happens.  Deliveries do not overlap. -/
def happen (s : Service) : Happening → Service
  | .step action => { s with history := s.history.step action }
  | .clock now => s.withCoalescer { s.history.coalescer with now := now }
  | .begin =>
    if s.outcomes.length < s.history.released.length ∧ ¬ s.history.coalescer.delivering then
      s.withCoalescer { s.history.coalescer with delivering := true }
    else s
  | .finish outcome =>
    if s.history.coalescer.delivering then
      { s.withCoalescer (s.history.coalescer.settle outcome) with
        outcomes := s.outcomes ++ [outcome] }
    else s

/-- What becomes of a service when things happen one after the other. -/
def run (s : Service) (happenings : List Happening) : Service :=
  happenings.foldl happen s

/-- No text is pending, and all deliveries have ended. -/
structure AtRest (s : Service) : Prop where
  pending : s.history.coalescer.pending = none
  delivered : s.outcomes.length = s.history.released.length

/-- How the last delivery has ended; well, if there was none. -/
def lastOutcome (s : Service) : Except Fault Unit :=
  s.outcomes.getLast?.getD (.ok ())

/-! ### What is kept -/

/-- A coalescer without a pending text has no timer to cancel. -/
def Attended (c : Coalescer) : Prop :=
  c.pending = none → c.armed = none

end Service

open Service (Attended)

/-- A step leaves the outcome of the last delivery alone, and a timer is armed only while a text
is pending. -/
theorem History.step_keeps {h : History} (hattended : Attended h.coalescer) (action : Action) :
  Attended (h.step action).coalescer
    ∧ (h.step action).coalescer.lastOutcome = h.coalescer.lastOutcome
  := by
  obtain ⟨timers, -, hdisarm⟩ := length_disarm h.coalescer
  cases action with
  | push text =>
      rw [step, Coalescer.push, hdisarm]
      by_cases hclosed : h.coalescer.closed = true
      · rw [if_pos hclosed]
        exact ⟨hattended, rfl⟩
      · rw [if_neg hclosed]
        refine ⟨?_, rfl⟩
        intro hnone
        cases hnone
  | beginFlush =>
      rw [step, hdisarm]
      exact ⟨fun _ => rfl, rfl⟩
  | endFlush =>
      rw [step]
      split
      · exact ⟨hattended, rfl⟩
      · exact ⟨fun _ => rfl, rfl⟩
  | expire number =>
      rw [step]
      split
      · rw [Coalescer.expire]
        split
        · exact ⟨fun _ => rfl, rfl⟩
        · exact ⟨hattended, rfl⟩
      · exact ⟨hattended, rfl⟩
  | close =>
      rw [step, Coalescer.close, hdisarm]
      exact ⟨fun _ => rfl, rfl⟩

namespace Service

/-- The outcome that a coalescer keeps is that of the last delivery. -/
structure Faithful (s : Service) : Prop where
  attended : Attended s.history.coalescer
  last : s.history.coalescer.lastOutcome = s.outcomes.getLast?

theorem faithful_start (quiet : Int) :
  (start quiet).Faithful
  := ⟨fun _ => rfl, rfl⟩

theorem Faithful.happen {s : Service} (h : s.Faithful) (happening : Happening) :
  (s.happen happening).Faithful
  := by
  cases happening with
  | step action =>
      obtain ⟨hattended, hlast⟩ := History.step_keeps h.attended action
      exact ⟨hattended, hlast.trans h.last⟩
  | clock now => exact ⟨h.attended, h.last⟩
  | begin =>
      rw [Service.happen]
      split
      · exact ⟨h.attended, h.last⟩
      · exact h
  | finish outcome =>
      rw [Service.happen]
      split
      · exact ⟨h.attended, List.getLast?_concat.symm⟩
      · exact h

theorem Faithful.run {s : Service} (h : s.Faithful) (happenings : List Happening) :
  (s.run happenings).Faithful
  := by
  induction happenings generalizing s with
  | nil => exact h
  | cons happening rest ih => apply ih (h.happen happening)

end Service

/-! ### Flushing -/

variable {σ : Type} {o : Outlet (EStateM Fault σ)} {view : σ → Coalescer}

/-- An outlet that reaches the coalescer of a state: reading changes nothing, and neither does
writing what was read. -/
structure Outlet.Reaches (o : Outlet (EStateM Fault σ)) (view : σ → Coalescer) : Prop where
  read : ∀ s, o.read s = .ok (view s) s
  write : ∀ s, o.write (view s) s = .ok () s

theorem reaches_session (host : Surroundings Session.State) :
  (Session.outlet host).Reaches (·.surroundings.coalescer)
  := ⟨fun _ => rfl, fun _ => rfl⟩

section

variable {c : Coalescer} (hpending : c.pending = none) (harmed : c.armed = none)

include harmed in
theorem disarm_eq_self :
  c.disarm = c
  := by rw [disarm, harmed]

include hpending harmed in
theorem release_eq_self :
  c.release = (c, none)
  := by
  cases c
  simp_all [release]

end

/-- A flush of a coalescer that has nothing pending and no timer armed. -/
theorem Outlet.Reaches.flush_eq (ho : o.Reaches view) {s : σ} (hpending : (view s).pending = none)
    (harmed : (view s).armed = none) :
  o.flush s = .ok ((view s).lastOutcome.getD (.ok ())) s
  := by
  simp only [Outlet.flush, bind, EStateM.bind, ho.read, disarm_eq_self harmed,
    release_eq_self hpending harmed, Outlet.pass, ho.write, pure, EStateM.pure]

/-- Whatever has happened to a coalescer, a flush at rest has the outcome of the last delivery. -/
theorem Outlet.Reaches.flush_of_atRest (ho : o.Reaches view) {quiet : Int}
    {happenings : List Happening} {s : σ}
    (hview : view s = ((Service.start quiet).run happenings).history.coalescer)
    (hrest : ((Service.start quiet).run happenings).AtRest) :
  o.flush s = .ok ((Service.start quiet).run happenings).lastOutcome s
  := by
  have hfaithful := (Service.faithful_start quiet).run happenings
  have harmed := hfaithful.attended hrest.pending
  rw [ho.flush_eq (hview ▸ hrest.pending) (hview ▸ harmed), hview, hfaithful.last]
  rfl

/-- Whatever has happened to a coalescer, a flush at rest delivers nothing and leaves everything
as it is, and it has the outcome of the last delivery.  So it fails if and only if there has been
a delivery and the last one has failed, and then all later flushes at rest fail in the same way
until another delivery has ended. -/
theorem flush_at_rest (quiet : Int) (happenings : List Happening) (ho : o.Reaches view) {s : σ}
    (hview : view s = ((Service.start quiet).run happenings).history.coalescer)
    (hrest : ((Service.start quiet).run happenings).AtRest) :
  o.flush s = .ok ((Service.start quiet).run happenings).lastOutcome s
    ∧ (o.flush s = .ok (.ok ()) s
      ↔ ∀ f, ((Service.start quiet).run happenings).outcomes.getLast? ≠ some (.error f))
    ∧ ∀ (later : List Happening) (s' : σ),
      view s' = ((Service.start quiet).run (happenings ++ later)).history.coalescer →
      ((Service.start quiet).run (happenings ++ later)).AtRest →
      ((Service.start quiet).run (happenings ++ later)).outcomes
        = ((Service.start quiet).run happenings).outcomes →
      o.flush s' = .ok ((Service.start quiet).run happenings).lastOutcome s'
  := by
  have hflush := ho.flush_of_atRest hview hrest
  refine ⟨hflush, ?_, ?_⟩
  · rw [hflush, Service.lastOutcome]
    cases ((Service.start quiet).run happenings).outcomes.getLast? with
    | none => simp
    | some outcome => cases outcome <;> simp
  · intro later s' hview' hrest' hsame
    rw [ho.flush_of_atRest hview' hrest', Service.lastOutcome, hsame]
    rfl

/-- A text is being delivered while the next one is pushed and let through.  The first delivery
ends well and the second one does not. -/
def refusedLate : List Happening :=
  [.step (.push "a"), .clock 500, .step (.expire 0), .begin, .step (.push "!b"),
    .step .beginFlush, .step .endFlush, .begin, .finish (.ok ()), .begin,
    .finish (.error (.refused "!b"))]

/-- A flush, and another push before the coalescer is closed. -/
def closedThen : List Happening :=
  [.step .beginFlush, .step .endFlush, .step (.push "c"), .step .close]

/-- A session whose coalescer has gone through given things. -/
def deskAfter (happenings : List Happening) : Desk Session.State :=
  { surroundings := { coalescer := ((Service.start 500).run happenings).history.coalescer } }

theorem flush_at_rest_refused :
  ((Service.start 500).run refusedLate).AtRest
    ∧ ((Service.start 500).run refusedLate).history.released = [(1, "a"), (2, "!b")]
    ∧ (Session.outlet (Session.surroundings 1 1)).flush (deskAfter refusedLate)
      = .ok (.error (.refused "!b")) (deskAfter refusedLate)
    ∧ ((Service.start 500).run (refusedLate ++ closedThen)).AtRest
    ∧ (Session.outlet (Session.surroundings 1 1)).flush (deskAfter (refusedLate ++ closedThen))
      = .ok (.error (.refused "!b")) (deskAfter (refusedLate ++ closedThen))
  := by
  have hrest : ((Service.start 500).run refusedLate).AtRest := ⟨by decide, by decide⟩
  have hrest' : ((Service.start 500).run (refusedLate ++ closedThen)).AtRest :=
    ⟨by decide, by decide⟩
  obtain ⟨hflush, -, hlater⟩ := flush_at_rest 500 refusedLate
    (reaches_session (Session.surroundings 1 1)) (s := deskAfter refusedLate) rfl hrest
  exact ⟨hrest, by decide, hflush, hrest', hlater closedThen _ rfl hrest' rfl⟩

/-- A text that is refused when it is delivered by a flush.  Nothing is pending any more and
nothing is being delivered, but the next flush fails like the first one. -/
theorem refusal_reported_again :
  Session.run false { target := .record, onPush := .none } [.push "!x", .flush, .pending, .flush]
    = [⟨.ok .nothing, [], [], none, .idle⟩,
      ⟨.error (.refused "!x"), [.delivered "!x"], [], none, .idle⟩,
      ⟨.ok (.flag false), [], [], none, .idle⟩,
      ⟨.error (.refused "!x"), [], [], none, .idle⟩]
  := by rfl

end Montage.Coalescer
