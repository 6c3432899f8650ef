import Montage.Proofs.Watch.Timers
import Montage.Session.Run

/-!
# Coalescing on the clock

A coalescer is put on a bench, where texts are pushed and the clock runs, and where each
delivery and each push is noted with the time.  A push is undisturbed if the quiet time passes
before the next push, or before the end.  The texts that are delivered are those of the
undisturbed pushes, each when its quiet time is over: `delivered_undisturbed`.
-/

namespace Montage.Coalescer

/-- A push as those who use a coalescer make it, with a hook that is called afterwards. -/
def Outlet.push {m : Type → Type} [Monad m] [MonadExceptOf Fault m] (o : Outlet m)
    (hook : m Unit) (text : String) : m Unit := do
  let c ← o.read
  let c ← ofExcept (c.push text)
  o.write c
  hook

/-- This is how a session pushes texts. -/
theorem session_push_eq (host : Surroundings Session.State) (text : String) :
  Session.push text = (Session.outlet host).push Session.afterPush text
  := by
  have hofExcept : ∀ x : Except Fault Coalescer,
      (ofExcept x : Session.Act Coalescer) = Desk.ofExcept x := by
    intro x
    cases x <;> rfl
  rw [Outlet.push]
  simp only [hofExcept]
  rfl

/-- Those whom a coalescer serves: what they do with a text that is delivered, and when they
learn of a push.  They may look at the coalescer and may fail, but they do not push. -/
structure Client (σ : Type) where
  deliver : String → Coalescer → σ → Except Fault Unit × σ
  onPush : Coalescer → σ → Except Fault Unit × σ

/-- A coalescer on a bench, with what has been noted. -/
structure Bench (σ : Type) where
  coalescer : Coalescer
  /-- The texts that were delivered, each with the time of its delivery. -/
  delivered : List (Int × String) := []
  /-- The times at which the client learned of a push. -/
  noticed : List Int := []
  /-- The state of the client. -/
  own : σ

/-- What happens on a bench. -/
inductive Tick where
  | push (text : String)
  /-- The clock runs for a number of milliseconds. -/
  | advance (ms : Nat)

namespace Bench

variable {σ : Type} (k : Client σ)

/-- The coalescer of a bench. -/
def outlet : Outlet (EStateM Fault (Bench σ)) where
  read := return (← get).coalescer
  write c := modify fun b => { b with coalescer := c }
  deliver text := do
    let b ← get
    let served := k.deliver text b.coalescer b.own
    set { b with delivered := b.delivered ++ [(b.coalescer.now, text)], own := served.2 }
    return served.1

/-- The client learns of a push. -/
def notice : EStateM Fault (Bench σ) Unit := do
  let b ← get
  let served := k.onPush b.coalescer b.own
  set { b with noticed := b.noticed ++ [b.coalescer.now], own := served.2 }
  ofExcept served.1

/-- What is done when something happens.  `fuel` bounds the number of timers that expire while
the clock runs. -/
def act (fuel : Nat) : Tick → EStateM Fault (Bench σ) Unit
  | .push text => (outlet k).push (notice k) text
  | .advance ms => (outlet k).advance ms fuel

/-- The bench that an operation leaves, whether it succeeds or fails. -/
def left (x : EStateM Fault (Bench σ) Unit) (b : Bench σ) : Bench σ :=
  match x b with
  | .ok _ b' => b'
  | .error _ b' => b'

/-- The bench after things have happened one after the other. -/
def run (fuel : Nat) (ticks : List Tick) (b : Bench σ) : Bench σ :=
  ticks.foldl (fun b tick => left (act k fuel tick) b) b

end Bench

/-! ### Undisturbed pushes -/

/-- The pushes with their times, from a time on. -/
def pushes : Int → List Tick → List (Int × String)
  | _, [] => []
  | now, .push text :: rest => (now, text) :: pushes now rest
  | now, .advance ms :: rest => pushes (now + ms) rest

/-- The time in the end. -/
def clock : Int → List Tick → Int
  | now, [] => now
  | now, .push _ :: rest => clock now rest
  | now, .advance ms :: rest => clock (now + ms) rest

/-- The texts of the pushes after which the quiet time passes before the next push or, after
the last, before the end, each with the time when it has passed. -/
def undisturbed (quiet finish : Int) : List (Int × String) → List (Int × String)
  | [] => []
  | (time, text) :: rest =>
    let next := (rest.head?.map (·.1)).getD finish
    if quiet ≤ next - time then (time + quiet, text) :: undisturbed quiet finish rest
    else undisturbed quiet finish rest

/-- Whether the last push is undisturbed is decided in the end, whether the others are by the
time of the last. -/
theorem undisturbed_concat (quiet finish time : Int) (text : String)
    (earlier : List (Int × String)) :
  undisturbed quiet finish (earlier ++ [(time, text)])
    = undisturbed quiet time earlier
      ++ if quiet ≤ finish - time then [(time + quiet, text)] else []
  := by
  induction earlier with
  | nil => rfl
  | cons p rest ih =>
      obtain ⟨t, s⟩ := p
      have hnext : ((rest ++ [(time, text)]).head?.map (·.1)).getD finish
          = (rest.head?.map (·.1)).getD time := by
        cases rest <;> rfl
      rw [List.cons_append, undisturbed, undisturbed, hnext, ih]
      split <;> rfl

namespace Bench

variable {σ : Type} {k : Client σ} {b : Bench σ} {pushed : List (Int × String)}

/-- What is noted on a bench up to now is what should be, and the text of the last push is
pending exactly as long as its quiet time is not over. -/
structure Exact (b : Bench σ) (pushed : List (Int × String)) : Prop where
  orderly : b.coalescer.Orderly (pushed.map (·.2)) (b.delivered.map (·.2))
  dues : b.coalescer.timers.map (·.due) = pushed.map (·.1 + b.coalescer.quiet)
  delivered : b.delivered = undisturbed b.coalescer.quiet b.coalescer.now pushed
  noticed : b.noticed = pushed.map (·.1)
  pending : b.coalescer.pending.isSome = true
    ↔ ∃ p, pushed.getLast? = some p ∧ b.coalescer.now < p.1 + b.coalescer.quiet

/-! ### Operations on a bench -/

/-- The bench once its coalescer has made a step that may let a text through. -/
def passed (k : Client σ) (b : Bench σ) : Coalescer × Option String → Bench σ
  | (c, none) => { b with coalescer := c }
  | (c, some text) =>
    let served := k.deliver text { c with delivering := true } b.own
    { b with
      coalescer := c.settle served.1
      delivered := b.delivered ++ [(c.now, text)]
      own := served.2 }

theorem pass_eq (p : Coalescer × Option String) :
  (outlet k).pass p b = .ok () (b.passed k p)
  := by
  obtain ⟨c, _ | text⟩ := p <;> rfl

theorem read_eq :
  (outlet k).read b = .ok b.coalescer b
  := rfl

/-- What is done after an operation that succeeds. -/
theorem bind_of_ok {α β : Type} {x : EStateM Fault (Bench σ) α} {a : α} {b' : Bench σ}
    (h : x b = .ok a b') (f : α → EStateM Fault (Bench σ) β) :
  (x >>= f) b = f a b'
  := by
  change EStateM.bind x f b = _
  rw [EStateM.bind, h]

theorem expireUntil_of_none {time : Int} {fuel : Nat} (h : b.coalescer.nextDue? time = none) :
  (outlet k).expireUntil time fuel b = .ok () b
  := by
  cases fuel with
  | zero => rfl
  | succ fuel =>
      rw [Outlet.expireUntil, bind_of_ok read_eq, h]
      rfl

theorem expireUntil_of_some {time : Int} {fuel number : Nat} {timer : Timer}
    (h : b.coalescer.nextDue? time = some (number, timer)) :
  (outlet k).expireUntil time (fuel + 1) b
    = (outlet k).expireUntil time fuel
        (b.passed k ((b.coalescer.moveTo timer.due).expire number))
  := by
  rw [Outlet.expireUntil, bind_of_ok read_eq, h]
  apply bind_of_ok (pass_eq _)

theorem left_advance {ms fuel : Nat} {b' : Bench σ}
    (h : (outlet k).expireUntil (b.coalescer.now + ms) fuel b = .ok () b') :
  left (act k fuel (.advance ms)) b
    = { b' with coalescer := { b'.coalescer with now := b.coalescer.now + ms } }
  := by
  have hadvance : (outlet k).advance ms fuel b
      = .ok () { b' with coalescer := { b'.coalescer with now := b.coalescer.now + ms } } := by
    rw [Outlet.advance, bind_of_ok read_eq]
    apply bind_of_ok h
  rw [left, act, hadvance]

/-- The client learns of a push whether or not it fails then. -/
theorem left_notice :
  left (notice k) b = { b with
    noticed := b.noticed ++ [b.coalescer.now]
    own := (k.onPush b.coalescer b.own).2 }
  := by
  have hnotice : notice k b = (ofExcept (k.onPush b.coalescer b.own).1 :
      EStateM Fault (Bench σ) Unit) { b with
        noticed := b.noticed ++ [b.coalescer.now]
        own := (k.onPush b.coalescer b.own).2 } := rfl
  rw [left, hnotice]
  cases (k.onPush b.coalescer b.own).1 <;> rfl

theorem left_push (fuel : Nat) {text : String} {c : Coalescer}
    (h : b.coalescer.push text = .ok c) :
  ∃ own, left (act k fuel (.push text)) b
    = { b with coalescer := c, noticed := b.noticed ++ [c.now], own := own }
  := by
  have hpush : act k fuel (.push text) b = notice k { b with coalescer := c } := by
    rw [act, Outlet.push, bind_of_ok read_eq, h]
    rfl
  use (k.onPush c b.own).2
  rw [left, hpush]
  apply left_notice

/-! ### What is noted -/

namespace Exact

theorem fresh (quiet now : Int) (own : σ) :
  ({ coalescer := { quiet, now }, own } : Bench σ).Exact []
  := ⟨⟨rfl, Or.inl ⟨rfl, rfl, rfl, rfl, rfl⟩⟩, rfl, rfl, rfl, by simp⟩

/-- A text is pushed. -/
theorem push (h : b.Exact pushed) (hquiet : 0 < b.coalescer.quiet) (fuel : Nat) (text : String) :
  (left (act k fuel (.push text)) b).Exact (pushed ++ [(b.coalescer.now, text)])
    ∧ (left (act k fuel (.push text)) b).coalescer.now = b.coalescer.now
    ∧ (left (act k fuel (.push text)) b).coalescer.quiet = b.coalescer.quiet
  := by
  obtain ⟨c, hpush, horderly, -⟩ := h.orderly.push text
  obtain ⟨own, hleft⟩ := left_push (k := k) fuel hpush
  obtain ⟨timers, hdues, hdisarm⟩ := disarm_eq b.coalescer
  rw [Coalescer.push, if_neg (by simp [h.orderly.isOpen]), hdisarm] at hpush
  cases hpush
  rw [hleft]
  refine ⟨⟨?_, ?_, ?_, ?_, ?_⟩, rfl, rfl⟩
  · rw [List.map_append]
    apply horderly
  · rw [List.map_append, List.map_append, hdues, h.dues]
    rfl
  · dsimp only
    rw [undisturbed_concat, Int.sub_self, if_neg (by omega), List.append_nil, h.delivered]
  · rw [List.map_append, h.noticed]
    rfl
  · have hlater := Int.lt_add_of_pos_right b.coalescer.now hquiet
    simpa using hlater

/-- The clock moves on, but if a text is pending not until its quiet time is over. -/
theorem at_time (h : b.Exact pushed) {time : Int} (htime : b.coalescer.now ≤ time)
    (hpending : ∀ p, b.coalescer.pending.isSome = true → pushed.getLast? = some p →
      time < p.1 + b.coalescer.quiet) :
  ({ b with coalescer := { b.coalescer with now := time } } : Bench σ).Exact pushed
  := by
  have hlast : ∀ p, pushed.getLast? = some p →
      (time < p.1 + b.coalescer.quiet ↔ b.coalescer.now < p.1 + b.coalescer.quiet) := by
    intro p hp
    constructor
    · intro hlt
      omega
    · intro hlt
      apply hpending p (h.pending.mpr ⟨p, hp, hlt⟩) hp
  refine ⟨h.orderly.at htime, h.dues, ?_, h.noticed, ?_⟩
  · rw [h.delivered]
    dsimp only
    rcases List.eq_nil_or_concat pushed with rfl | ⟨before, ⟨t, text⟩, rfl⟩
    · rfl
    · rw [List.concat_eq_append] at hlast ⊢
      have hsame : b.coalescer.quiet ≤ time - t ↔ b.coalescer.quiet ≤ b.coalescer.now - t := by
        have hiff := hlast (t, text) List.getLast?_concat
        dsimp only at hiff
        omega
      rw [undisturbed_concat, undisturbed_concat]
      simp only [hsame]
  · rw [h.pending]
    apply exists_congr
    intro p
    apply and_congr_right
    intro hp
    apply (hlast p hp).symm

/-- While a text is pending it is that of the last push, and its timer is the only one that will
expire by itself. -/
theorem armed (h : b.Exact pushed) {text : String} (hpending : b.coalescer.pending = some text) :
  ∃ before time earlier last, pushed = before ++ [(time, text)]
    ∧ b.coalescer.timers = earlier ++ [last] ∧ (∀ t ∈ earlier, t.live = false)
    ∧ last.live = true ∧ last.due = time + b.coalescer.quiet
    ∧ b.coalescer.now < time + b.coalescer.quiet
  := by
  obtain ⟨-, ⟨-, -, hnone, -⟩ | ⟨earlier, last, text', htimers, hdead, -, hpushed,
    ⟨hlive, -, hsome⟩ | ⟨-, -, hnone, -⟩⟩⟩ := h.orderly
  · rw [hnone] at hpending
    cases hpending
  · obtain rfl := Option.some.inj (hsome.symm.trans hpending)
    obtain ⟨⟨time, s⟩, hlast, hlt⟩ := h.pending.mp (by rw [hpending]; rfl)
    obtain ⟨before, rfl⟩ := List.getLast?_eq_some_iff.mp hlast
    obtain rfl : s = text' := by simpa using hpushed
    have hdue : last.due = time + b.coalescer.quiet := by
      have hdues := congrArg List.getLast? h.dues
      simpa [htimers] using hdues
    exact ⟨before, time, earlier, last, rfl, htimers, hdead, hlive, hdue, hlt⟩
  · rw [hnone] at hpending
    cases hpending

/-- The timer of the last push expires when its quiet time is over. -/
theorem due (h : b.Exact pushed) {text : String} (hpending : b.coalescer.pending = some text)
    {before : List (Int × String)} {time : Int} (hpushed : pushed = before ++ [(time, text)])
    (hnow : b.coalescer.now < time + b.coalescer.quiet) {number : Nat}
    (hnumber : number + 1 = b.coalescer.timers.length) :
  ∃ b', b.passed k ((b.coalescer.moveTo (time + b.coalescer.quiet)).expire number) = b'
    ∧ b'.Exact pushed ∧ b'.coalescer.now = time + b.coalescer.quiet
    ∧ b'.coalescer.quiet = b.coalescer.quiet ∧ b'.coalescer.pending = none
  := by
  have hmoved : b.coalescer.moveTo (time + b.coalescer.quiet)
      = { b.coalescer with now := time + b.coalescer.quiet } := by
    rw [moveTo, Int.max_eq_right (Int.le_of_lt hnow)]
  obtain ⟨horderly, -, -⟩ := (h.orderly.at (Int.le_of_lt hnow)).expire number
  have hdues := dues_expire { b.coalescer with now := time + b.coalescer.quiet } number
  have hexpire := expire_last (c := { b.coalescer with now := time + b.coalescer.quiet })
    h.orderly.isOpen hnumber
  rw [hpending] at hexpire
  rw [hexpire] at horderly hdues
  rw [hmoved, hexpire]
  refine ⟨_, rfl, ⟨?_, ?_, ?_, h.noticed, ?_⟩, rfl, rfl, rfl⟩
  · rw [passed, List.map_append]
    apply horderly.delivering
  · exact hdues.trans h.dues
  · have hearlier := h.delivered
    rw [hpushed, undisturbed_concat, if_neg (by omega), List.append_nil] at hearlier
    change b.delivered ++ [(time + b.coalescer.quiet, text)]
      = undisturbed b.coalescer.quiet (time + b.coalescer.quiet) pushed
    rw [hpushed, undisturbed_concat, if_pos (by omega), hearlier]
  · constructor
    · intro hnone
      cases hnone
    · rintro ⟨p, hp, hlt⟩
      rw [hpushed, List.getLast?_concat] at hp
      cases hp
      exact absurd hlt (Int.lt_irrefl _)

end Exact

/-- The clock runs. -/
theorem Exact.advance (h : b.Exact pushed) (ms : Nat) {fuel : Nat} (hfuel : 0 < fuel) :
  (left (act k fuel (.advance ms)) b).Exact pushed
    ∧ (left (act k fuel (.advance ms)) b).coalescer.now = b.coalescer.now + ms
    ∧ (left (act k fuel (.advance ms)) b).coalescer.quiet = b.coalescer.quiet
  := by
  -- Without a pending text there is no timer left that could expire.
  have hidle : ∀ b' : Bench σ, b'.Exact pushed → b'.coalescer.pending = none →
      b'.coalescer.nextDue? (b.coalescer.now + ms) = none := by
    intro b' h' hnone
    rcases h'.orderly.nextDue? (b.coalescer.now + ms) with hnext | ⟨_, _, -, -, -, hsome⟩
    · exact hnext
    · rw [hnone] at hsome
      cases hsome
  have hlater : b.coalescer.now ≤ b.coalescer.now + ms := by omega
  cases hpending : b.coalescer.pending with
  | none =>
      rw [left_advance (expireUntil_of_none (hidle b h hpending))]
      refine ⟨h.at_time hlater ?_, rfl, rfl⟩
      intro p hsome
      rw [hpending] at hsome
      cases hsome
  | some text =>
      obtain ⟨before, time, earlier, last, hpushed, htimers, hdead, hlive, hdue, hnow⟩ :=
        h.armed hpending
      have hnext : b.coalescer.nextDue? (b.coalescer.now + ms)
          = if last.due ≤ b.coalescer.now + ms then some (earlier.length, last) else none := by
        rw [nextDue?, htimers, liveFrom_append 0 hdead, if_pos hlive]
        by_cases hover : last.due ≤ b.coalescer.now + ms <;> simp [hover]
      by_cases hover : last.due ≤ b.coalescer.now + ms
      · have hnumber : earlier.length + 1 = b.coalescer.timers.length := by simp [htimers]
        obtain ⟨n, rfl⟩ := Nat.exists_eq_succ_of_ne_zero (Nat.ne_of_gt hfuel)
        obtain ⟨b', hb', h', hnow', hquiet', hnone⟩ :=
          h.due (k := k) hpending hpushed hnow hnumber
        rw [if_pos hover] at hnext
        have hexpire : (outlet k).expireUntil (b.coalescer.now + ms) (n + 1) b = .ok () b' := by
          rw [expireUntil_of_some hnext, hdue, hb', expireUntil_of_none (hidle b' h' hnone)]
        rw [left_advance hexpire]
        refine ⟨h'.at_time (by omega) ?_, rfl, hquiet'⟩
        intro p hsome
        rw [hnone] at hsome
        cases hsome
      · rw [if_neg hover] at hnext
        rw [left_advance (expireUntil_of_none hnext)]
        refine ⟨h.at_time hlater ?_, rfl, rfl⟩
        intro p _ hp
        rw [hpushed, List.getLast?_concat] at hp
        cases hp
        omega

/-- Whatever happens, what is noted is what should be. -/
theorem Exact.run (h : b.Exact pushed) (hquiet : 0 < b.coalescer.quiet) {fuel : Nat}
    (hfuel : 0 < fuel) (ticks : List Tick) :
  (Bench.run k fuel ticks b).Exact (pushed ++ pushes b.coalescer.now ticks)
    ∧ (Bench.run k fuel ticks b).coalescer.now = clock b.coalescer.now ticks
    ∧ (Bench.run k fuel ticks b).coalescer.quiet = b.coalescer.quiet
  := by
  induction ticks generalizing b pushed with
  | nil =>
      rw [pushes, List.append_nil]
      exact ⟨h, rfl, rfl⟩
  | cons tick rest ih =>
      cases tick with
      | push text =>
          obtain ⟨h', hnow, hsame⟩ := h.push (k := k) hquiet fuel text
          have hrest := ih h' (hsame ▸ hquiet)
          rw [hnow, hsame, List.append_assoc] at hrest
          exact hrest
      | advance ms =>
          obtain ⟨h', hnow, hsame⟩ := h.advance (k := k) ms hfuel
          have hrest := ih h' (hsame ▸ hquiet)
          rw [hnow, hsame] at hrest
          exact hrest

end Bench

/-- Coalescing is exact.  On a fresh coalescer with a positive quiet time, the texts that are
delivered are those of the pushes after which the quiet time passes before the next push or
before the end, in order, each when its quiet time is over and once; and the client learns of
each push once, when it is made. -/
theorem delivered_undisturbed {σ : Type} (k : Client σ) {quiet : Int} (hquiet : 0 < quiet)
    {fuel : Nat} (hfuel : 0 < fuel) (now : Int) (own : σ) (ticks : List Tick) :
  (Bench.run k fuel ticks { coalescer := { quiet, now }, own }).delivered
      = undisturbed quiet (clock now ticks) (pushes now ticks)
    ∧ (Bench.run k fuel ticks { coalescer := { quiet, now }, own }).noticed
      = (pushes now ticks).map (·.1)
  := by
  obtain ⟨hexact, hnow, hsame⟩ :=
    (Bench.Exact.fresh quiet now own).run (k := k) hquiet hfuel ticks
  have hdelivered := hexact.delivered
  rw [hnow, hsame] at hdelivered
  exact ⟨hdelivered, hexact.noticed⟩

/-- A client that fails whenever it is called, and counts the texts it got. -/
def refusing : Client Nat where
  deliver text _ n := (.error (.refused text), n + 1)
  onPush _ n := (.error .closed, n)

/-- Pushes of which the second is undisturbed to the millisecond and the third is one short. -/
def burst : List Tick :=
  [.push "a", .advance 20, .push "ab", .advance 50, .push "abc", .advance 49, .push "abcd",
    .advance 60]

theorem delivered_undisturbed_burst :
  (0 : Int) < 50 ∧ 0 < 1
    ∧ (Bench.run refusing 1 burst { coalescer := { quiet := 50 }, own := 0 }).delivered
      = [(70, "ab"), (169, "abcd")]
    ∧ (Bench.run refusing 1 burst { coalescer := { quiet := 50 }, own := 0 }).noticed
      = [0, 20, 70, 119]
  := by
  obtain ⟨hdelivered, hnoticed⟩ := delivered_undisturbed refusing (by decide : (0 : Int) < 50)
    (by decide : 0 < 1) 0 0 burst
  refine ⟨by decide, by decide, hdelivered.trans (by decide), hnoticed.trans (by decide)⟩

end Montage.Coalescer
