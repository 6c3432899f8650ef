import Mathlib.Data.List.Pairwise
import Mathlib.Tactic.Common
import Montage.Proofs.Watch.Timers

/-!
# Steps in any order

Pushes, the two steps of flushes, closing, and the expiry of any timer that was ever started
may follow each other in any order.  A `History` keeps the texts that were pushed and those
that were let through.  Whatever the order, each push is let through at most once and while it
is the latest, and a text that is pending is not forgotten: `safe_in_any_order`.
-/

namespace Montage.Coalescer

/-- The steps of those who use a coalescer and of its timers.  A flush has two, and other steps
may come in between. -/
inductive Action where
  | push (text : String)
  | beginFlush
  | endFlush
  /-- A timer that was started expires, perhaps late and although it was cancelled. -/
  | expire (number : Nat)
  | close
  deriving DecidableEq

/-- A coalescer with what has happened to it. -/
structure History where
  coalescer : Coalescer
  /-- The texts that were pushed. -/
  pushed : List String := []
  /-- The texts that were let through, each with the number of pushes by then. -/
  released : List (Nat × String) := []
  /-- The number of flushes that have begun but not ended. -/
  flushing : Nat := 0

namespace History

/-- A coalescer to which nothing has happened. -/
def start (quiet : Int) : History :=
  { coalescer := { quiet } }

/-- A text is let through, if there is one. -/
def passing (h : History) : Coalescer × Option String → History
  | (c, text) =>
    { h with coalescer := c, released := h.released ++ text.toList.map (h.pushed.length, ·) }

theorem passing_none (h : History) (c : Coalescer) :
  h.passing (c, none) = { h with coalescer := c }
  := by
  simp [passing]

/-- What becomes of a history by a step.  A push that fails changes nothing. -/
def step (h : History) : Action → History
  | .push text =>
    match h.coalescer.push text with
    | .ok c => { h with coalescer := c, pushed := h.pushed ++ [text] }
    | .error _ => h
  | .beginFlush => { h with coalescer := h.coalescer.disarm, flushing := h.flushing + 1 }
  | .endFlush =>
    if h.flushing = 0 then h
    else { h.passing h.coalescer.release with flushing := h.flushing - 1 }
  | .expire number =>
    if number < h.coalescer.timers.length then h.passing (h.coalescer.expire number) else h
  | .close => { h with coalescer := h.coalescer.close }

/-- What becomes of a history by steps in a given order. -/
def run (h : History) (actions : List Action) : History :=
  actions.foldl step h

/-! ### Letting through -/

/-- Some of the texts that were pushed are let through, each with the number of pushes up to
its own. -/
inductive Drawn : List (Nat × String) → List String → Prop where
  | nil : Drawn [] []
  | kept {released : List (Nat × String)} {pushed : List String} (h : Drawn released pushed)
    (text : String) : Drawn released (pushed ++ [text])
  | released {released : List (Nat × String)} {pushed : List String} (h : Drawn released pushed)
    (text : String) : Drawn (released ++ [(pushed.length + 1, text)]) (pushed ++ [text])

namespace Drawn

variable {released : List (Nat × String)} {pushed : List String}

theorem sublist (h : Drawn released pushed) :
  (released.map (·.2)).Sublist pushed
  := by
  induction h with
  | nil => apply List.Sublist.refl
  | kept h text ih => apply ih.trans (List.sublist_append_left _ _)
  | released h text ih =>
      rw [List.map_append]
      apply ih.append (List.Sublist.refl _)

theorem number_le (h : Drawn released pushed) :
  ∀ x ∈ released, x.1 ≤ pushed.length
  := by
  induction h with
  | nil => exact nofun
  | kept h text ih =>
      intro x hx
      rw [List.length_append]
      apply Nat.le_add_right_of_le (ih x hx)
  | released h text ih =>
      intro x hx
      rw [List.length_append]
      rcases List.mem_append.mp hx with hx | hx
      · apply Nat.le_add_right_of_le (ih x hx)
      · rw [List.mem_singleton.mp hx]
        apply Nat.le_refl

theorem ascending (h : Drawn released pushed) :
  (released.map (·.1)).Pairwise (· < ·)
  := by
  induction h with
  | nil => apply List.Pairwise.nil
  | kept h text ih => apply ih
  | released h text ih =>
      rw [List.map_append, List.pairwise_append]
      refine ⟨ih, List.pairwise_singleton _ _, ?_⟩
      intro n hn m hm
      obtain ⟨x, hx, rfl⟩ := List.mem_map.mp hn
      rw [List.mem_singleton.mp hm]
      apply Nat.lt_succ_of_le (h.number_le x hx)

/-- Each text is the latest of those that were pushed up to its own push. -/
theorem newest (h : Drawn released pushed) :
  ∀ x ∈ released, (pushed.take x.1).getLast? = some x.2
  := by
  induction h with
  | nil => exact nofun
  | kept h text ih =>
      intro x hx
      rw [List.take_append_of_le_length (h.number_le x hx)]
      apply ih x hx
  | released h text ih =>
      intro x hx
      rcases List.mem_append.mp hx with hx | hx
      · rw [List.take_append_of_le_length (h.number_le x hx)]
        apply ih x hx
      · rw [List.mem_singleton.mp hx, List.take_of_length_le (by simp), List.getLast?_concat]

end Drawn

/-! ### What every step keeps -/

/-- The timer of the last push will still expire. -/
def Outstanding (c : Coalescer) : Prop :=
  ∃ number t, number + 1 = c.timers.length ∧ c.timers[number]? = some t ∧ t.live = true

/-- What is known of a history whatever the steps were. -/
structure Coherent (h : History) : Prop where
  timers : h.coalescer.timers.length = h.pushed.length
  drawn : Drawn h.released h.pushed
  /-- A text that is pending is the latest, and was not let through. -/
  pending : ∀ text, h.coalescer.pending = some text →
    ∃ earlier, h.pushed = earlier ++ [text] ∧ Drawn h.released earlier
  outstanding : h.coalescer.pending.isSome = true → h.flushing = 0 → Outstanding h.coalescer
  closed : h.coalescer.closed = true → h.coalescer.pending = none

theorem length_stop (c : Coalescer) (number : Nat) :
  (c.stop number).timers.length = c.timers.length
  := by
  rw [stop, List.length_modify]

theorem length_disarm (c : Coalescer) :
  ∃ timers, timers.length = c.timers.length
    ∧ c.disarm = { c with timers := timers, armed := none }
  := by
  obtain ⟨timers, hdues, hdisarm⟩ := disarm_eq c
  have hlength := congrArg List.length hdues
  rw [List.length_map, List.length_map] at hlength
  exact ⟨timers, hlength, hdisarm⟩

/-- Another timer that expires does not matter to that of the last push. -/
theorem Outstanding.stop {c : Coalescer} (h : Outstanding c) {number : Nat}
    (hnumber : number + 1 ≠ c.timers.length) :
  Outstanding (c.stop number)
  := by
  obtain ⟨last, t, hlast, ht, hlive⟩ := h
  refine ⟨last, t, by rw [length_stop, hlast], ?_, hlive⟩
  have hne : number ≠ last := by omega
  rw [Coalescer.stop, List.getElem?_modify, ht]
  simp only [if_neg hne]
  rfl

namespace Coherent

variable {h : History} (hh : h.Coherent)

include hh

theorem push (text : String) :
  (h.step (.push text)).Coherent
  := by
  obtain ⟨timers, hlength, hdisarm⟩ := length_disarm h.coalescer
  rw [step, Coalescer.push, hdisarm]
  by_cases hclosed : h.coalescer.closed = true
  · rw [if_pos hclosed]
    exact hh
  · rw [if_neg hclosed]
    constructor
    · simp [hlength, hh.timers]
    · apply hh.drawn.kept
    · intro latest hlatest
      exact ⟨h.pushed, congrArg (h.pushed ++ [·]) (Option.some.inj hlatest), hh.drawn⟩
    · intro _ _
      exact ⟨timers.length, { due := h.coalescer.now + h.coalescer.quiet }, by simp, by simp, rfl⟩
    · intro hclosed'
      exact absurd hclosed' hclosed

theorem beginFlush :
  (h.step .beginFlush).Coherent
  := by
  obtain ⟨timers, hlength, hdisarm⟩ := length_disarm h.coalescer
  rw [step, hdisarm]
  constructor
  · exact hlength.trans hh.timers
  · exact hh.drawn
  · exact hh.pending
  · intro _ hflushing
    exact absurd hflushing (Nat.succ_ne_zero _)
  · exact hh.closed

/-- The pending text is let through: it is the latest, and was not let through before. -/
theorem release {timers : List Timer} (htimers : timers.length = h.coalescer.timers.length)
    (flushing : Nat) :
  Coherent { h.passing { h.coalescer with timers }.release with flushing }
  := by
  rw [passing, Coalescer.release]
  constructor
  · exact htimers.trans hh.timers
  · by_cases hclosed : h.coalescer.closed = true
    · simp only [hclosed, if_true, Option.toList_none, List.map_nil, List.append_nil]
      exact hh.drawn
    · simp only [hclosed, Bool.false_eq_true, if_false]
      cases hpending : h.coalescer.pending with
      | none => simpa using hh.drawn
      | some text =>
          obtain ⟨earlier, hpushed, hdrawn⟩ := hh.pending text hpending
          rw [hpushed, List.length_append]
          apply hdrawn.released
  · intro text hnone
    cases hnone
  · intro hnone
    cases hnone
  · intro _
    rfl

theorem endFlush :
  (h.step .endFlush).Coherent
  := by
  rw [step]
  split
  · exact hh
  · apply hh.release rfl

theorem expire (number : Nat) :
  (h.step (.expire number)).Coherent
  := by
  rw [step]
  split
  · have hlength := length_stop h.coalescer number
    rw [Coalescer.expire, hlength]
    split
    · apply hh.release hlength
    · rename_i hnumber
      rw [passing_none]
      constructor
      · exact hlength.trans hh.timers
      · exact hh.drawn
      · exact hh.pending
      · intro hsome hflushing
        apply (hh.outstanding hsome hflushing).stop hnumber
      · exact hh.closed
  · exact hh

theorem close :
  (h.step .close).Coherent
  := by
  obtain ⟨timers, hlength, hdisarm⟩ := length_disarm h.coalescer
  rw [step, Coalescer.close, hdisarm]
  constructor
  · exact hlength.trans hh.timers
  · exact hh.drawn
  · intro text hnone
    cases hnone
  · intro hnone
    cases hnone
  · intro _
    rfl

theorem step (action : Action) :
  (h.step action).Coherent
  := by
  cases action with
  | push text => apply hh.push
  | beginFlush => apply hh.beginFlush
  | endFlush => apply hh.endFlush
  | expire number => apply hh.expire
  | close => apply hh.close

theorem run (actions : List Action) :
  (h.run actions).Coherent
  := by
  induction actions generalizing h with
  | nil => exact hh
  | cons action rest ih => apply ih (hh.step action)

end Coherent

/-! ### Pushing -/

theorem step_push_of_open {h : History} (hopen : h.coalescer.closed = false) (text : String) :
  (h.step (.push text)).pushed = h.pushed ++ [text]
    ∧ (h.step (.push text)).coalescer.pending = some text
  := by
  rw [History.step, Coalescer.push, hopen, if_neg Bool.false_ne_true]
  exact ⟨rfl, rfl⟩

/-! ### After closing -/

/-- Nothing is pushed or let through once a coalescer is closed. -/
theorem step_of_closed {h : History} (hclosed : h.coalescer.closed = true) (action : Action) :
  (h.step action).coalescer.closed = true ∧ (h.step action).pushed = h.pushed
    ∧ (h.step action).released = h.released
  := by
  cases action with
  | push text =>
      rw [History.step, Coalescer.push, if_pos hclosed]
      exact ⟨hclosed, rfl, rfl⟩
  | beginFlush =>
      obtain ⟨timers, -, hdisarm⟩ := length_disarm h.coalescer
      rw [History.step, hdisarm]
      exact ⟨hclosed, rfl, rfl⟩
  | endFlush =>
      rw [History.step]
      split
      · exact ⟨hclosed, rfl, rfl⟩
      · rw [Coalescer.release, if_pos hclosed, passing_none]
        exact ⟨hclosed, rfl, rfl⟩
  | expire number =>
      have hstop : (h.coalescer.stop number).closed = true := hclosed
      rw [History.step]
      split
      · rw [Coalescer.expire]
        split
        · rw [Coalescer.release, if_pos hstop, passing_none]
          exact ⟨hclosed, rfl, rfl⟩
        · rw [passing_none]
          exact ⟨hclosed, rfl, rfl⟩
      · exact ⟨hclosed, rfl, rfl⟩
  | close => exact ⟨rfl, rfl, rfl⟩

theorem run_of_closed {h : History} (hclosed : h.coalescer.closed = true) (actions : List Action) :
  (h.run actions).coalescer.closed = true ∧ (h.run actions).pushed = h.pushed
    ∧ (h.run actions).released = h.released
  := by
  induction actions generalizing h with
  | nil => exact ⟨hclosed, rfl, rfl⟩
  | cons action rest ih =>
      obtain ⟨hclosed', hpushed, hreleased⟩ := step_of_closed hclosed action
      obtain ⟨hclosed'', hpushed', hreleased'⟩ := ih hclosed'
      exact ⟨hclosed'', hpushed'.trans hpushed, hreleased'.trans hreleased⟩

/-! ### Safety -/

/-- What those who push texts can rely on. -/
structure Safe (h : History) : Prop where
  /-- The texts that were let through were pushed, and in this order. -/
  sublist : (h.released.map (·.2)).Sublist h.pushed
  /-- No push is let through twice. -/
  once : (h.released.map (·.1)).Pairwise (· < ·)
  /-- Each text was the latest when it was let through. -/
  newest : ∀ x ∈ h.released, (h.pushed.take x.1).getLast? = some x.2
  /-- A push on an open coalescer makes its text the latest, and the one that is pending. -/
  opened : h.coalescer.closed = false → ∀ text,
    (h.step (.push text)).pushed = h.pushed ++ [text]
      ∧ (h.step (.push text)).coalescer.pending = some text
  /-- A push on a closed coalescer is a fault and changes nothing. -/
  closed : h.coalescer.closed = true → ∀ text,
    h.coalescer.push text = .error .closed ∧ h.step (.push text) = h
  /-- A text that is pending is the latest, and unless a flush is under way the timer of its
  push will still expire and let it through. -/
  pending : ∀ text, h.coalescer.pending = some text → h.pushed.getLast? = some text
    ∧ (h.flushing = 0 → ∃ number t, number + 1 = h.pushed.length
      ∧ h.coalescer.timers[number]? = some t ∧ t.live = true
      ∧ (h.step (.expire number)).released = h.released ++ [(h.pushed.length, text)])

theorem Coherent.safe {h : History} (hh : h.Coherent) :
  h.Safe
  := by
  constructor
  · apply hh.drawn.sublist
  · apply hh.drawn.ascending
  · apply hh.drawn.newest
  · intro hopen text
    exact step_push_of_open hopen text
  · intro hclosed text
    have hpush : h.coalescer.push text = .error .closed := by
      rw [Coalescer.push, if_pos hclosed]
    refine ⟨hpush, ?_⟩
    rw [History.step, hpush]
  · intro text hpending
    obtain ⟨earlier, hpushed, -⟩ := hh.pending text hpending
    constructor
    · rw [hpushed, List.getLast?_concat]
    · intro hflushing
      obtain ⟨number, t, hnumber, ht, hlive⟩ :=
        hh.outstanding (by rw [hpending]; rfl) hflushing
      have hopen : (h.coalescer.stop number).closed = false := by
        cases hclosed : h.coalescer.closed with
        | false => exact hclosed
        | true =>
            rw [hh.closed hclosed] at hpending
            cases hpending
      have hstop : (h.coalescer.stop number).pending = some text := hpending
      refine ⟨number, t, hnumber.trans hh.timers, ht, hlive, ?_⟩
      rw [History.step, if_pos (by omega), Coalescer.expire, length_stop, if_pos hnumber,
        Coalescer.release, hopen, hstop]
      rfl

/-- In whatever order its steps come, what is let through by a coalescer are texts that were
pushed, in this order, none of them twice, and each while it was the latest.  The text of a push
is pending from then on, and a pending text is the latest and is let through once its timer
expires.  After closing nothing is let through any more, and pushes fail. -/
theorem safe_in_any_order (quiet : Int) (actions : List Action) :
  ((start quiet).run actions).Safe
    ∧ ∀ later : List Action,
      ((start quiet).run (actions ++ .close :: later)).coalescer.closed = true
      ∧ ((start quiet).run (actions ++ .close :: later)).pushed
        = ((start quiet).run actions).pushed
      ∧ ((start quiet).run (actions ++ .close :: later)).released
        = ((start quiet).run actions).released
  := by
  have hstart : (start quiet).Coherent := ⟨rfl, Drawn.nil, nofun, nofun, fun _ => rfl⟩
  have hrun := hstart.run actions
  refine ⟨hrun.safe, ?_⟩
  intro later
  have hsplit : (start quiet).run (actions ++ .close :: later)
      = (((start quiet).run actions).step .close).run later := List.foldl_append
  rw [hsplit]
  apply run_of_closed
  rfl

/-- A push between the two steps of a flush is let through by the flush, and the timer that it
leaves behind does no harm when it expires. -/
example :
  ((start 50).run [.push "a", .beginFlush, .push "ab", .expire 0, .endFlush, .push "abc",
    .expire 1, .expire 2, .close, .push "abcd", .endFlush]).released = [(2, "ab"), (3, "abc")]
  := by decide

end History

end Montage.Coalescer
