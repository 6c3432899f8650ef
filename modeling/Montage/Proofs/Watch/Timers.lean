import Mathlib.Tactic.Common
import Montage.Coalescer

/-!
# The timers of a coalescer

Of all timers only the one of the last push can still expire by itself, and it can as long as
the text pushed last is pending.  `Coalescer.Orderly` states this of a coalescer and the texts
that were pushed and let through so far; every step keeps it.
-/

namespace Montage.Coalescer

/-- A coalescer whose last push is still to come, or has been let through. -/
structure Orderly (c : Coalescer) (pushed released : List String) : Prop where
  isOpen : c.closed = false
  latest :
    (c.timers = [] ∧ c.armed = none ∧ c.pending = none ∧ pushed = [] ∧ released = [])
    ∨ ∃ earlier last text, c.timers = earlier ++ [last] ∧ (∀ t ∈ earlier, t.live = false)
      ∧ last.due ≤ c.now + c.quiet ∧ pushed.getLast? = some text
      ∧ ((last.live = true ∧ c.armed = some earlier.length ∧ c.pending = some text)
        ∨ (last.live = false ∧ c.armed = none ∧ c.pending = none
          ∧ released.getLast? = some text))

variable {c : Coalescer} {pushed released : List String}

theorem orderly_start (quiet : Int) :
  ({ quiet } : Coalescer).Orderly [] []
  := ⟨rfl, Or.inl ⟨rfl, rfl, rfl, rfl, rfl⟩⟩

/-- Timers are stopped one at a time. -/
theorem modify_last {earlier : List Timer} {last : Timer} (f : Timer → Timer) :
  (earlier ++ [last]).modify earlier.length f = earlier ++ [f last]
  := by
  induction earlier with
  | nil => rfl
  | cons t rest ih =>
      rw [List.cons_append, List.length_cons, List.modify_succ_cons, ih, List.cons_append]

/-- Stopping any other timer changes nothing if none of the others is live. -/
theorem modify_earlier {earlier : List Timer} {last : Timer} {number : Nat}
    (hdead : ∀ t ∈ earlier, t.live = false) (hnumber : number ≠ earlier.length) :
  (earlier ++ [last]).modify number (fun t => { t with live := false }) = earlier ++ [last]
  := by
  induction earlier generalizing number with
  | nil =>
      cases number with
      | zero => exact (hnumber rfl).elim
      | succ number => rw [List.nil_append, List.modify_succ_cons, List.modify_nil]
  | cons t rest ih =>
      cases number with
      | zero =>
          have ht : { t with live := false } = t := by
            rw [← hdead t List.mem_cons_self]
          rw [List.cons_append, List.modify_zero_cons, ht]
      | succ number =>
          rw [List.cons_append, List.modify_succ_cons,
            ih (fun x hx => hdead x (List.mem_cons_of_mem t hx)) fun h => hnumber (by rw [h]; rfl)]

/-- Once the armed timer is cancelled, none expires by itself. -/
theorem Orderly.disarm (h : c.Orderly pushed released) :
  (∀ t ∈ c.disarm.timers, t.live = false) ∧ c.disarm.closed = false
  := by
  obtain ⟨hopen, ⟨htimers, harmed, -, -, -⟩
    | ⟨earlier, last, text, htimers, hdead, -, -, ⟨-, harmed, -⟩ | ⟨hlast, harmed, -, -⟩⟩⟩ := h
  · rw [Coalescer.disarm, harmed]
    refine ⟨?_, hopen⟩
    rw [htimers]
    exact nofun
  · rw [Coalescer.disarm, harmed]
    refine ⟨?_, hopen⟩
    intro t ht
    simp only [stop, htimers, modify_last] at ht
    rcases List.mem_append.mp ht with ht | ht
    · apply hdead t ht
    · rw [List.mem_singleton.mp ht]
  · rw [Coalescer.disarm, harmed]
    refine ⟨?_, hopen⟩
    rw [htimers]
    intro t ht
    rcases List.mem_append.mp ht with ht | ht
    · apply hdead t ht
    · rw [List.mem_singleton.mp ht, hlast]

/-- A push makes its text the pending one and its timer the one that is armed. -/
theorem Orderly.push (h : c.Orderly pushed released) (text : String) :
  ∃ c', c.push text = .ok c' ∧ c'.Orderly (pushed ++ [text]) released
    ∧ c'.pending = some text
  := by
  obtain ⟨hdead, hopen⟩ := h.disarm
  rw [Coalescer.push, if_neg (by simp [h.isOpen])]
  refine ⟨_, rfl, ⟨hopen, Or.inr ?_⟩, rfl⟩
  refine ⟨c.disarm.timers, { due := c.disarm.now + c.disarm.quiet }, text, rfl, hdead, ?_, ?_,
    Or.inl ⟨rfl, rfl, rfl⟩⟩
  · apply Int.le_refl
  · simp

/-- A timer expires: only that of the last push lets its text through, and only once. -/
theorem Orderly.expire (h : c.Orderly pushed released) (number : Nat) :
  (c.expire number).1.Orderly pushed (released ++ (c.expire number).2.toList)
    ∧ (c.expire number).1.now = c.now
    ∧ ((c.expire number).2 = none → (c.expire number).1.pending = c.pending)
  := by
  obtain ⟨hopen,
    ⟨htimers, hrest⟩ | ⟨earlier, last, text, htimers, hdead, hdue, hpushed, hlast⟩⟩ := h
  · have hstop : c.stop number = c := by
      rw [stop, htimers, List.modify_nil, ← htimers]
    rw [Coalescer.expire, hstop, if_neg (by simp [htimers])]
    rw [Option.toList_none, List.append_nil]
    exact ⟨⟨hopen, Or.inl ⟨htimers, hrest⟩⟩, rfl, fun _ => rfl⟩
  · by_cases hnumber : number = earlier.length
    · subst hnumber
      have hstop : c.stop earlier.length
          = { c with timers := earlier ++ [{ last with live := false }] } := by
        rw [stop, htimers, modify_last]
      rw [Coalescer.expire, hstop, if_pos (by simp), release]
      simp only [hopen, Bool.false_eq_true, if_false]
      refine ⟨⟨rfl, Or.inr ?_⟩, trivial, ?_⟩
      · refine ⟨earlier, _, text, rfl, hdead, hdue, hpushed, Or.inr ⟨rfl, rfl, rfl, ?_⟩⟩
        rcases hlast with ⟨-, -, hpending⟩ | ⟨-, -, hpending, hreleased⟩
        · simp [hpending]
        · simpa [hpending] using hreleased
      · intro hnone
        exact hnone.symm
    · have hstop : c.stop number = c := by
        rw [stop, htimers, modify_earlier hdead hnumber, ← htimers]
      have hlength : ¬ number + 1 = c.timers.length := by
        rw [htimers, List.length_append, List.length_singleton]
        omega
      rw [Coalescer.expire, hstop, if_neg hlength]
      rw [Option.toList_none, List.append_nil]
      exact ⟨⟨hopen, Or.inr ⟨earlier, last, text, htimers, hdead, hdue, hpushed, hlast⟩⟩, rfl,
        fun _ => rfl⟩

/-- Timers that are stopped stay due when they were. -/
theorem dues_stop (c : Coalescer) (number : Nat) :
  (c.stop number).timers.map (·.due) = c.timers.map (·.due)
  := by
  rw [stop]
  dsimp only
  generalize c.timers = timers
  induction timers generalizing number with
  | nil => rw [List.modify_nil]
  | cons t rest ih =>
      cases number with
      | zero => rw [List.modify_zero_cons, List.map_cons, List.map_cons]
      | succ number => rw [List.modify_succ_cons, List.map_cons, List.map_cons, ih number]

theorem dues_expire (c : Coalescer) (number : Nat) :
  (c.expire number).1.timers.map (·.due) = c.timers.map (·.due)
  := by
  rw [Coalescer.expire]
  split
  · apply dues_stop
  · apply dues_stop

/-- Cancelling concerns the timers alone, and when they are due does not change. -/
theorem disarm_eq (c : Coalescer) :
  ∃ timers, timers.map (·.due) = c.timers.map (·.due)
    ∧ c.disarm = { c with timers := timers, armed := none }
  := by
  rw [Coalescer.disarm]
  split
  · rename_i harmed
    exact ⟨c.timers, rfl, by rw [← harmed]⟩
  · rename_i number _
    exact ⟨_, dues_stop c number, rfl⟩

/-- Once the timer of the last push has expired no text is pending. -/
theorem pending_expire {c : Coalescer} {number : Nat} (h : number + 1 = c.timers.length) :
  (c.expire number).1.pending = none
  := by
  have hlength : number + 1 = (c.stop number).timers.length := by
    rw [stop, List.length_modify]
    apply h
  rw [Coalescer.expire, if_pos hlength, release]

/-- The timer of the last push lets the pending text through. -/
theorem expire_last {c : Coalescer} {number : Nat} (hopen : c.closed = false)
    (h : number + 1 = c.timers.length) :
  c.expire number = ({ c.stop number with armed := none, pending := none }, c.pending)
  := by
  have hlength : number + 1 = (c.stop number).timers.length := by
    rw [stop, List.length_modify]
    apply h
  have hstop : ¬ (c.stop number).closed = true := by simp [stop, hopen]
  rw [Coalescer.expire, if_pos hlength, release, if_neg hstop]
  rfl

/-- The clock moves on. -/
theorem Orderly.at (h : c.Orderly pushed released) {time : Int} (htime : c.now ≤ time) :
  ({ c with now := time } : Coalescer).Orderly pushed released
  := by
  obtain ⟨hopen, hrest | ⟨earlier, last, text, htimers, hdead, hdue, hpushed, hlast⟩⟩ := h
  · exact ⟨hopen, Or.inl hrest⟩
  · refine ⟨hopen, Or.inr ⟨earlier, last, text, htimers, hdead, ?_, hpushed, hlast⟩⟩
    exact Int.le_trans hdue (Int.add_le_add_right htime _)

/-- What is known of deliveries plays no part. -/
theorem Orderly.delivering (h : c.Orderly pushed released) (delivering : Bool)
    (outcome : Option (Except Fault Unit)) :
  ({ c with delivering := delivering, lastOutcome := outcome } : Coalescer).Orderly pushed
    released
  := ⟨h.isOpen, h.latest⟩

/-! ### Timers that are due -/

/-- Only the timer of the last push can be due. -/
theorem liveFrom_append {earlier : List Timer} {last : Timer} (number : Nat)
    (hdead : ∀ t ∈ earlier, t.live = false) :
  liveFrom number (earlier ++ [last])
    = if last.live then [(number + earlier.length, last)] else []
  := by
  induction earlier generalizing number with
  | nil =>
      rw [List.nil_append, liveFrom]
      rfl
  | cons t rest ih =>
      rw [List.cons_append, liveFrom, hdead t List.mem_cons_self, if_neg Bool.false_ne_true,
        ih (number + 1) fun x hx => hdead x (List.mem_cons_of_mem t hx), List.length_cons,
        Nat.add_assoc, Nat.add_comm 1]

theorem Orderly.nextDue? (h : c.Orderly pushed released) (time : Int) :
  c.nextDue? time = none
    ∨ ∃ number last, c.nextDue? time = some (number, last) ∧ last.due ≤ time
      ∧ number + 1 = c.timers.length ∧ c.pending.isSome = true
  := by
  obtain ⟨-, ⟨htimers, -⟩ | ⟨earlier, last, text, htimers, hdead, -, -, ⟨hlive, -, hpending⟩
    | ⟨hlive, -⟩⟩⟩ := h
  · left
    simp [Coalescer.nextDue?, htimers, liveFrom]
  · rw [Coalescer.nextDue?, htimers, liveFrom_append 0 hdead, if_pos hlive]
    by_cases hdue : last.due ≤ time
    · right
      exact ⟨earlier.length, last, by simp [hdue], hdue, by simp, by simp [hpending]⟩
    · left
      simp [hdue]
  · left
    simp [Coalescer.nextDue?, htimers, liveFrom_append 0 hdead, hlive]

/-- The last timer is due once the quiet time has passed from now on. -/
theorem Orderly.due_le (h : c.Orderly pushed released) {t : Timer}
    (ht : c.timers.getLast? = some t) :
  t.due ≤ c.now + c.quiet
  := by
  obtain ⟨-, ⟨htimers, -⟩ | ⟨earlier, last, text, htimers, -, hdue, -⟩⟩ := h
  · rw [htimers] at ht
    cases ht
  · rw [htimers, List.getLast?_concat] at ht
    cases ht
    apply hdue

/-- The quiet time of the last push is over, and the timers that are due have expired. -/
def Settled (c : Coalescer) : Prop :=
  (∀ t, c.timers.getLast? = some t → t.due ≤ c.now) ∧ c.nextDue? c.now = none

/-- Once the quiet time is over no text is pending. -/
theorem Orderly.pending_of_settled (h : c.Orderly pushed released) (hsettled : c.Settled) :
  c.pending = none
  := by
  obtain ⟨-, ⟨-, -, hpending, -⟩ | ⟨earlier, last, text, htimers, hdead, -, -,
    ⟨hlive, -, -⟩ | ⟨-, -, hpending, -⟩⟩⟩ := h
  · apply hpending
  · obtain ⟨hdue, hnext⟩ := hsettled
    have hlast := hdue last (by simp [htimers])
    rw [Coalescer.nextDue?, htimers, liveFrom_append 0 hdead, if_pos hlive] at hnext
    simp [hlast] at hnext
  · apply hpending

/-- A text that was pushed last and is no longer pending was let through last. -/
theorem Orderly.released_of_pending (h : c.Orderly pushed released) (hpending : c.pending = none) :
  released.getLast? = pushed.getLast?
  := by
  obtain ⟨-, ⟨-, -, -, rfl, rfl⟩ | ⟨earlier, last, text, -, -, -, hpushed,
    ⟨-, -, hsome⟩ | ⟨-, -, -, hreleased⟩⟩⟩ := h
  · rfl
  · rw [hpending] at hsome
    cases hsome
  · rw [hpushed, hreleased]

end Montage.Coalescer
