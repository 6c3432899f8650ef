import Mathlib.Data.List.Basic
import Mathlib.Data.List.TakeWhile
import Montage.Proofs.Desk.Ledger
import Montage.Proofs.Store.Orderly
import Montage.Session.Run

/-!
# Subscriptions

Whoever subscribes a listener is given a function that cancels the subscription.  The function
knows the listener, but not which of its subscriptions it was given for, and so it cancels the
earliest that the listener has.  A `Roll` keeps the subscriptions apart by their numbers.  The
listeners that are told of an event are those whose subscriptions have not been cancelled by
their own functions, in order, exactly as long as every call of such a function is harmless:
`Desk.told_as_due_iff`.
-/

namespace Montage

/-- What is done about the subscriptions to the events of a store. -/
inductive Enrolment where
  | subscribe (listener : Nat)
  /-- The function that came with the subscription of a number is called. -/
  | cancel (number : Nat)
  deriving DecidableEq

/-- The subscriptions that were made. -/
structure Roll where
  /-- The listener of each subscription, in order. -/
  issued : List Nat := []
  /-- The subscriptions that have not been cancelled by their own functions, in order: the
  number of each, and its listener. -/
  due : List (Nat × Nat) := []
  deriving DecidableEq

namespace Roll

/-- What becomes of the subscriptions. -/
def enter (r : Roll) : Enrolment → Roll
  | .subscribe listener =>
    { issued := r.issued ++ [listener], due := r.due ++ [(r.issued.length, listener)] }
  | .cancel number => { r with due := r.due.filter (·.1 ≠ number) }

/-- The subscriptions after given enrolments. -/
def after (r : Roll) (es : List Enrolment) : Roll :=
  es.foldl enter r

/-- The listeners of the subscriptions that have not been cancelled. -/
def listeners (r : Roll) : List Nat :=
  r.due.map (·.2)

/-- Calling the function of a subscription does no harm.  If the subscription is due, then those
before it, from the earliest of its listener on, are all of this listener, and if it is not, then
the listener has no other subscription. -/
def Harmless (r : Roll) (number : Nat) : Prop :=
  ∀ listener ∈ r.issued[number]?,
    if number ∈ r.due.map (·.1) then
      ∀ p ∈ (r.due.takeWhile (·.1 ≠ number)).dropWhile (·.2 ≠ listener), p.2 = listener
    else listener ∉ r.listeners

instance (r : Roll) (number : Nat) : Decidable (r.Harmless number) :=
  inferInstanceAs (Decidable (∀ listener ∈ r.issued[number]?, _))

/-- The function of a subscription is called while the subscription is due. -/
def Timely (r : Roll) (number : Nat) : Prop :=
  number ∈ r.due.map (·.1)

/-- Each function is called where a given condition holds of the subscriptions and its number. -/
def Calls (P : Roll → Nat → Prop) (r : Roll) : List Enrolment → Prop
  | [] => True
  | .subscribe listener :: rest => Calls P (r.enter (.subscribe listener)) rest
  | .cancel number :: rest => P r number ∧ Calls P (r.enter (.cancel number)) rest

theorem calls_cons {P : Roll → Nat → Prop} {r : Roll} {e : Enrolment} {rest : List Enrolment} :
  Calls P r (e :: rest)
    ↔ (∀ number, e = .cancel number → P r number) ∧ Calls P (r.enter e) rest
  := by
  cases e <;> simp [Calls]

/-- A roll in which the number of each subscription leads to its listener. -/
structure Sound (r : Roll) : Prop where
  numbers : r.due.Pairwise fun p q => p.1 ≠ q.1
  issued : ∀ p ∈ r.due, r.issued[p.1]? = some p.2

variable {r : Roll}

theorem sound_empty :
  ({} : Roll).Sound
  := ⟨List.Pairwise.nil, nofun⟩

theorem Sound.enter (h : r.Sound) (e : Enrolment) :
  (r.enter e).Sound
  := by
  cases e with
  | subscribe listener =>
      -- The new number is that of no subscription made before.
      have hnew : ∀ p ∈ r.due, p.1 < r.issued.length := by
        intro p hp
        obtain ⟨hlt, -⟩ := List.getElem?_eq_some_iff.mp (h.issued p hp)
        exact hlt
      constructor
      · apply List.pairwise_append.mpr ⟨h.numbers, List.pairwise_singleton _ _, _⟩
        intro p hp q hq
        rw [List.mem_singleton.mp hq]
        apply Nat.ne_of_lt (hnew p hp)
      · intro p hp
        rcases List.mem_append.mp hp with hp | hp
        · rw [Roll.enter, List.getElem?_append_left (hnew p hp), h.issued p hp]
        · rw [List.mem_singleton.mp hp, Roll.enter, List.getElem?_concat_length]
  | cancel number =>
      have hsub : (r.enter (.cancel number)).due.Sublist r.due := List.filter_sublist
      exact ⟨h.numbers.sublist hsub, fun p hp => h.issued p (hsub.subset hp)⟩

/-- A subscription that is due, and those before and after it. -/
theorem Sound.split (h : r.Sound) {number listener : Nat} (hdue : number ∈ r.due.map (·.1))
    (hissued : r.issued[number]? = some listener) :
  ∃ later, r.due = r.due.takeWhile (·.1 ≠ number) ++ (number, listener) :: later
    ∧ r.due.filter (·.1 ≠ number) = r.due.takeWhile (·.1 ≠ number) ++ later
  := by
  obtain ⟨p, hp, rfl⟩ := List.mem_map.mp hdue
  obtain rfl := Option.some.inj ((h.issued p hp).symm.trans hissued)
  obtain ⟨earlier, later, hsplit⟩ := List.append_of_mem hp
  have hne : ∀ q ∈ earlier ++ later, q.1 ≠ p.1 :=
    Store.ne_of_pairwise_split (f := fun q : Nat × Nat => q.1) (hsplit ▸ h.numbers)
  have hearlier : ∀ q ∈ earlier, q.1 ≠ p.1 := fun q hq => hne q (List.mem_append_left _ hq)
  have hlater : ∀ q ∈ later, q.1 ≠ p.1 := fun q hq => hne q (List.mem_append_right _ hq)
  have htake : r.due.takeWhile (·.1 ≠ p.1) = earlier := by
    rw [hsplit, List.takeWhile_append_of_pos (by simpa using hearlier)]
    simp
  use later
  rw [htake]
  refine ⟨hsplit, ?_⟩
  rw [hsplit, List.filter_append, List.filter_cons_of_neg (by simp),
    List.filter_eq_self.mpr (by simpa using hearlier),
    List.filter_eq_self.mpr (by simpa using hlater)]

/-! ### What is removed -/

/-- An element between others can be moved to their front if they are all the same. -/
theorem middle_eq_cons_iff {α : Type} {x : α} (before after : List α) :
  before ++ x :: after = x :: (before ++ after) ↔ ∀ y ∈ before, y = x
  := by
  induction before with
  | nil => simp
  | cons y rest ih =>
      rw [List.cons_append, List.cons_append, List.cons.injEq, List.forall_mem_cons, ← ih]
      apply and_congr_right
      rintro rfl
      rfl

/-- Removing the first of several equal elements comes to removing a later one if from the first
one on there are no others before it. -/
theorem erase_middle_iff {α : Type} [DecidableEq α] {x : α} (before after : List α) :
  (before ++ x :: after).erase x = before ++ after ↔ ∀ y ∈ before.dropWhile (· ≠ x), y = x
  := by
  induction before with
  | nil => simp
  | cons y rest ih =>
      by_cases hyx : y = x
      · subst hyx
        rw [List.cons_append, List.erase_cons_head, List.cons_append, middle_eq_cons_iff]
        simp
      · rw [List.cons_append, List.erase_cons_tail (by simpa using hyx), List.cons_append,
          List.cons.injEq, List.dropWhile_cons_of_pos (by simpa using hyx), ← ih]
        simp

/-- The earliest subscription of a listener is removed where that of a number should be. -/
theorem Sound.erase_iff (h : r.Sound) {number listener : Nat}
    (hissued : r.issued[number]? = some listener) :
  r.listeners.erase listener = (r.enter (.cancel number)).listeners ↔ r.Harmless number
  := by
  have hharmless : r.Harmless number ↔ if number ∈ r.due.map (·.1) then
      ∀ p ∈ (r.due.takeWhile (·.1 ≠ number)).dropWhile (·.2 ≠ listener), p.2 = listener
      else listener ∉ r.listeners := by
    simp [Harmless, hissued]
  rw [hharmless, Roll.enter, listeners, listeners]
  split
  · rename_i hdue
    obtain ⟨later, hsplit, hfilter⟩ := h.split hdue hissued
    rw [hfilter, List.map_append]
    nth_rewrite 1 [hsplit]
    rw [List.map_append, List.map_cons, erase_middle_iff, List.dropWhile_map, List.forall_mem_map]
    rfl
  · rename_i hdue
    have hkept : r.due.filter (·.1 ≠ number) = r.due := by
      apply List.filter_eq_self.mpr
      intro p hp
      apply decide_eq_true
      rintro rfl
      apply hdue (List.mem_map_of_mem hp)
    rw [hkept]
    apply List.erase_eq_self_iff

/-- Where the subscription of the number is due, no more is removed than should be. -/
theorem Sound.erase_perm (h : r.Sound) {number listener : Nat} (hdue : r.Timely number)
    (hissued : r.issued[number]? = some listener) {told : List Nat}
    (htold : told.Perm r.listeners) :
  (told.erase listener).Perm (r.enter (.cancel number)).listeners
  := by
  obtain ⟨later, hsplit, hfilter⟩ := h.split hdue hissued
  apply (htold.erase listener).trans
  rw [Roll.enter, listeners, listeners, hfilter, List.map_append]
  nth_rewrite 1 [hsplit]
  rw [List.map_append, List.map_cons]
  apply (List.perm_middle.erase listener).trans
  rw [List.erase_cons_head]

end Roll

namespace Desk

variable {ε : Type}

/-- Does something about the subscriptions of a desk, where the listeners of those made so far
are given; the listeners of those made by then. -/
def enrol (issued : List Nat) : Enrolment → Run ε (List Nat)
  | .subscribe listener => do
    subscribe listener
    return issued ++ [listener]
  | .cancel number => do
    match issued[number]? with
    | some listener => unsubscribe listener
    | none => pure ()
    return issued

/-- Does things about the subscriptions one after the other. -/
def enrolAll (issued : List Nat) : List Enrolment → Run ε (List Nat)
  | [] => return issued
  | e :: rest => do
    let issued ← enrol issued e
    enrolAll issued rest

/-- This is how the handles of a session work. -/
theorem session_enrol_eq (host : Surroundings Session.State) (fuel : Nat) :
  (∀ listener, Session.subscribe listener = (do
      let handles := (← Session.current).handles
      let issued ← enrol handles (.subscribe listener)
      Session.change fun s => { s with handles := issued }
      return .handle handles.length))
    ∧ ∀ handle, Session.perform host fuel (.unlisten handle) = (do
      let handles := (← Session.current).handles
      let _ ← enrol handles (.cancel handle)
      return .nothing)
  := by
  constructor
  · intro listener
    rfl
  · intro handle
    simp only [Session.perform, enrol]
    apply bind_congr
    intro s
    cases s.handles[handle]? <;> rfl

variable {κ : Type} {d : Desk ε} {r : Roll}

/-! ### Who follows a desk -/

/-- Doing something about the subscriptions concerns the list of listeners alone. -/
theorem enrol_eq (r : Roll) (e : Enrolment) (d : Desk ε) :
  ∃ listeners, enrol r.issued e d = .ok (r.enter e).issued { d with listeners := listeners }
  := by
  cases e with
  | subscribe listener => exact ⟨_, rfl⟩
  | cancel number =>
      rw [enrol]
      cases r.issued[number]? with
      | none => exact ⟨d.listeners, rfl⟩
      | some listener => exact ⟨_, rfl⟩

theorem after_enrolAll_cons (r : Roll) (e : Enrolment) (rest : List Enrolment) (d : Desk ε) :
  after (enrolAll r.issued (e :: rest)) d
    = after (enrolAll (r.enter e).issued rest) (after (enrol r.issued e) d)
  := by
  obtain ⟨listeners, henrol⟩ := enrol_eq r e d
  have hbind : enrolAll r.issued (e :: rest) d
      = enrolAll (r.enter e).issued rest { d with listeners := listeners } := by
    rw [enrolAll]
    change EStateM.bind _ _ _ = _
    rw [EStateM.bind, henrol]
  unfold after
  rw [hbind, henrol]

/-- A listener that subscribes comes last. -/
theorem listeners_enrol_subscribe (issued : List Nat) (listener : Nat) (d : Desk ε) :
  (after (enrol issued (.subscribe listener)) d).listeners = d.listeners ++ [listener]
  := rfl

/-- A function that is called cancels the earliest subscription of its listener. -/
theorem listeners_enrol_cancel {issued : List Nat} {number listener : Nat}
    (h : issued[number]? = some listener) (d : Desk ε) :
  (after (enrol issued (.cancel number)) d).listeners = d.listeners.erase listener
  := by
  rw [enrol, h]
  rfl

/-- A number without a subscription changes nothing, neither on the desk nor on the roll. -/
theorem listeners_enrol_unissued {number : Nat} (h : r.Sound) (hnone : r.issued[number]? = none)
    (d : Desk ε) :
  (after (enrol r.issued (.cancel number)) d).listeners = d.listeners
    ∧ r.enter (.cancel number) = r
  := by
  constructor
  · rw [enrol, hnone]
    rfl
  · rw [Roll.enter, List.filter_eq_self.mpr]
    intro p hp
    apply decide_eq_true
    rintro rfl
    cases (h.issued p hp).symm.trans hnone

/-- One enrolment leaves those who should follow the desk if the function that it calls is
harmless, and only then. -/
theorem listeners_enrol_iff (h : r.Sound) (hd : d.listeners = r.listeners) (e : Enrolment) :
  (after (enrol r.issued e) d).listeners = (r.enter e).listeners
    ↔ ∀ number, e = .cancel number → r.Harmless number
  := by
  cases e with
  | subscribe listener => simp [listeners_enrol_subscribe, hd, Roll.enter, Roll.listeners]
  | cancel number =>
      simp only [Enrolment.cancel.injEq, forall_eq']
      cases hissued : r.issued[number]? with
      | none =>
          obtain ⟨hsame, hroll⟩ := listeners_enrol_unissued h hissued d
          rw [hsame, hroll]
          simp [hd, Roll.Harmless, hissued]
      | some listener =>
          rw [listeners_enrol_cancel hissued, hd]
          apply h.erase_iff hissued

/-- Those who should follow a desk do so, after any of the first of given enrolments, if every
function that is called is harmless, and only then. -/
theorem listeners_enrolAll_iff (h : r.Sound) (hd : d.listeners = r.listeners)
    (es : List Enrolment) :
  (∀ earlier later, es = earlier ++ later →
      (after (enrolAll r.issued earlier) d).listeners = (r.after earlier).listeners)
    ↔ r.Calls Roll.Harmless es
  := by
  induction es generalizing r d with
  | nil =>
      refine ⟨fun _ => trivial, ?_⟩
      rintro - earlier later hnil
      obtain ⟨rfl, rfl⟩ := List.append_eq_nil_iff.mp hnil.symm
      apply hd
  | cons e rest ih =>
      rw [Roll.calls_cons, ← listeners_enrol_iff h hd e]
      constructor
      · intro hall
        have hone : (after (enrol r.issued e) d).listeners = (r.enter e).listeners := by
          have hfirst := hall [e] rest rfl
          rw [after_enrolAll_cons] at hfirst
          apply hfirst
        refine ⟨hone, (ih (h.enter e) hone).mp ?_⟩
        intro earlier later hsplit
        have hrest := hall (e :: earlier) later (congrArg (e :: ·) hsplit)
        rw [after_enrolAll_cons] at hrest
        apply hrest
      · rintro ⟨hone, hrest⟩ earlier later hsplit
        cases earlier with
        | nil => apply hd
        | cons e' earlier =>
            obtain ⟨rfl, htail⟩ := List.cons.inj hsplit
            rw [after_enrolAll_cons]
            apply (ih (h.enter e) hone).mpr hrest earlier later htail

/-- If every function is called while its own subscription is due, then each listener follows
a desk as often as it should, though perhaps not in its turn. -/
theorem listeners_enrolAll_perm (h : r.Sound) (hd : d.listeners.Perm r.listeners)
    {es : List Enrolment} (hes : r.Calls Roll.Timely es) :
  (after (enrolAll r.issued es) d).listeners.Perm (r.after es).listeners
  := by
  induction es generalizing r d with
  | nil => apply hd
  | cons e rest ih =>
      obtain ⟨htimely, hrest⟩ := Roll.calls_cons.mp hes
      rw [after_enrolAll_cons]
      apply ih (h.enter e) _ hrest
      cases e with
      | subscribe listener =>
          rw [listeners_enrol_subscribe, Roll.enter, Roll.listeners, List.map_append]
          apply hd.append_right
      | cancel number =>
          have hdue := htimely number rfl
          obtain ⟨p, hp, rfl⟩ := List.mem_map.mp hdue
          rw [listeners_enrol_cancel (h.issued p hp)]
          apply h.erase_perm hdue (h.issued p hp) hd

end Desk

/-! ### What is delivered -/

section

variable {κ ε : Type}

/-- Surroundings whose listeners, when they are told of an event, raise nothing and leave the
store and the ledger alone. -/
def Surroundings.Attentive (host : Surroundings (Ledger κ ε)) : Prop :=
  ∀ listener event d, Desk.Meets (host.onEvent listener event) d
    (fun _ d' => d'.store = d.store ∧ d'.moments = d.moments) (fun _ _ => False)

namespace Desk

/-- The occasions on which given listeners are told of an event, one after the other, where the
latest come first. -/
def tellings (event : Event) (listeners : List Nat) : List (Occasion κ) :=
  (listeners.map fun listener => .told listener event).reverse

/-- An event that is announced at a desk is delivered to given listeners in this order, and to
nobody else. -/
def Delivers (host : Surroundings (Ledger κ ε)) (kind : EventKind) (tag : Option Nat)
    (listeners : List Nat) (d : Desk (Ledger κ ε)) : Prop :=
  ∃ d', announce host.noting kind tag d = .ok () d'
    ∧ d'.moments.map (·.occasion)
      = tellings ⟨kind, tag.bind d.store.current?⟩ listeners ++ d.moments.map (·.occasion)

variable {host : Surroundings (Ledger κ ε)} (hhost : host.Attentive) (kind : EventKind)
  (tag : Option Nat)

include hhost

theorem meets_tell_attentive (listeners : List Nat) (d : Desk (Ledger κ ε)) :
  Meets (tell host.noting kind tag listeners) d
    (fun _ d' => d'.moments.map (·.occasion)
      = tellings ⟨kind, tag.bind d.store.current?⟩ listeners ++ d.moments.map (·.occasion))
    (fun _ _ => False)
  := by
  induction listeners generalizing d with
  | nil =>
      rw [tell, meets_pure]
      rfl
  | cons listener rest ih =>
      rw [tell, meets_bind, meets_get, Surroundings.noting]
      dsimp only
      rw [meets_bind, meets_bind, note, meets_modify]
      apply (hhost listener _ _).imp
      rintro _ d₁ ⟨hstore, hmoments⟩
      have hstore : d₁.store = d.store := hstore
      apply (ih d₁).imp
      intro _ d₂ h₂
      rw [h₂, hstore, hmoments, moments_entered]
      simp [tellings]

/-- Among attentive surroundings an event is delivered to those who follow the desk. -/
theorem delivers_iff {listeners : List Nat} {d : Desk (Ledger κ ε)} :
  d.Delivers host kind tag listeners ↔ d.listeners = listeners
  := by
  have htell := meets_tell_attentive hhost kind tag d.listeners d
  have hannounce : announce host.noting kind tag d = tell host.noting kind tag d.listeners d := rfl
  have hinjective : Function.Injective
      (tellings (κ := κ) ⟨kind, tag.bind d.store.current?⟩) := by
    intro l l' hsame
    apply List.map_injective_iff.mpr _ (List.reverse_injective hsame)
    intro listener listener' htold
    injection htold
  unfold Delivers
  rw [hannounce]
  cases hrun : tell host.noting kind tag d.listeners d with
  | error f d' => apply ((meets_of_error hrun).mp htell).elim
  | ok u d' =>
      have hmoments := (meets_of_ok hrun).mp htell
      constructor
      · rintro ⟨d'', hd'', hmoments'⟩
        cases hd''
        apply hinjective (List.append_cancel_right (hmoments.symm.trans hmoments'))
      · rintro rfl
        exact ⟨d', rfl, hmoments⟩

/-- Listeners are told as their subscriptions are due, at any time while things are done about
the subscriptions of a desk that nobody followed, exactly if every function that is called is
harmless: if it leaves the subscriptions of others alone, and if it would not take from its own
listener one that came before the subscriptions of others.  As long as each function is called
but once, every listener is at least told as often as it should be. -/
theorem told_as_due_iff {d : Desk (Ledger κ ε)} (hd : d.listeners = []) (es : List Enrolment) :
  ((∀ earlier later, es = earlier ++ later →
      (after (enrolAll [] earlier) d).Delivers host kind tag (({} : Roll).after earlier).listeners)
    ↔ ({} : Roll).Calls Roll.Harmless es)
    ∧ (({} : Roll).Calls Roll.Timely es → ∃ listeners,
      listeners.Perm (({} : Roll).after es).listeners
        ∧ (after (enrolAll [] es) d).Delivers host kind tag listeners)
  := by
  constructor
  · simp only [delivers_iff hhost kind tag]
    apply listeners_enrolAll_iff Roll.sound_empty hd
  · intro htimely
    have hperm := listeners_enrolAll_perm Roll.sound_empty (List.Perm.of_eq hd) htimely
    exact ⟨_, hperm, (delivers_iff hhost kind tag).mpr rfl⟩

omit hhost

theorem attentive_bystanders :
  (Surroundings.bystanders (Ledger κ ε)).Attentive
  := fun _ _ _ => (meets_pure _).mpr ⟨rfl, rfl⟩

/-- A desk that nobody follows. -/
def unfollowed : Desk (Ledger Unit Unit) :=
  { surroundings := { rest := () } }

/-- A listener is subscribed twice before another one.  The function of its second subscription
is called, then that of its first one twice, and it is subscribed again. -/
def doubled : List Enrolment :=
  [.subscribe 5, .subscribe 5, .subscribe 8, .cancel 1, .cancel 0, .cancel 0, .subscribe 5,
    .cancel 2]

theorem told_as_due_iff_doubled :
  (Surroundings.bystanders (Ledger Unit Unit)).Attentive ∧ unfollowed.listeners = []
    ∧ ({} : Roll).Calls Roll.Harmless doubled
    ∧ (after (enrolAll [] (doubled.take 4)) unfollowed).Delivers (.bystanders _) .cleared none
      [5, 8]
    ∧ (after (enrolAll [] doubled) unfollowed).Delivers (.bystanders _) .cleared none [5]
  := by
  have hharmless : ({} : Roll).Calls Roll.Harmless doubled := by
    simp only [doubled, Roll.Calls]
    decide
  obtain ⟨htold, -⟩ := told_as_due_iff attentive_bystanders .cleared none
    (d := unfollowed) rfl doubled
  exact ⟨attentive_bystanders, rfl, hharmless,
    htold.mpr hharmless (doubled.take 4) (doubled.drop 4) rfl,
    htold.mpr hharmless doubled [] rfl⟩

/-- A listener is subscribed twice, and the function of its first subscription is called twice. -/
def calledTwice : List Enrolment :=
  [.subscribe 5, .subscribe 5, .cancel 0, .cancel 0]

/-- A listener is subscribed before and after another one, and the function of its second
subscription is called. -/
def calledLate : List Enrolment :=
  [.subscribe 5, .subscribe 8, .subscribe 5, .cancel 2]

/-- A function that is called a second time cancels another subscription of its listener, which
is then told of nothing.  A function that is called once may cancel an earlier subscription than
its own, and its listener is then told after another one that should come after it. -/
theorem cancelling_harms :
  ((({} : Roll).after calledTwice).listeners = [5]
      ∧ (after (enrolAll [] calledTwice) unfollowed).Delivers (.bystanders _) .cleared none []
      ∧ ¬ (after (enrolAll [] calledTwice) unfollowed).Delivers (.bystanders _) .cleared none [5])
    ∧ (({} : Roll).after calledLate).listeners = [5, 8]
      ∧ (after (enrolAll [] calledLate) unfollowed).Delivers (.bystanders _) .cleared none [8, 5]
      ∧ ¬ (after (enrolAll [] calledLate) unfollowed).Delivers (.bystanders _) .cleared none [5, 8]
  := by
  simp only [delivers_iff attentive_bystanders]
  decide

end Desk

end

end Montage
