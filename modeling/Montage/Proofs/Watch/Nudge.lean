import Montage.Proofs.Desk.Manner
import Montage.Proofs.Watch.Basic
import Montage.Proofs.Watch.Timers

/-!
# What happens beside an evaluation

Whatever happens to the coalescer of a watch, texts are only ever added to those that were let
through, and the text pushed last is pending until it is one of them.  If none is pending in
the end and none was let through meanwhile, then none was pushed.
-/

namespace Montage

variable {σ : Type}

namespace Watch

/-- The coalescer of a watch takes and lets through texts as it should. -/
def Orderly (w : Watch σ) : Prop :=
  w.coalescer.Orderly w.pushed w.released

/-- The watch once the coalescer has made a step that may let a text through. -/
def passed (w : Watch σ) : Coalescer × Option String → Watch σ
  | (c, none) => { w with coalescer := c }
  | (c, some text) => { w with
    coalescer := { c with delivering := false, lastOutcome := some (.ok ()) }
    released := w.released ++ [text] }

variable {d : Desk (Watch σ)} {E : Fault → Desk (Watch σ) → Prop}

@[simp]
theorem meets_change {Q : Unit → Desk (Watch σ) → Prop} (f : Watch σ → Watch σ) :
  Desk.Meets (change f) d Q E ↔ Q () { d with surroundings := f d.surroundings }
  := Desk.meets_modify _

@[simp]
theorem meets_read {Q : Coalescer → Desk (Watch σ) → Prop} :
  Desk.Meets outlet.read d Q E ↔ Q d.surroundings.coalescer d
  := by
  change Desk.Meets (get >>= fun d => pure d.surroundings.coalescer) d Q E ↔ _
  rw [Desk.meets_bind, Desk.meets_get, Desk.meets_pure]

@[simp]
theorem meets_write {Q : Unit → Desk (Watch σ) → Prop} (c : Coalescer) :
  Desk.Meets (outlet.write c) d Q E
    ↔ Q () { d with surroundings := { d.surroundings with coalescer := c } }
  := by
  change Desk.Meets (change fun w => { w with coalescer := c }) d Q E ↔ _
  rw [meets_change]

@[simp]
theorem meets_deliver {Q : Except Fault Unit → Desk (Watch σ) → Prop} (text : String) :
  Desk.Meets (outlet.deliver text) d Q E
    ↔ Q (.ok ()) { d with surroundings :=
        { d.surroundings with released := d.surroundings.released ++ [text] } }
  := by
  change Desk.Meets (change (fun w => { w with released := w.released ++ [text] })
    >>= fun _ => pure (Except.ok ())) d Q E ↔ _
  rw [Desk.meets_bind, meets_change, Desk.meets_pure]

/-- A step of the coalescer. -/
theorem meets_pass {Q : Unit → Desk (Watch σ) → Prop} (p : Coalescer × Option String) :
  Desk.Meets (outlet.pass p) d Q E
    ↔ Q () { d with surroundings := d.surroundings.passed p }
  := by
  obtain ⟨c, _ | text⟩ := p
  · rw [Coalescer.Outlet.pass, meets_write]
    rfl
  · rw [Coalescer.Outlet.pass, Desk.meets_bind, meets_write, Desk.meets_bind, meets_deliver,
      Desk.meets_bind, meets_read, meets_write]
    rfl

/-! ### Steps of the coalescer -/

/-- What the coalescer of a watch does by itself. -/
structure Ticks (w w' : Watch σ) : Prop where
  rest : w' = { w with coalescer := w'.coalescer, released := w'.released }
  dues : w'.coalescer.timers.map (·.due) = w.coalescer.timers.map (·.due)
  orderly : w.Orderly → w'.Orderly ∧ w.released <+: w'.released
    ∧ (w'.released = w.released → w'.coalescer.pending = w.coalescer.pending)

variable {w w' w'' : Watch σ}

theorem Ticks.refl (w : Watch σ) :
  w.Ticks w
  := ⟨rfl, rfl, fun h => ⟨h, List.prefix_refl _, fun _ => rfl⟩⟩

/-- Between two lists of texts of which the longer is the shorter none was added. -/
theorem released_between {first second third : List String} (h : first <+: second)
    (h' : second <+: third) (heq : third = first) :
  second = first
  := by
  subst heq
  apply List.IsPrefix.eq_of_length h' (Nat.le_antisymm h'.length_le h.length_le)

theorem Ticks.trans (h : w.Ticks w') (h' : w'.Ticks w'') :
  w.Ticks w''
  := by
  refine ⟨?_, h'.dues.trans h.dues, ?_⟩
  · rw [h'.rest, h.rest]
  · intro horderly
    obtain ⟨horderly', hprefix, hpending⟩ := h.orderly horderly
    obtain ⟨horderly'', hprefix', hpending'⟩ := h'.orderly horderly'
    refine ⟨horderly'', hprefix.trans hprefix', ?_⟩
    intro hsame
    have hmiddle := released_between hprefix hprefix' hsame
    rw [hpending' (hsame.trans hmiddle.symm), hpending hmiddle]

/-- The clock moves on. -/
theorem ticks_at {time : Int} (htime : w.coalescer.now ≤ time) :
  w.Ticks { w with coalescer := { w.coalescer with now := time } }
  := ⟨rfl, rfl, fun h => ⟨h.at htime, List.prefix_refl _, fun _ => rfl⟩⟩

/-- A timer expires. -/
theorem ticks_expire (w : Watch σ) (number : Nat) :
  w.Ticks (w.passed (w.coalescer.expire number))
    ∧ (w.Orderly → (w.passed (w.coalescer.expire number)).coalescer.now = w.coalescer.now)
  := by
  have hdues := w.coalescer.dues_expire number
  have horderly := fun h : w.Orderly => Coalescer.Orderly.expire h number
  generalize w.coalescer.expire number = p at *
  obtain ⟨c, _ | text⟩ := p
  · refine ⟨⟨rfl, hdues, ?_⟩, fun h => (horderly h).2.1⟩
    intro h
    obtain ⟨hkept, -, hpending⟩ := horderly h
    rw [Option.toList_none, List.append_nil] at hkept
    exact ⟨hkept, List.prefix_refl _, fun _ => hpending rfl⟩
  · refine ⟨⟨rfl, hdues, ?_⟩, fun h => (horderly h).2.1⟩
    intro h
    obtain ⟨hkept, -, -⟩ := horderly h
    refine ⟨hkept.delivering false _, List.prefix_append _ _, ?_⟩
    intro hsame
    exact absurd hsame (by simp [passed])

/-- The clock moves on to when a timer is due, and it expires. -/
theorem ticks_due (w : Watch σ) (number : Nat) (due : Int) :
  w.Ticks (w.passed ((w.coalescer.moveTo due).expire number))
    ∧ (w.Orderly → (w.passed ((w.coalescer.moveTo due).expire number)).coalescer.now
        = max w.coalescer.now due)
    ∧ (number + 1 = w.coalescer.timers.length →
        (w.passed ((w.coalescer.moveTo due).expire number)).coalescer.pending = none)
  := by
  have hto : w.coalescer.now ≤ max w.coalescer.now due := Int.le_max_left _ _
  have hpassed : ∀ p, w.passed p
      = ({ w with coalescer := w.coalescer.moveTo due } : Watch σ).passed p := by
    rintro ⟨c, _ | text⟩ <;> rfl
  obtain ⟨hticks, hnow⟩ :=
    ticks_expire { w with coalescer := w.coalescer.moveTo due } number
  rw [hpassed]
  refine ⟨(ticks_at hto).trans hticks, fun h => hnow (h.at hto), ?_⟩
  intro hlast
  have hnone := Coalescer.pending_expire (c := w.coalescer.moveTo due) hlast
  generalize (w.coalescer.moveTo due).expire number = p at *
  obtain ⟨c, _ | text⟩ := p <;> exact hnone

/-- A timer of a given number expires. -/
theorem meets_expire (number : Nat) :
  Desk.Meets (outlet.expire number) d
    (fun _ d' => ∃ w', d' = { d with surroundings := w' } ∧ d.surroundings.Ticks w') E
  := by
  rw [Coalescer.Outlet.expire, Desk.meets_bind, meets_read]
  split
  · rw [meets_pass]
    exact ⟨_, rfl, (ticks_expire d.surroundings number).1⟩
  · rw [Desk.meets_pure]
    exact ⟨d.surroundings, rfl, Ticks.refl _⟩

/-- All timers expire that are due by a time to which the clock is moved on. -/
theorem meets_expireUntil (time : Int) (fuel : Nat) :
  Desk.Meets (outlet.expireUntil time fuel) d
    (fun _ d' => ∃ w', d' = { d with surroundings := w' } ∧ (d.surroundings.Orderly →
      d.surroundings.coalescer.now ≤ time → d.surroundings.Ticks w'
        ∧ w'.coalescer.now ≤ time
        ∧ (d.surroundings.coalescer.timers.length ≤ fuel
            ∨ d.surroundings.coalescer.pending = none → w'.coalescer.nextDue? time = none))) E
  := by
  induction fuel generalizing d with
  | zero =>
      rw [Coalescer.Outlet.expireUntil, Desk.meets_pure]
      refine ⟨d.surroundings, rfl, ?_⟩
      intro horderly hnow
      refine ⟨Ticks.refl _, hnow, ?_⟩
      intro h
      rcases Coalescer.Orderly.nextDue? horderly time with
        hnone | ⟨number, last, -, -, hlength, hpending⟩
      · apply hnone
      · rcases h with h | h
        · omega
        · rw [h] at hpending
          cases hpending
  | succ fuel ih =>
      rw [Coalescer.Outlet.expireUntil, Desk.meets_bind, meets_read]
      split
      · rename_i hnone
        rw [Desk.meets_pure]
        refine ⟨d.surroundings, rfl, ?_⟩
        intro _ hnow
        exact ⟨Ticks.refl _, hnow, fun _ => hnone⟩
      · rename_i number timer hsome
        rw [Desk.meets_bind, meets_pass]
        apply ih.imp
        rintro _ d' ⟨w', rfl, hrest⟩
        refine ⟨w', rfl, ?_⟩
        intro horderly hnow
        rcases Coalescer.Orderly.nextDue? horderly time with
          hnone | ⟨number', timer', hsome', hdue, hlength, -⟩
        · rw [hnone] at hsome
          cases hsome
        · obtain ⟨rfl, rfl⟩ := Prod.mk.inj (Option.some.inj (hsome.symm.trans hsome'))
          obtain ⟨hticks, hmoved, hnone⟩ := ticks_due d.surroundings number timer.due
          have hnow' : (d.surroundings.passed
              ((d.surroundings.coalescer.moveTo timer.due).expire number)).coalescer.now
                ≤ time := by
            rw [hmoved horderly]
            omega
          obtain ⟨hticks', hnow'', hquiet⟩ := hrest (hticks.orderly horderly).1 hnow'
          exact ⟨hticks.trans hticks', hnow'', fun _ => hquiet (Or.inr (hnone hlength))⟩

/-- The clock runs, and no timer is left that should have expired meanwhile. -/
theorem meets_advance (ms : Nat) :
  Desk.Meets (outlet.advance ms d.surroundings.coalescer.timers.length) d
    (fun _ d' => ∃ w', d' = { d with surroundings := w' } ∧ (d.surroundings.Orderly →
      d.surroundings.Ticks w' ∧ w'.coalescer.now = d.surroundings.coalescer.now + ms
        ∧ w'.coalescer.nextDue? w'.coalescer.now = none)) E
  := by
  have hlater : d.surroundings.coalescer.now ≤ d.surroundings.coalescer.now + ms := by
    omega
  rw [Coalescer.Outlet.advance, Desk.meets_bind, meets_read, Desk.meets_bind]
  apply (meets_expireUntil _ _).imp
  rintro _ d₁ ⟨w, rfl, hticks⟩
  rw [Desk.meets_bind, meets_read, meets_write]
  refine ⟨_, rfl, ?_⟩
  intro horderly
  obtain ⟨hticks, hnow, hnone⟩ := hticks horderly hlater
  exact ⟨hticks.trans (ticks_at hnow), rfl, hnone (Or.inl (Nat.le_refl _))⟩

end Watch

end Montage
