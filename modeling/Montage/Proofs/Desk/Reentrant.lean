import Montage.Proofs.Desk.Memo

/-!
# Surroundings that reenter the desk

Listeners and hooks may themselves submit texts, cut, and note changes of the document, as
well as subscribe and act on a state of their own.  While a text is evaluated all of this
passes the desk by, since the desk is busy.
-/

namespace Montage

variable {ε : Type}

/-- The operations that reenter a desk without access to its store. -/
inductive Reentrant : {α : Type} → Run ε α → Prop where
  | pure {α : Type} (a : α) : Reentrant (pure a)
  | throw {α : Type} (f : Fault) : Reentrant (throw f : Run ε α)
  | get : Reentrant get
  | bind {α β : Type} {x : Run ε α} {k : α → Run ε β} (hx : Reentrant x)
    (hk : ∀ a, Reentrant (k a)) : Reentrant (x >>= k)
  | tryCatch {α : Type} {x : Run ε α} {k : Fault → Run ε α} (hx : Reentrant x)
    (hk : ∀ f, Reentrant (k f)) : Reentrant (tryCatch x k)
  | change (g : ε → ε) : Reentrant (modify fun d => { d with surroundings := g d.surroundings })
  | follow (g : List Nat → List Nat) :
    Reentrant (modify fun d => { d with listeners := g d.listeners })
  | followPasses (g : List Nat → List Nat) :
    Reentrant (modify fun d => { d with passListeners := g d.passListeners })
  | followErrors (g : List Nat → List Nat) :
    Reentrant (modify fun d => { d with errorListeners := g d.errorListeners })
  | noteChange : Reentrant Desk.noteChange
  | submit (host : Surroundings ε) (text : String) : Reentrant (Desk.submit host text)
  | insertCut (host : Surroundings ε) (time : Double) : Reentrant (Desk.insertCut host time)

/-- The manner of those who leave a desk alone, save that they count changes of the document
and act on their own state. -/
def Manner.free (ε : Type) : Manner ε where
  Rel p q := p.1 ≤ q.1
  refl _ := Nat.le_refl _
  trans h h' := Nat.le_trans h h'
  le h := h

/-- The conduct of those who pass a busy desk by and raise nothing. -/
def Conduct.passing (ε : Type) : Conduct ε :=
  (Manner.free ε).conduct (fun _ => False) fun _ h => h

/-- What reenters a busy desk passes it by. -/
theorem Reentrant.passes {α : Type} {x : Run ε α} (h : Reentrant x) {d : Desk ε} (hd : d.Busy) :
  Desk.Meets x d (fun _ => (Manner.free ε).Passes d) (fun _ => (Manner.free ε).Passes d)
  := by
  induction h generalizing d with
  | pure a =>
      rw [Desk.meets_pure]
      apply Manner.Passes.refl
  | throw f =>
      rw [Desk.meets_throw]
      apply Manner.Passes.refl
  | get =>
      rw [Desk.meets_get]
      apply Manner.Passes.refl
  | bind hx hk ihx ihk =>
      apply Desk.Meets.bind_trans (fun h h' => h.trans h') (fun h h' => h.trans h') (ihx hd)
      intro a d' h'
      apply ihk a (h'.busy hd)
  | tryCatch hx hk ihx ihk =>
      rw [Desk.meets_tryCatch]
      apply (ihx hd).mono
      · intro _ d' h'
        apply h'
      · intro f d' h'
        apply (ihk f (h'.busy hd)).mono
        · intro _ d'' h''
          apply h'.trans h''
        · intro _ d'' h''
          apply h'.trans h''
  | change g => exact (Desk.meets_modify _).mpr ⟨rfl, Nat.le_refl _⟩
  | follow g => exact (Desk.meets_modify _).mpr ⟨rfl, Nat.le_refl _⟩
  | followPasses g => exact (Desk.meets_modify _).mpr ⟨rfl, Nat.le_refl _⟩
  | followErrors g => exact (Desk.meets_modify _).mpr ⟨rfl, Nat.le_refl _⟩
  | noteChange => exact (Desk.meets_modify _).mpr ⟨rfl, Nat.le_succ _⟩
  | submit host text => exact (Desk.meets_submit_parsing text hd.parsing).mpr ⟨rfl, Nat.le_refl _⟩
  | insertCut host time =>
      exact (Desk.meets_insertCut_parsing time hd.parsing).mpr ⟨rfl, Nat.le_refl _⟩

/-- An operation that raises only given faults at a busy desk. -/
def Desk.RaisesOnly {α : Type} (x : Run ε α) (R : Fault → Prop) : Prop :=
  ∀ d : Desk ε, d.Busy → Desk.Meets x d (fun _ _ => True) (fun f _ => R f)

/-- A text submitted, or a cut made, at a busy desk raises nothing. -/
theorem Desk.raisesOnly_discard {α : Type} {x : Run ε α} {R : Fault → Prop}
    (h : ∀ d : Desk ε, d.Busy → Desk.Meets x d (fun _ _ => True) (fun f _ => R f)) :
  Desk.RaisesOnly (discard x) R
  := by
  intro d hd
  change Desk.Meets (x >>= fun _ => pure ()) d _ _
  rw [Desk.meets_bind]
  apply (h d hd).imp
  intro a d' _
  rw [Desk.meets_pure]
  trivial

namespace Surroundings

/-- Surroundings whose listeners and hooks reenter the desk, and whose files are what a table
says.  The hook of a path is called before the file is looked up, and it raises nothing. -/
structure Reenters (host : Surroundings ε) (media : String → Except Fault Double) : Prop where
  onEvent : ∀ listener event, Reentrant (host.onEvent listener event)
  onPass : ∀ listener pass, Reentrant (host.onPass listener pass)
  onError : ∀ listener message, Reentrant (host.onError listener message)
  lookup : ∀ path, ∃ hook : Run ε Unit, Reentrant hook ∧ Desk.RaisesOnly hook (fun _ => False)
    ∧ host.lookup path = do hook; Desk.ofExcept (media path)

variable {host : Surroundings ε} {media : String → Except Fault Double} {R : Fault → Prop}

/-- Looking up a file brings what the table says, and passes the desk by. -/
theorem Reenters.lookup_cases (h : host.Reenters media) {d : Desk ε} (hd : d.Busy)
    (path : String) :
  (Desk.lookupAt host d path).answer = media path
    ∧ Desk.Meets (host.lookup path) d (fun _ => (Manner.free ε).Passes d)
      (fun _ => (Manner.free ε).Passes d)
  := by
  obtain ⟨hook, hreentrant, hquiet, hlookup⟩ := h.lookup path
  apply Desk.lookup_of_hook _ hlookup
  apply ((hreentrant.passes hd).and (hquiet d hd)).mono
  · rintro _ d' ⟨h', -⟩
    apply h'
  · rintro f d' ⟨-, hf⟩
    apply hf

/-- Listeners that raise only given faults keep to the manner. -/
theorem Reenters.binds (h : host.Reenters media) (hR : ∀ cause, ¬ R (.script cause))
    (hraises : ∀ listener event, Desk.RaisesOnly (host.onEvent listener event) R) :
  (Manner.free ε).Binds R (fun _ => True) hR media host
  := by
  constructor
  · constructor
    · intro d hd line
      exact ⟨rfl, Nat.le_refl _⟩
    · intro d hd listener event
      apply (((h.onEvent listener event).passes hd).and (hraises listener event d hd)).mono
      · rintro _ d' ⟨h', -⟩
        apply h'
      · rintro f d' ⟨h', hf⟩
        exact ⟨hf, h'⟩
    · intro d hd path
      apply (h.lookup_cases hd path).2
  · intro d hd path
    apply (h.lookup_cases hd path).1
  · intro d hd listener pass
    apply ((h.onPass listener pass).passes hd).mono
    · intro _ d' h'
      apply h'
    · intro f d' h'
      exact ⟨trivial, h'⟩
  · intro d hd listener message
    apply ((h.onError listener message).passes hd).mono
    · intro _ d' h'
      apply h'
    · intro f d' h'
      exact ⟨trivial, h'⟩

/-- Nobody around is a case of this. -/
theorem reenters_alone (media : String → Except Fault Double) :
  (Surroundings.alone media).Reenters media
  := by
  constructor
  · intro listener event
    apply Reentrant.pure
  · intro listener pass
    apply Reentrant.pure
  · intro listener message
    apply Reentrant.pure
  · intro path
    refine ⟨pure (), Reentrant.pure (), ?_, rfl⟩
    intro d hd
    rw [Desk.meets_pure]
    trivial

theorem raisesOnly_alone (R : Fault → Prop) (listener : Nat) (event : Event) :
  Desk.RaisesOnly ((Surroundings.alone media).onEvent listener event) R
  := by
  intro d hd
  change Desk.Meets (pure ()) d _ _
  rw [Desk.meets_pure]
  trivial

end Surroundings

end Montage
