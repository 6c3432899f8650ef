import Mathlib.Tactic.Common
import Montage.Desk.Evaluate

/-!
# What an operation comes to

`Meets x d Q E` says what becomes of a desk `d` when the operation `x` is carried out on it:
`Q` holds of the value returned and the desk left behind, or `E` of the fault and the desk
left behind if it fails.  For every way of putting operations together there is an
equivalence that takes the statement apart along the same lines, so what an operation comes
to is worked out from its parts by rewriting.
-/

namespace Montage.Desk

variable {ε α β : Type}

/-- What an operation comes to at a desk, in success and in failure. -/
def Meets (x : Run ε α) (d : Desk ε) (Q : α → Desk ε → Prop) (E : Fault → Desk ε → Prop) :
    Prop :=
  match x d with
  | .ok a d' => Q a d'
  | .error f d' => E f d'

/-- The desk that an operation leaves, whether it succeeds or fails. -/
def after (x : Run ε α) (d : Desk ε) : Desk ε :=
  match x d with
  | .ok _ d' => d'
  | .error _ d' => d'

variable {d : Desk ε} {Q Q' : α → Desk ε → Prop} {E E' : Fault → Desk ε → Prop}

theorem Meets.mono {x : Run ε α} (h : Meets x d Q E) (hQ : ∀ a d', Q a d' → Q' a d')
    (hE : ∀ f d', E f d' → E' f d') :
  Meets x d Q' E'
  := by
  unfold Meets at h ⊢
  split at h
  · apply hQ _ _ h
  · apply hE _ _ h

theorem Meets.imp {x : Run ε α} (h : Meets x d Q E) (hQ : ∀ a d', Q a d' → Q' a d') :
  Meets x d Q' E
  := h.mono hQ fun _ _ h' => h'

theorem Meets.and {x : Run ε α} (h : Meets x d Q E) (h' : Meets x d Q' E') :
  Meets x d (fun a d' => Q a d' ∧ Q' a d') (fun f d' => E f d' ∧ E' f d')
  := by
  unfold Meets at h h' ⊢
  split at h <;> simp_all

/-- What an operation comes to in every respect. -/
theorem meets_forall {ι : Sort*} {x : Run ε α} {Q : ι → α → Desk ε → Prop}
    {E : ι → Fault → Desk ε → Prop} (h : ∀ i, Meets x d (Q i) (E i)) :
  Meets x d (fun a d' => ∀ i, Q i a d') (fun f d' => ∀ i, E i f d')
  := by
  unfold Meets at h ⊢
  cases hx : x d with
  | ok a d' =>
      intro i
      simpa [hx] using h i
  | error f d' =>
      intro i
      simpa [hx] using h i

theorem meets_of_ok {x : Run ε α} {a : α} {d' : Desk ε} (h : x d = .ok a d') :
  Meets x d Q E ↔ Q a d'
  := by
  simp [Meets, h]

theorem meets_of_error {x : Run ε α} {f : Fault} {d' : Desk ε} (h : x d = .error f d') :
  Meets x d Q E ↔ E f d'
  := by
  simp [Meets, h]

/-- An operation that comes to one thing only returns it. -/
theorem Meets.eq_ok {x : Run ε α} {a : α} {d' : Desk ε}
    (h : Meets x d (fun b d'' => b = a ∧ d'' = d') (fun _ _ => False)) :
  x d = .ok a d'
  := by
  unfold Meets at h
  split at h
  · obtain ⟨rfl, rfl⟩ := h
    assumption
  · apply h.elim

/-- An operation that comes to one failure only fails so. -/
theorem Meets.eq_error {x : Run ε α} {f : Fault} {d' : Desk ε}
    (h : Meets x d (fun _ _ => False) (fun g d'' => g = f ∧ d'' = d')) :
  x d = .error f d'
  := by
  unfold Meets at h
  split at h
  · apply h.elim
  · obtain ⟨rfl, rfl⟩ := h
    assumption

/-- Every operation comes to something. -/
theorem meets_self (x : Run ε α) (d : Desk ε) :
  Meets x d (fun a d' => x d = .ok a d') (fun f d' => x d = .error f d')
  := by
  unfold Meets
  split <;> assumption

theorem meets_trivial (x : Run ε α) (d : Desk ε) :
  Meets x d (fun _ _ => True) (fun _ _ => True)
  := (meets_self x d).mono (fun _ _ _ => trivial) fun _ _ _ => trivial

theorem Meets.after {x : Run ε α} {P : Desk ε → Prop}
    (h : Meets x d (fun _ => P) (fun _ => P)) :
  P (after x d)
  := by
  unfold Meets at h
  unfold Desk.after
  split at h <;> assumption

/-- The desk that an operation leaves that never fails. -/
theorem Meets.after_of_never {x : Run ε α} {P : Desk ε → Prop}
    (h : Meets x d (fun _ => P) (fun _ _ => False)) :
  P (Desk.after x d)
  := (h.mono (fun _ _ h' => h') fun _ _ h' => h'.elim).after

/-! ### Simple operations -/

@[simp]
theorem meets_pure (a : α) :
  Meets (pure a) d Q E ↔ Q a d
  := Iff.rfl

@[simp]
theorem meets_throw (f : Fault) :
  Meets (throw f : Run ε α) d Q E ↔ E f d
  := Iff.rfl

@[simp]
theorem meets_get {Q : Desk ε → Desk ε → Prop} :
  Meets get d Q E ↔ Q d d
  := Iff.rfl

@[simp]
theorem meets_set {Q : PUnit → Desk ε → Prop} (d' : Desk ε) :
  Meets (set d') d Q E ↔ Q ⟨⟩ d'
  := Iff.rfl

@[simp]
theorem meets_modify {Q : PUnit → Desk ε → Prop} (g : Desk ε → Desk ε) :
  Meets (modify g) d Q E ↔ Q ⟨⟩ (g d)
  := Iff.rfl

@[simp]
theorem meets_ofExcept_ok (a : α) :
  Meets (ofExcept (.ok a)) d Q E ↔ Q a d
  := Iff.rfl

@[simp]
theorem meets_ofExcept_error (f : Fault) :
  Meets (ofExcept (.error f) : Run ε α) d Q E ↔ E f d
  := Iff.rfl

/-- A computation that does not touch the desk leaves it as it is. -/
theorem meets_ofExcept {P : Desk ε → Prop} (h : P d) (x : Except Fault α) :
  Meets (ofExcept x) d (fun _ => P) (fun _ => P)
  := by
  cases x with
  | ok a => apply (meets_ofExcept_ok a).mpr h
  | error f => apply (meets_ofExcept_error f).mpr h

/-- A value returned from within. -/
@[simp]
theorem meets_return {ρ : Type} (r : ρ) {Q : Except ρ α → Desk ε → Prop} :
  Meets (show Run ε _ from (EarlyReturnT.return r : EarlyReturnT ρ (Run ε) α)) d Q E
    ↔ Q (.error r) d
  := Iff.rfl

/-! ### Operations put together -/

/-- Two operations that end alike come to the same. -/
theorem meets_congr {x y : Run ε α} {d' : Desk ε} (h : x d = y d') :
  Meets x d Q E ↔ Meets y d' Q E
  := by
  unfold Meets
  rw [h]

@[simp]
theorem meets_bind {Q : β → Desk ε → Prop} (x : Run ε α) (k : α → Run ε β) :
  Meets (x >>= k) d Q E ↔ Meets x d (fun a d' => Meets (k a) d' Q E) E
  := by
  have h : (x >>= k) d = EStateM.bind x k d := rfl
  cases hx : x d with
  | ok a d' =>
      rw [meets_of_ok hx]
      apply meets_congr
      simp only [h, EStateM.bind, hx]
  | error f d' =>
      rw [meets_of_error hx]
      apply meets_of_error
      simp only [h, EStateM.bind, hx]

/-- What either of two operations does from desk to desk both of them do together, one after
the other. -/
theorem Meets.bind_trans {P : Desk ε → Desk ε → Prop} {F : Desk ε → Fault → Desk ε → Prop}
    {x : Run ε α} {k : α → Run ε β} (htrans : ∀ {d' d''}, P d d' → P d' d'' → P d d'')
    (hfail : ∀ {f d' d''}, P d d' → F d' f d'' → F d f d'')
    (hx : Meets x d (fun _ => P d) (F d))
    (hk : ∀ a d', P d d' → Meets (k a) d' (fun _ => P d') (F d')) :
  Meets (x >>= k) d (fun _ => P d) (F d)
  := by
  rw [meets_bind]
  apply hx.imp
  intro a d' h
  apply (hk a d' h).mono
  · intro _ d'' h'
    apply htrans h h'
  · intro f d'' h'
    apply hfail h h'

@[simp]
theorem meets_map {Q : β → Desk ε → Prop} (x : Run ε α) (k : α → β) :
  Meets (k <$> x) d Q E ↔ Meets x d (fun a d' => Q (k a) d') E
  := by
  have h : (k <$> x) d = EStateM.map k x d := rfl
  cases hx : x d with
  | ok a d' =>
      rw [meets_of_ok hx]
      apply meets_of_ok
      simp only [h, EStateM.map, hx]
  | error f d' =>
      rw [meets_of_error hx]
      apply meets_of_error
      simp only [h, EStateM.map, hx]

@[simp]
theorem meets_tryCatch (x : Run ε α) (k : Fault → Run ε α) :
  Meets (tryCatch x k) d Q E ↔ Meets x d Q (fun f d' => Meets (k f) d' Q E)
  := by
  have h : tryCatch x k d = EStateM.tryCatch x k d := rfl
  cases hx : x d with
  | ok a d' =>
      rw [meets_of_ok hx]
      apply meets_of_ok
      simp only [h, EStateM.tryCatch, hx]
  | error f d' =>
      rw [meets_of_error hx]
      apply meets_congr
      simp only [h, EStateM.tryCatch, hx]
      rfl

/-- What is done in the end is done in success and in failure. -/
@[simp]
theorem meets_finally (x : Run ε α) (g : Desk ε → Desk ε) :
  Meets (tryFinally x (modify g : Run ε PUnit)) d Q E
    ↔ Meets x d (fun a d' => Q a (g d')) (fun f d' => E f (g d'))
  := by
  rw [tryFinally, meets_map]
  have h : (tryFinally' x fun _ => (modify g : Run ε PUnit)) d
      = match x d with
        | .ok a d' => .ok (a, ⟨⟩) (g d')
        | .error f d' => .error f (g d') := by
    cases hx : x d with
    | ok a d' => simp only [tryFinally', hx]; rfl
    | error f d' => simp only [tryFinally', hx]; rfl
  cases hx : x d with
  | ok a d' =>
      rw [meets_of_ok hx]
      rw [hx] at h
      apply meets_of_ok h
  | error f d' =>
      rw [meets_of_error hx]
      rw [hx] at h
      apply meets_of_error h

/-! ### Asking whether to go on -/

/-- Whether the running batch is to be given up. -/
def pollAnswer (d : Desk ε) : Bool :=
  match d.poll with
  | .never => false
  | .changedSince revision => d.revision != revision
  | .answers next => next.headD false

/-- What is left of the answers once one has been given. -/
def asked (d : Desk ε) : Desk ε :=
  match d.poll with
  | .answers (_ :: answer :: rest) => { d with poll := .answers (answer :: rest) }
  | _ => d

@[simp]
theorem meets_poll? {Q : Bool → Desk ε → Prop} {E : Fault → Desk ε → Prop} :
  Meets poll? d Q E ↔ Q (pollAnswer d) (asked d)
  := by
  rw [poll?, meets_bind, meets_get]
  unfold pollAnswer asked
  rcases hp : d.poll with _ | revision | (_ | ⟨answer, _ | ⟨next, rest⟩⟩) <;> simp

/-! ### Operations on the store -/

section

variable {host : Surroundings ε} {s : Store}

/-- A clip that the store takes is announced once it is in place. -/
theorem meets_add_of_insert {clip : Clip} {id : Option Int} {record : Held}
    {Q : Held → Desk ε → Prop} (h : d.store.insert clip id = .ok (s, record)) :
  Meets (add host clip id) d Q E
    ↔ Meets (announce host .added (some record.tag)) { d with store := s } (fun _ => Q record) E
  := by
  rw [add, meets_bind, meets_get, h]
  simp only [meets_bind, meets_ofExcept_ok, meets_set, meets_pure]

/-- A segment that the store has is gone when its removal is announced. -/
theorem meets_remove_of_erase {id : Int} {x : Held} {Q : Unit → Desk ε → Prop}
    (h : d.store.erase id = some (s, x)) :
  Meets (remove host id) d Q E
    ↔ Meets (announce host .removed (some x.tag)) { d with store := s } Q E
  := by
  rw [remove, meets_bind, meets_get, h]
  simp only [meets_bind, meets_set]

/-- A record is announced once it has taken the place of another. -/
theorem meets_put_of_replace {record : Held} {Q : Unit → Desk ε → Prop}
    (h : d.store.replace record = some s) :
  Meets (put host record) d Q E
    ↔ Meets (announce host .updated (some record.tag)) { d with store := s } Q E
  := by
  rw [put, meets_bind, meets_get, h]
  simp only [meets_bind, meets_set]

end

-- From here on an operation is taken apart by the equivalences above and never run.
attribute [irreducible] Meets

end Montage.Desk
