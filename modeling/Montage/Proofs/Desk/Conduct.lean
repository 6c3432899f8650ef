import Montage.Proofs.Desk.Outcome

/-!
# The conduct of the surroundings

Whatever surrounds a desk is called while an operation is under way and may act on the desk
itself.  A `Conduct` states what it may do then: at which desks it is called, which desks it
may leave, and with which faults it may end.  The store is never among the things it
changes, and its faults are never those of commands.

Under a conduct every change of a store arrives at the listeners as it was made: once it is
in place, announcing it leaves a desk that the conduct allows, and the only fault is one of
the surroundings.
-/

namespace Montage

/-- What those who surround a desk may do to it when they are called. -/
structure Conduct (ε : Type) where
  /-- The desks at which they are called. -/
  Holds : Desk ε → Prop
  /-- What they may make of a desk. -/
  Allows : Desk ε → Desk ε → Prop
  /-- The faults with which they may end. -/
  Raises : Fault → Prop
  refl (d : Desk ε) : Allows d d
  trans {d d' d'' : Desk ε} : Allows d d' → Allows d' d'' → Allows d d''
  store {d d' : Desk ε} : Allows d d' → d'.store = d.store
  withStore {d d' : Desk ε} (h : Allows d d') (s : Store) :
    Allows { d with store := s } { d' with store := s }
  holds {d d' : Desk ε} : Holds d → Allows d d' → Holds d'
  holds_withStore {d : Desk ε} (h : Holds d) (s : Store) : Holds { d with store := s }
  asked {d : Desk ε} : Holds d → Allows d d.asked
  not_script {cause : ScriptFault} : ¬ Raises (.script cause)

namespace Conduct

variable {ε : Type} (C : Conduct ε)

/-- Surroundings that keep to a conduct. -/
structure Binds (host : Surroundings ε) : Prop where
  log {d : Desk ε} (h : C.Holds d) (line : String) :
    C.Allows d { d with surroundings := host.log line d.surroundings }
  onEvent {d : Desk ε} (h : C.Holds d) (listener : Nat) (event : Event) :
    Desk.Meets (host.onEvent listener event) d (fun _ => C.Allows d)
      (fun f d' => C.Raises f ∧ C.Allows d d')
  lookup {d : Desk ε} (h : C.Holds d) (path : String) :
    Desk.Meets (host.lookup path) d (fun _ => C.Allows d) (fun _ => C.Allows d)

/-- A conduct at those desks alone where a property holds that it keeps. -/
def during (P : Desk ε → Prop) (keeps : ∀ {d d' : Desk ε}, C.Allows d d' → P d → P d')
    (keeps_withStore : ∀ {d : Desk ε} (s : Store), P d → P { d with store := s }) :
    Conduct ε where
  Holds d := C.Holds d ∧ P d
  Allows := C.Allows
  Raises := C.Raises
  refl := C.refl
  trans := C.trans
  store := C.store
  withStore := C.withStore
  holds hd h := ⟨C.holds hd.1 h, keeps h hd.2⟩
  holds_withStore hd s := ⟨C.holds_withStore hd.1 s, keeps_withStore s hd.2⟩
  asked hd := C.asked hd.1
  not_script := C.not_script

variable {C} in
theorem Binds.during {host : Surroundings ε} (hC : C.Binds host) {P : Desk ε → Prop}
    (keeps : ∀ {d d' : Desk ε}, C.Allows d d' → P d → P d')
    (keeps_withStore : ∀ {d : Desk ε} (s : Store), P d → P { d with store := s }) :
  (C.during P keeps keeps_withStore).Binds host
  := by
  constructor
  · intro d hd
    apply hC.log hd.1
  · intro d hd
    apply hC.onEvent hd.1
  · intro d hd
    apply hC.lookup hd.1

/-- A desk with another store, and all else as the conduct allows. -/
def Follows (d : Desk ε) (s : Store) (d' : Desk ε) : Prop :=
  C.Allows { d with store := s } d'

variable {C} {d d' d'' : Desk ε} {s s' : Store}

theorem Follows.store (h : C.Follows d s d') :
  d'.store = s
  := C.store h

theorem Follows.refl (d : Desk ε) :
  C.Follows d d.store d
  := C.refl d

theorem Follows.set (d : Desk ε) (s : Store) :
  C.Follows d s { d with store := s }
  := C.refl _

theorem Follows.trans (h : C.Follows d s d') (h' : C.Follows d' s' d'') :
  C.Follows d s' d''
  := C.trans (C.withStore h s') h'

theorem Follows.allows (h : C.Follows d s d') (h' : C.Allows d' d'') :
  C.Follows d s d''
  := C.trans h h'

theorem Follows.holds (hd : C.Holds d) (h : C.Follows d s d') :
  C.Holds d'
  := C.holds (C.holds_withStore hd s) h

end Conduct

namespace Desk

variable {ε : Type} {host : Surroundings ε} {C : Conduct ε} (hC : C.Binds host)
  {d : Desk ε} (hd : C.Holds d)

include hC hd

/-! ### Announcements -/

/-- Telling listeners of an event ends as the conduct allows. -/
theorem meets_tell (kind : EventKind) (tag : Option Nat) (listeners : List Nat) :
  Meets (tell host kind tag listeners) d (fun _ => C.Allows d)
    (fun f d' => C.Raises f ∧ C.Allows d d')
  := by
  induction listeners generalizing d with
  | nil =>
      rw [tell, meets_pure]
      apply C.refl
  | cons listener rest ih =>
      rw [tell, meets_bind, meets_get]
      apply Meets.bind_trans C.trans (fun h h' => ⟨h'.1, C.trans h h'.2⟩) (hC.onEvent hd listener _)
      intro _ d' h
      apply ih (C.holds hd h)

/-- Announcing an event once a store is in place. -/
theorem meets_announce (s : Store) (kind : EventKind) (tag : Option Nat) :
  Meets (announce host kind tag) { d with store := s } (fun _ => C.Follows d s)
    (fun f d' => C.Raises f ∧ C.Follows d s d')
  := by
  rw [announce, meets_bind, meets_get]
  apply meets_tell hC (C.holds_withStore hd s)

end Desk

end Montage
