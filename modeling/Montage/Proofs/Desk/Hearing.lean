import Montage.Proofs.Desk.Conduct
import Montage.Proofs.Timeline.Change

/-!
# Conducts among which events are heard

A `Hearing` is a conduct that tells the desks apart by the events heard on the way to them.
What is heard is what is announced and nothing else: lines that are noted and files that are
looked up make no event.  The statements below describe `add`, `remove`, `put` and `clear` on a
desk with a known sound store.  In each of them the operation puts the new store in place and
announces one event, and the only fault is one of the surroundings, of which nothing is said
but that it leaves the new store as it is.
-/

namespace Montage

/-- A conduct that also tells which events are heard. -/
structure Hearing (ε : Type) extends Conduct ε where
  /-- The events heard from one desk to another. -/
  Hears : Desk ε → List Event → Desk ε → Prop
  nothing (d : Desk ε) : Hears d [] d
  append {d d' d'' : Desk ε} {events events' : List Event} : Hears d events d' →
    Hears d' events' d'' → Hears d (events ++ events') d''
  allows {d d' : Desk ε} {events : List Event} : Hears d events d' → Allows d d'
  hears_withStore {d d' : Desk ε} {events : List Event} (h : Hears d events d') (s : Store) :
    Hears { d with store := s } events { d' with store := s }
  hears_asked {d : Desk ε} : Holds d → Hears d [] d.asked

namespace Hearing

variable {ε : Type} (H : Hearing ε)

/-- Surroundings that keep to a conduct and hear what is announced. -/
structure Governs (host : Surroundings ε) : Prop where
  log {d : Desk ε} (h : H.Holds d) (line : String) :
    H.Hears d [] { d with surroundings := host.log line d.surroundings }
  announce {d : Desk ε} (h : H.Holds d) (kind : EventKind) (tag : Option Nat) :
    Desk.Meets (Desk.announce host kind tag) d
      (fun _ => H.Hears d [⟨kind, tag.bind d.store.current?⟩])
      (fun f d' => H.Raises f ∧ H.Allows d d')
  lookup {d : Desk ε} (h : H.Holds d) (path : String) :
    Desk.Meets (host.lookup path) d (fun _ => H.Hears d []) (fun _ => H.Hears d [])

/-- A desk with another store, and all else as the conduct allows after given events. -/
def Learns (d : Desk ε) (s : Store) (events : List Event) (d' : Desk ε) : Prop :=
  H.Hears { d with store := s } events d'

variable {H} {d d' d'' : Desk ε} {s s' : Store} {events events' : List Event}

theorem Learns.follows (h : H.Learns d s events d') :
  H.Follows d s d'
  := H.allows h

theorem Learns.store (h : H.Learns d s events d') :
  d'.store = s
  := h.follows.store

theorem Learns.holds (hd : H.Holds d) (h : H.Learns d s events d') :
  H.Holds d'
  := h.follows.holds hd

theorem Learns.append (h : H.Learns d s events d') (h' : H.Learns d' s' events' d'') :
  H.Learns d s' (events ++ events') d''
  := H.append (H.hears_withStore h s') h'

theorem Learns.of_hears (h : H.Hears d events d') :
  H.Learns d d.store events d'
  := h

/-- Where nothing more is heard, nothing is added. -/
theorem Learns.silently (h : H.Learns d s events d') (h' : H.Hears d' [] d'') :
  H.Learns d s events d''
  := by
  rw [← List.append_nil events]
  apply H.append h h'

theorem Learns.set (d : Desk ε) (s : Store) :
  H.Learns d s [] { d with store := s }
  := H.nothing _

end Hearing

/-- A conduct that does not tell what is heard. -/
def Conduct.unheard {ε : Type} (C : Conduct ε) : Hearing ε where
  toConduct := C
  Hears d _ d' := C.Allows d d'
  nothing := C.refl
  append := C.trans
  allows h := h
  hears_withStore := C.withStore
  hears_asked := C.asked

theorem Conduct.Binds.unheard {ε : Type} {C : Conduct ε} {host : Surroundings ε}
    (hC : C.Binds host) :
  C.unheard.Governs host
  := by
  constructor
  · intro d hd line
    apply hC.log hd
  · intro d hd kind tag
    apply Desk.meets_announce hC hd d.store
  · intro d hd path
    apply hC.lookup hd

namespace Desk

variable {ε : Type} {host : Surroundings ε} {H : Hearing ε} (hH : H.Governs host)
  {d : Desk ε} (hd : H.Holds d)

include hH hd

/-- Noting a line. -/
theorem meets_log (line : String) {E : Fault → Desk ε → Prop} :
  Meets (log host line) d (fun _ => H.Hears d []) E
  := by
  rw [log, meets_modify]
  apply hH.log hd line

/-! ### Changes of the store -/

/-- Announcing an event once a store is in place. -/
theorem meets_announce_learnt (s : Store) (kind : EventKind) (tag : Option Nat) :
  Meets (announce host kind tag) { d with store := s }
    (fun _ => H.Learns d s [⟨kind, tag.bind s.current?⟩])
    (fun f d' => H.Raises f ∧ H.Follows d s d')
  := hH.announce (H.holds_withStore hd s) kind tag

variable {s : Store} (hstore : d.store = s)

include hstore

theorem meets_clear :
  Meets (clear host) d (fun _ => H.Learns d s.cleared [⟨.cleared, none⟩])
    (fun f d' => H.Raises f ∧ H.Follows d s.cleared d')
  := by
  subst hstore
  rw [clear, meets_bind, modifyStore, meets_modify]
  apply meets_announce_learnt hH hd

variable {before after : List Held} (hs : s.Sound)

include hs

/-- A clip is added where it overlaps no segment. -/
theorem meets_add (h : s.held = before ++ after) {clip : Clip}
    (hclip : clip.Proper) (hb : ∀ y ∈ before, y.segment.stop ≤ clip.start)
    (ha : ∀ y ∈ after, clip.stop ≤ y.segment.start) :
  Meets (add host clip none) d
    (fun record d' => record = s.nextRecord clip
      ∧ H.Learns d (s.addedBetween before clip after) [⟨.added, some ⟨clip, s.nextId⟩⟩] d')
    (fun f d' => H.Raises f ∧ H.Follows d (s.addedBetween before clip after) d')
  := by
  subst hstore
  have hcurrent : (d.store.addedBetween before clip after).current? d.store.nextTag
      = some ⟨clip, d.store.nextId⟩ :=
    (hs.addedBetween h hclip hb ha).current?_eq (x := d.store.nextRecord clip) rfl
  rw [meets_add_of_insert (hs.insert_eq h hclip hb ha)]
  apply (meets_announce_learnt hH hd _ _ _).imp
  intro _ d' h'
  refine ⟨rfl, ?_⟩
  rw [← hcurrent]
  apply h'

variable {x : Held} (h : s.held = before ++ x :: after)

include h

/-- A segment is removed by its id. -/
theorem meets_remove :
  Meets (remove host x.segment.id) d
    (fun _ => H.Learns d (s.removedBetween before x after) [⟨.removed, some x.segment⟩])
    (fun f d' => H.Raises f ∧ H.Follows d (s.removedBetween before x after) d')
  := by
  subst hstore
  rw [meets_remove_of_erase (hs.erase_eq h), ← hs.current?_removed h]
  apply meets_announce_learnt hH hd

/-- A record is put in its own place. -/
theorem meets_put :
  Meets (put host x) d
    (fun _ => H.Learns d { s with former := x :: s.former } [⟨.updated, some x.segment⟩])
    (fun f d' => H.Raises f ∧ H.Follows d { s with former := x :: s.former } d')
  := by
  subst hstore
  have hs' := hs.former (x :: d.store.former)
  rw [meets_put_of_replace (hs.replace_eq h), ← hs'.current?_eq h]
  apply meets_announce_learnt hH hd

end Desk

end Montage
