import Montage.Proofs.Desk.Hearing

/-!
# Listeners that keep a record

A `Recorder` is a listener that does nothing but add each event it is told of to a record,
which nobody else touches.  The events that given surroundings are told of, `Surroundings.Tells`,
are those that every recorder among them has added.  Under a conduct they are what is announced:
`Conduct.Binds.recorded`.
-/

namespace Montage

variable {ε : Type}

/-- A desk at which a listener has added given events to its record, and is subscribed as often
as it was. -/
structure Desk.Recorded (m : Nat) (record : ε → List Event) (events : List Event)
    (d d' : Desk ε) : Prop where
  record : record d'.surroundings = record d.surroundings ++ events
  count : d'.listeners.count m = d.listeners.count m

namespace Surroundings

/-- A listener that keeps a record of the events it is told of. -/
structure Recorder (host : Surroundings ε) (m : Nat) (record : ε → List Event) : Prop where
  log (line : String) (e : ε) : record (host.log line e) = record e
  told (event : Event) (d : Desk ε) :
    Desk.Meets (host.onEvent m event) d (fun _ => Desk.Recorded m record [event] d)
      (fun _ _ => True)
  others {listener : Nat} (h : listener ≠ m) (event : Event) (d : Desk ε) :
    Desk.Meets (host.onEvent listener event) d (fun _ => Desk.Recorded m record [] d)
      (fun _ _ => True)
  lookup (path : String) (d : Desk ε) :
    Desk.Meets (host.lookup path) d (fun _ => Desk.Recorded m record [] d)
      (fun _ => Desk.Recorded m record [] d)

/-- Every recorder that is subscribed once has been told of given events, in order. -/
def Tells (host : Surroundings ε) (events : List Event) (d d' : Desk ε) : Prop :=
  ∀ m record, host.Recorder m record → d.listeners.count m = 1 → d.Recorded m record events d'

end Surroundings

namespace Desk

variable {m : Nat} {record : ε → List Event} {events events' : List Event} {d d' d'' : Desk ε}
  {host : Surroundings ε}

theorem Recorded.refl (d : Desk ε) :
  d.Recorded m record [] d
  := ⟨by simp, rfl⟩

theorem Recorded.append (h : d.Recorded m record events d')
    (h' : d'.Recorded m record events' d'') :
  d.Recorded m record (events ++ events') d''
  := by
  constructor
  · rw [h'.record, h.record, List.append_assoc]
  · rw [h'.count, h.count]

theorem asked_recorded (d : Desk ε) :
  d.Recorded m record [] d.asked
  := by
  constructor
  · rw [List.append_nil]
    unfold asked
    split <;> rfl
  · unfold asked
    split <;> rfl

end Desk

namespace Surroundings

variable {events events' : List Event} {d d' d'' : Desk ε} {host : Surroundings ε}

theorem Tells.append (h : host.Tells events d d') (h' : host.Tells events' d' d'') :
  host.Tells (events ++ events') d d''
  := by
  intro m record hrecorder hcount
  have hd := h m record hrecorder hcount
  apply hd.append (h' m record hrecorder (hd.count.trans hcount))

/-- What is told depends on the listeners and the surroundings of a desk alone. -/
theorem Tells.congr {e e' : Desk ε} (h : host.Tells events d d')
    (hlisteners : e.listeners = d.listeners) (hlisteners' : e'.listeners = d'.listeners)
    (hsurroundings : e.surroundings = d.surroundings)
    (hsurroundings' : e'.surroundings = d'.surroundings) :
  host.Tells events e e'
  := by
  intro m record hrecorder hcount
  rw [hlisteners] at hcount
  obtain ⟨hrecord, hcount'⟩ := h m record hrecorder hcount
  constructor
  · rw [hsurroundings, hsurroundings', hrecord]
  · rw [hlisteners, hlisteners', hcount']

end Surroundings

/-- A conduct of given surroundings, with what recorders among them are told. -/
def Conduct.recorded (C : Conduct ε) (host : Surroundings ε) : Hearing ε where
  toConduct := C
  Hears d events d' := C.Allows d d' ∧ host.Tells events d d'
  nothing d := ⟨C.refl d, fun _ _ _ _ => Desk.Recorded.refl d⟩
  append h h' := ⟨C.trans h.1 h'.1, h.2.append h'.2⟩
  allows h := h.1
  hears_withStore h s := ⟨C.withStore h.1 s, h.2.congr rfl rfl rfl rfl⟩
  hears_asked {d} h := ⟨C.asked h, fun _ _ _ _ => d.asked_recorded⟩

/-- Telling listeners of an event adds it to a record as often as the listener that keeps the
record is among them. -/
theorem Desk.meets_tell_recorded {C : Conduct ε} {host : Surroundings ε} (hC : C.Binds host)
    {m : Nat} {record : ε → List Event} (hrecorder : host.Recorder m record) {d : Desk ε}
    (hd : C.Holds d) (kind : EventKind) (tag : Option Nat) (listeners : List Nat) :
  Meets (tell host kind tag listeners) d
    (fun _ => d.Recorded m record
      (List.replicate (listeners.count m) ⟨kind, tag.bind d.store.current?⟩))
    (fun _ _ => True)
  := by
  induction listeners generalizing d with
  | nil =>
      rw [tell, meets_pure]
      apply Recorded.refl
  | cons listener rest ih =>
      have hevent := hC.onEvent hd listener ⟨kind, tag.bind d.store.current?⟩
      rw [tell, meets_bind, meets_get, meets_bind]
      by_cases hlistener : listener = m
      · subst hlistener
        apply (hevent.and (hrecorder.told _ d)).mono
        · rintro _ d₁ ⟨hallows, htold⟩
          rw [List.count_cons_self, List.replicate_succ, ← C.store hallows]
          apply (ih (C.holds hd hallows)).imp
          intro _ d₂ h₂
          rw [← C.store hallows] at htold
          apply htold.append h₂
        · intro _ _ _
          trivial
      · apply (hevent.and (hrecorder.others hlistener _ d)).mono
        · rintro _ d₁ ⟨hallows, htold⟩
          rw [List.count_cons_of_ne hlistener, ← C.store hallows]
          apply (ih (C.holds hd hallows)).imp
          intro _ d₂ h₂
          apply htold.append h₂
        · intro _ _ _
          trivial

/-- Recorders are told of all that is announced, as long as nobody breaks it off, and of
nothing else. -/
theorem Conduct.Binds.recorded {C : Conduct ε} {host : Surroundings ε} (hC : C.Binds host) :
  (C.recorded host).Governs host
  := by
  constructor
  · intro d hd line
    refine ⟨hC.log hd line, fun m record hrecorder _ => ⟨?_, rfl⟩⟩
    rw [hrecorder.log, List.append_nil]
  · intro d hd kind tag
    have htells : Desk.Meets (Desk.announce host kind tag) d
        (fun _ => host.Tells [⟨kind, tag.bind d.store.current?⟩] d)
        (fun _ _ => ∀ m record, host.Recorder m record → d.listeners.count m = 1 → True) := by
      refine Desk.meets_forall fun m => Desk.meets_forall fun record =>
        Desk.meets_forall fun hrecorder => Desk.meets_forall fun hcount => ?_
      have htell := Desk.meets_tell_recorded hC hrecorder hd kind tag d.listeners
      rw [hcount] at htell
      rw [Desk.announce, Desk.meets_bind, Desk.meets_get]
      apply htell
    apply ((Desk.meets_announce hC hd d.store kind tag).and htells).mono
    · intro _ d' h'
      apply h'
    · intro f d' h'
      apply h'.1
  · intro d hd path
    have htells : Desk.Meets (host.lookup path) d (fun _ => host.Tells [] d)
        (fun _ => host.Tells [] d) := by
      refine Desk.meets_forall fun m => Desk.meets_forall fun record =>
        Desk.meets_forall fun hrecorder => Desk.meets_forall fun _ => ?_
      apply hrecorder.lookup
    apply (hC.lookup hd path).and htells

/-! ### A recorder with nobody else around -/

namespace Surroundings

variable {media : String → Except Fault Double}

/-- Surroundings with a table of media files and one listener, which keeps a record. -/
def recording (media : String → Except Fault Double) : Surroundings (List Event) where
  log _ events := events
  onEvent listener event :=
    if listener = 0 then modify fun d => { d with surroundings := d.surroundings ++ [event] }
    else pure ()
  onPass _ _ := pure ()
  onError _ _ := pure ()
  lookup path := Desk.ofExcept (media path)

theorem recorder_recording :
  (recording media).Recorder 0 id
  := by
  constructor
  · intro line events
    rfl
  · intro event d
    rw [recording]
    dsimp only
    rw [if_pos rfl, Desk.meets_modify]
    exact ⟨rfl, rfl⟩
  · intro listener h event d
    rw [recording]
    dsimp only
    rw [if_neg h, Desk.meets_pure]
    apply Desk.Recorded.refl
  · intro path d
    apply Desk.meets_ofExcept (Desk.Recorded.refl d)

/-- Keeping a record keeps to every conduct that does not concern the record. -/
theorem binds_recording {C : Conduct (List Event)}
    (h : ∀ d events, C.Allows d { d with surroundings := events }) :
  C.Binds (recording media)
  := by
  constructor
  · intro d _ line
    apply C.refl
  · intro d _ listener event
    rw [recording]
    dsimp only
    split
    · rw [Desk.meets_modify]
      apply h
    · rw [Desk.meets_pure]
      apply C.refl
  · intro d _ path
    apply Desk.meets_ofExcept (C.refl d)

end Surroundings

end Montage
