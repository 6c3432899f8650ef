import Montage.Proofs.Desk.Hearing
import Montage.Proofs.Timeline.Edit

/-!
# Looking up a file under a conduct

`Conduct.Reaches` and `Conduct.Breaks` are the two ends that an operation can come to on a
sound store when the surroundings keep to a conduct: the store shows a known timeline, or the
surroundings have ended the operation with a fault of their own and left a sound store.  Where
events are heard, `Hearing.Attains` says in the first case which they were.  The duration of a
file is that of its lookup, `Desk.lookupAt`.
-/

namespace Montage

namespace Conduct

variable {ε : Type}

/-- A desk whose sound store shows a timeline, and all else as the conduct allows. -/
structure Reaches (C : Conduct ε) (d : Desk ε) (t : Timeline) (d' : Desk ε) : Prop where
  sound : d'.store.Sound
  timeline : d'.store.timeline = t
  follows : C.Follows d d'.store d'

variable {C : Conduct ε} {d d' d'' : Desk ε} {t t' : Timeline}

theorem Follows.reaches {s : Store} (h : C.Follows d s d') (hs : s.Sound) :
  C.Reaches d s.timeline d'
  := by
  obtain rfl := h.store
  exact ⟨hs, rfl, h⟩

theorem Reaches.of_allows (hs : d.store.Sound) (h : C.Allows d d') :
  C.Reaches d d.store.timeline d'
  := Follows.reaches (Follows.refl d |>.allows h) hs

theorem Reaches.trans (h : C.Reaches d t d') (h' : C.Reaches d' t' d'') :
  C.Reaches d t' d''
  := ⟨h'.sound, h'.timeline, h.follows.trans h'.follows⟩

theorem Reaches.allows (h : C.Reaches d t d') (h' : C.Allows d' d'') :
  C.Reaches d t d''
  := by
  obtain ⟨hs, rfl, hf⟩ := h
  apply Follows.reaches (hf.allows h') hs

theorem Reaches.holds (hd : C.Holds d) (h : C.Reaches d t d') :
  C.Holds d'
  := h.follows.holds hd

/-- A fault of the surroundings, after which the store is still sound. -/
def Breaks (C : Conduct ε) (d : Desk ε) (f : Fault) (d' : Desk ε) : Prop :=
  C.Raises f ∧ ∃ t, C.Reaches d t d'

theorem Follows.breaks {s : Store} {f : Fault} (h : C.Raises f ∧ C.Follows d s d')
    (hs : s.Sound) :
  C.Breaks d f d'
  := ⟨h.1, s.timeline, h.2.reaches hs⟩

theorem Reaches.breaks {f : Fault} (h : C.Reaches d t d') (h' : C.Breaks d' f d'') :
  C.Breaks d f d''
  := by
  obtain ⟨hf, t', h'⟩ := h'
  exact ⟨hf, t', h.trans h'⟩

end Conduct

namespace Hearing

variable {ε : Type}

/-- A desk whose sound store shows a timeline, and all else as the conduct allows after given
events. -/
structure Attains (H : Hearing ε) (d : Desk ε) (t : Timeline) (events : List Event)
    (d' : Desk ε) : Prop where
  sound : d'.store.Sound
  timeline : d'.store.timeline = t
  learns : H.Learns d d'.store events d'

variable {H : Hearing ε} {d d' d'' : Desk ε} {t t' : Timeline} {events events' : List Event}

theorem Attains.reaches (h : H.Attains d t events d') :
  H.Reaches d t d'
  := ⟨h.sound, h.timeline, h.learns.follows⟩

theorem Attains.holds (hd : H.Holds d) (h : H.Attains d t events d') :
  H.Holds d'
  := h.learns.holds hd

theorem Learns.attains {s : Store} (h : H.Learns d s events d') (hs : s.Sound) :
  H.Attains d s.timeline events d'
  := by
  obtain rfl := h.store
  exact ⟨hs, rfl, h⟩

theorem Attains.of_hears (hs : d.store.Sound) (h : H.Hears d events d') :
  H.Attains d d.store.timeline events d'
  := (Learns.of_hears h).attains hs

theorem Attains.append (h : H.Attains d t events d') (h' : H.Attains d' t' events' d'') :
  H.Attains d t' (events ++ events') d''
  := ⟨h'.sound, h'.timeline, h.learns.append h'.learns⟩

theorem Attains.silently (h : H.Attains d t events d') (h' : H.Hears d' [] d'') :
  H.Attains d t events d''
  := by
  obtain ⟨hs, rfl, hlearns⟩ := h
  apply (hlearns.silently h').attains hs

end Hearing

namespace Desk

variable {ε : Type} {host : Surroundings ε} {d : Desk ε}

/-- What the lookup of a path brings at a desk. -/
def lookupAt (host : Surroundings ε) (d : Desk ε) (path : String) : Lookup where
  answer :=
    match host.lookup path d with
    | .ok duration _ => .ok duration
    | .error f _ => .error f
  overtaken := pollAnswer (after (host.lookup path) d)

variable {d' : Desk ε} {path : String}

theorem lookupAt_ok {duration : Double} (h : host.lookup path d = .ok duration d') :
  lookupAt host d path = ⟨.ok duration, pollAnswer d'⟩
  := by
  simp [lookupAt, after, h]

theorem lookupAt_error {f : Fault} (h : host.lookup path d = .error f d') :
  lookupAt host d path = ⟨.error f, pollAnswer d'⟩
  := by
  simp [lookupAt, after, h]

/-- A file that is looked up in a table and nowhere else. -/
theorem lookupAt_table {media : String → Except Fault Double}
    (h : host.lookup path = ofExcept (media path)) :
  lookupAt host d path = ⟨media path, pollAnswer d⟩
  := by
  cases hmedia : media path with
  | ok duration =>
      apply lookupAt_ok
      rw [h, hmedia]
      rfl
  | error f =>
      apply lookupAt_error
      rw [h, hmedia]
      rfl

/-- How far a desk is taken to find the duration of a file.  The file is looked up unless its
path is blank, and whether to go on is asked if the lookup has found a duration that can be that
of a segment. -/
def lookedUp (host : Surroundings ε) (path : String) (d : Desk ε) : Desk ε :=
  if Text.isBlankText path then d
  else
    match host.lookup path d with
    | .error _ d' => d'
    | .ok duration d' => if !duration.isFinite || duration ≤ .zero then d' else d'.asked

/-- The duration of a file is that of its lookup, and nothing else is done to find it. -/
theorem meets_playableDuration_exact (host : Surroundings ε) (d : Desk ε) (path : String) :
  Meets (playableDuration host path) d
    (fun duration d' => (lookupAt host d path).playable path = .ok duration
      ∧ d' = lookedUp host path d)
    (fun f d' => (lookupAt host d path).playable path = .error f ∧ d' = lookedUp host path d)
  := by
  unfold playableDuration Lookup.playable lookedUp
  by_cases hblank : Text.isBlankText path = true
  · simp [hblank]
  · simp only [if_neg hblank, meets_bind, meets_tryCatch, meets_throw]
    cases hl : host.lookup path d with
    | error f d' =>
        rw [meets_of_error hl, lookupAt_error hl]
        exact ⟨rfl, rfl⟩
    | ok duration d' =>
        rw [meets_of_ok hl, lookupAt_ok hl]
        dsimp only
        split
        · rw [meets_bind, meets_throw]
          exact ⟨rfl, rfl⟩
        · rw [meets_bind, meets_poll?]
          split
          · rw [meets_bind, meets_throw]
            exact ⟨rfl, rfl⟩
          · rw [meets_pure]
            exact ⟨rfl, rfl⟩

/-- Nothing is heard while the duration of a file is found. -/
theorem hears_lookedUp {H : Hearing ε} (hH : H.Governs host) (hd : H.Holds d) (path : String) :
  H.Hears d [] (lookedUp host path d)
  := by
  unfold lookedUp
  split
  · apply H.nothing
  · have hlook := hH.lookup hd path
    cases hl : host.lookup path d with
    | error f d' =>
        rw [meets_of_error hl] at hlook
        apply hlook
    | ok duration d' =>
        rw [meets_of_ok hl] at hlook
        dsimp only
        split
        · apply hlook
        · apply H.append hlook (H.hears_asked (H.holds hd (H.allows hlook)))

theorem meets_playableDuration {H : Hearing ε} (hH : H.Governs host) (hd : H.Holds d)
    (path : String) :
  Meets (playableDuration host path) d
    (fun duration d' => (lookupAt host d path).playable path = .ok duration ∧ H.Hears d [] d')
    (fun f d' => (lookupAt host d path).playable path = .error f ∧ H.Hears d [] d')
  := by
  have hheard := hears_lookedUp hH hd path
  apply (meets_playableDuration_exact host d path).mono
  · rintro duration _ ⟨hplayable, rfl⟩
    exact ⟨hplayable, hheard⟩
  · rintro f _ ⟨hplayable, rfl⟩
    exact ⟨hplayable, hheard⟩

end Desk

/-! ### Nobody around -/

/-- A desk with nobody around and a table of media files. -/
def Surroundings.alone (media : String → Except Fault Double) : Surroundings Unit where
  log _ s := s
  onEvent _ _ := pure ()
  onPass _ _ := pure ()
  onError _ _ := pure ()
  lookup path := Desk.ofExcept (media path)

/-- With nobody around any conduct is kept. -/
theorem Conduct.binds_alone (C : Conduct Unit) (media : String → Except Fault Double) :
  C.Binds (Surroundings.alone media)
  := by
  constructor
  · intro d _ line
    apply C.refl
  · intro d _ listener event
    change Desk.Meets (pure ()) d _ _
    rw [Desk.meets_pure]
    apply C.refl
  · intro d _ path
    apply Desk.meets_ofExcept (C.refl d)

end Montage
