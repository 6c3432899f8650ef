import Montage.Proofs.Desk.Range
import Montage.Proofs.Timeline.Execute

/-!
# Executing commands under a conduct

On a desk with a sound store, and with surroundings that keep to a conduct, a command reports
and does what `Timeline.execute` says: `Desk.meets_executeOne`.  Where events are heard, what
is heard of it is what `Timeline.announced` says: `Desk.meets_executeOne_heard`.
-/

namespace Montage

/-- The ids of the records that overlap a range. -/
theorem Store.ids_overlapping (s : Store) (start stop : Double) :
  (s.overlapping start stop).map (·.segment.id) = s.timeline.overlappingIds start stop
  := by
  simp [overlapping, Timeline.overlappingIds, timeline, segments, List.filter_map,
    Function.comp_def]

/-- The events of a verb that is applied to the records that overlap a range. -/
theorem Store.announced_overlapping (s : Store) (look : String → Lookup) (verb : RangeVerb)
    (start stop : Double) :
  s.timeline.announced look (.range verb start stop)
    = (s.overlapping start stop).map fun r => verb.announced r.segment
  := by
  simp [overlapping, Timeline.announced, timeline, segments, List.filter_map,
    Function.comp_def]

namespace Hearing

variable {ε : Type} (H : Hearing ε)

/-- A command was executed: what its edit announces was heard, and the desk shows the timeline
it leads to. -/
def Executes (look : String → Lookup) (d : Desk ε) (c : Command) (r : Result) (d' : Desk ε) :
    Prop :=
  ∃ t, d.store.timeline.execute look c = .ok (t, r)
    ∧ H.Attains d t (d.store.timeline.announced look c.edit) d'

/-- A command ended with a fault, its own or one of the surroundings. -/
def Fails (look : String → Lookup) (d : Desk ε) (c : Command) (f : Fault) (d' : Desk ε) : Prop :=
  H.Breaks d f d'
    ∨ (d.store.timeline.execute look c = .error f ∧ H.Attains d d.store.timeline [] d')

end Hearing

namespace Desk

variable {ε : Type} {host : Surroundings ε} {d : Desk ε}

section

variable {H : Hearing ε} (hH : H.Governs host) (hd : H.Holds d) (hs : d.store.Sound)

include hH hd hs

/-- The segments that overlap a range are hidden, shown or deleted. -/
theorem meets_applyRange (look : String → Lookup) (verb : RangeVerb) (start stop : Double) :
  Meets (applyRange host verb start stop) d (H.Performs look d (.range verb start stop))
    (H.Refuses look d (.range verb start stop))
  := by
  have hmem : ∀ r ∈ d.store.overlapping start stop, r ∈ d.store.held :=
    fun r hr => List.mem_of_mem_filter hr
  have htags : (d.store.overlapping start stop).Pairwise fun x y => x.tag ≠ y.tag :=
    hs.tags.sublist List.filter_sublist
  have hids := d.store.ids_overlapping start stop
  have hevents := d.store.announced_overlapping look verb start stop
  rw [applyRange, meets_bind, meets_get]
  cases verb with
  | hide | reveal =>
      apply (meets_showAll hH hd hs _ _ _ hmem htags).mono
      · rintro ids d' ⟨rfl, h'⟩
        rw [hids] at h' ⊢
        refine ⟨_, rfl, ?_⟩
        rw [hs.timeline.applyRange_marked start stop fun _ => rfl, hevents]
        apply h'
      · intro f d' h'
        left
        apply h'
  | delete =>
      apply (meets_removeAll hH hd hs _ hmem htags).mono
      · rintro ids d' ⟨rfl, h'⟩
        rw [hids] at h' ⊢
        refine ⟨_, rfl, ?_⟩
        rw [hs.timeline.applyRange_without start stop, hevents]
        apply h'
      · intro f d' h'
        left
        apply h'

/-- An edit makes of the timeline what it should. -/
theorem meets_applyEdit (e : Edit) :
  Meets (applyEdit host e) d (H.Performs (lookupAt host d) d e)
    (H.Refuses (lookupAt host d) d e)
  := by
  cases e with
  | load path => apply meets_load hH hd hs
  | cut time => apply meets_cut hH hd hs
  | range verb start stop => apply meets_applyRange hH hd hs

omit hs in
/-- The failure of a command is reported if the command can be mentioned. -/
theorem meets_failed (c : Command) (cause : ScriptFault) :
  Meets (failed host c (.script cause)) d
    (fun r d' => (∃ m, c.mention = .ok m) ∧ r = ⟨c, .error cause⟩ ∧ H.Hears d [] d')
    (fun f d' => c.mention = .error f ∧ d' = d)
  := by
  unfold failed Command.mention
  cases Text.writeInteger c.line with
  | error f =>
      rw [meets_bind, meets_ofExcept_error]
      exact ⟨rfl, rfl⟩
  | ok line =>
      cases c.text with
      | error f =>
          rw [meets_bind, meets_ofExcept_ok, meets_bind, meets_ofExcept_error]
          exact ⟨rfl, rfl⟩
      | ok text =>
          rw [meets_bind, meets_ofExcept_ok, meets_bind, meets_ofExcept_ok, meets_bind]
          apply (meets_log hH hd _).imp
          intro _ d' h'
          rw [meets_pure]
          exact ⟨⟨_, rfl⟩, rfl, h'⟩

/-- A command reports and does what it should, and what it should is heard. -/
theorem meets_executeOne_heard (c : Command) :
  Meets (executeOne host c) d (H.Executes (lookupAt host d) d c)
    (H.Fails (lookupAt host d) d c)
  := by
  unfold Hearing.Executes Hearing.Fails Timeline.execute
  rw [executeOne, meets_tryCatch, meets_bind]
  apply (meets_applyEdit hH hd hs c.edit).mono
  · rintro ids d' ⟨t, hedit, h'⟩
    rw [meets_pure, hedit]
    use t
  · rintro f d' (⟨hraises, h'⟩ | ⟨hedit, h'⟩)
    · have hthrow : failed host c f = throw f := by
        cases f with
        | script cause => apply (H.not_script hraises).elim
        | _ => rfl
      rw [hthrow, meets_throw]
      left
      exact ⟨hraises, h'⟩
    · rw [hedit, Timeline.announced_of_error hedit]
      cases f with
      | script cause =>
          apply (meets_failed hH (h'.holds hd) c cause).mono
          · rintro r d'' ⟨⟨m, hmention⟩, rfl, h''⟩
            refine ⟨d.store.timeline, ?_, h'.silently h''⟩
            rw [hmention]
            rfl
          · rintro f d'' ⟨hmention, rfl⟩
            right
            rw [hmention]
            exact ⟨rfl, h'⟩
      | _ =>
          apply (meets_throw _).mpr
          right
          exact ⟨rfl, h'⟩

end

/-- A command reports and does what it should. -/
theorem meets_executeOne {C : Conduct ε} (hC : C.Binds host) (hd : C.Holds d)
    (hs : d.store.Sound) (c : Command) :
  Meets (executeOne host c) d
    (fun r d' => ∃ t, d.store.timeline.execute (lookupAt host d) c = .ok (t, r)
      ∧ C.Reaches d t d')
    (fun f d' => C.Breaks d f d'
      ∨ (d.store.timeline.execute (lookupAt host d) c = .error f
        ∧ C.Reaches d d.store.timeline d'))
  := by
  apply (meets_executeOne_heard hC.unheard hd hs c).mono
  · rintro r d' ⟨t, hexecute, h'⟩
    exact ⟨t, hexecute, h'.reaches⟩
  · rintro f d' (hbreaks | ⟨hexecute, h'⟩)
    · left
      apply hbreaks
    · right
      exact ⟨hexecute, h'.reaches⟩

end Desk

end Montage
