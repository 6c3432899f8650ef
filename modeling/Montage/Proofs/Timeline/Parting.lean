import Montage.Proofs.Timeline.Cuts

/-!
# A single cut

A cut changes bounds and nothing else.  `Timeline.CutsTo` says all that a cut does: when it
succeeds and why it fails, what it leaves of the segments, and what it announces.  Three tests
of a time against a segment meet here.  A segment is cut at a time that lies between its ends,
a cut that fails is explained by a segment that contains the time with its ends, and an instant
is shown by a segment that contains it with its start alone.
-/

namespace Montage

/-- One of some clips starts or ends at a number equal to a time. -/
def Clip.Touched (clips : List Clip) (time : Double) : Prop :=
  ∃ c ∈ clips, c.start.equals time = true ∨ time.equals c.stop = true

instance (clips : List Clip) (time : Double) : Decidable (Clip.Touched clips time) :=
  inferInstanceAs (Decidable (∃ c ∈ clips, _))

/-- A clip contains the times that it encloses and those equal to its ends. -/
theorem Clip.Proper.contains_iff {c : Clip} (hc : c.Proper) {time : Double}
    (h : ¬ c.encloses time = true) :
  c.contains time = true ↔ c.start.equals time = true ∨ time.equals c.stop = true
  := by
  rw [contains, Bool.and_eq_true, decide_eq_true_iff, decide_eq_true_iff]
  constructor
  · rintro ⟨hstart, hstop⟩
    rcases Double.lt_or_equals_of_le hstart with hlt | heq
    · rcases Double.lt_or_equals_of_le hstop with hlt' | heq
      · apply absurd (encloses_iff.mpr ⟨hlt, hlt'⟩) h
      · right
        apply heq
    · left
      apply heq
  · rintro (heq | heq)
    · obtain ⟨hle, hge⟩ := Double.le_of_equals heq
      exact ⟨hle, Double.le_of_lt (Double.lt_of_le_of_lt hge hc.2)⟩
    · obtain ⟨hle, hge⟩ := Double.le_of_equals heq
      exact ⟨Double.le_of_lt (Double.lt_of_lt_of_le hc.2 hge), hle⟩

namespace Timeline

/-- A segment that shows a given file, visibly or not, is on at an instant. -/
def Shows (t : Timeline) (instant : Double) (visible : Bool) (path : String) : Prop :=
  ∃ x ∈ t.segments, (x.start ≤ instant ∧ instant < x.stop) ∧ x.visible = visible ∧ x.path = path

instance (t : Timeline) (instant : Double) (visible : Bool) (path : String) :
    Decidable (t.Shows instant visible path) :=
  inferInstanceAs (Decidable (∃ x ∈ t.segments, _))

/-- An outcome that is a failure of a given kind. -/
def FailsAs (kind : ScriptFault.Kind) (outcome : Except ScriptFault (List Int)) : Prop :=
  ∃ cause, outcome = .error cause ∧ cause.kind = kind

/-- What a cut at a time makes of a timeline, how it ends and what it announces. -/
structure CutsTo (t : Timeline) (time : Double) (outcome : Except ScriptFault (List Int))
    (t' : Timeline) (events : List Event) : Prop where
  succeeds : outcome.isOk = true ↔ Clip.Enclosed t.clips time
  degenerate : FailsAs .degenerateCut outcome
    ↔ ¬ Clip.Enclosed t.clips time ∧ Clip.Touched t.clips time
  nowhere : FailsAs .noSegment outcome
    ↔ ¬ Clip.Enclosed t.clips time ∧ ¬ Clip.Touched t.clips time
  refused : outcome.isOk = false → t' = t ∧ events = []
  /-- One segment is replaced by two stopped ones that meet at the time. -/
  parted : outcome.isOk = true → ∃ before x after, t.segments = before ++ x :: after
    ∧ (x.start < time ∧ time < x.stop) ∧ outcome = .ok [t.nextId, t.nextId + 1]
    ∧ t' = ⟨before ++ ⟨x.headAt time, t.nextId⟩ :: ⟨x.tailAt time, t.nextId + 1⟩ :: after,
      t.nextId + 2⟩
    ∧ events = [⟨.removed, some x⟩, ⟨.added, some ⟨x.headAt time, t.nextId⟩⟩,
      ⟨.added, some ⟨x.tailAt time, t.nextId + 1⟩⟩]
  fresh : ∀ x ∈ t.segments, x.id < t.nextId
  shows : ∀ instant visible path, t'.Shows instant visible path ↔ t.Shows instant visible path

variable {t t' : Timeline} {time : Double}

theorem not_failsAs_ok {kind : ScriptFault.Kind} {ids : List Int} :
  ¬ FailsAs kind (.ok ids)
  := by
  rintro ⟨cause, hcause, -⟩
  cases hcause

theorem failsAs_error {kind : ScriptFault.Kind} {cause : ScriptFault} :
  FailsAs kind (.error cause) ↔ cause.kind = kind
  := by
  constructor
  · rintro ⟨cause', hcause, hkind⟩
    cases hcause
    apply hkind
  · intro hkind
    exact ⟨cause, rfl, hkind⟩

/-! ### A cut that succeeds -/

/-- The parts of a segment show what it showed. -/
theorem shows_parts {before after : List Segment} {x : Segment} {n n' k : Int}
    (hx : x.start < time ∧ time < x.stop) (instant : Double) (visible : Bool) (path : String) :
  Shows ⟨before ++ ⟨x.headAt time, n⟩ :: ⟨x.tailAt time, n'⟩ :: after, k⟩ instant visible path
    ↔ Shows ⟨before ++ x :: after, k⟩ instant visible path
  := by
  have hparts : (x.start ≤ instant ∧ instant < time) ∨ (time ≤ instant ∧ instant < x.stop)
      ↔ x.start ≤ instant ∧ instant < x.stop := by
    constructor
    · rintro (⟨hstart, hlt⟩ | ⟨hle, hstop⟩)
      · exact ⟨hstart, Double.lt_trans hlt hx.2⟩
      · exact ⟨Double.le_trans (Double.le_of_lt hx.1) hle, hstop⟩
    · rintro ⟨hstart, hstop⟩
      by_cases hle : time ≤ instant
      · right
        exact ⟨hle, hstop⟩
      · left
        have htime := Double.ne_nan_of_lt_left hx.2
        exact ⟨hstart, Double.lt_of_not_le htime (Double.ne_nan_of_lt_left hstop) hle⟩
  simp only [Shows, List.mem_append, List.mem_cons, or_and_right, exists_or, exists_eq_left,
    ← hparts, Clip.headAt, Clip.tailAt, or_assoc]

/-- The segment that a cut parts. -/
theorem Sound.cut_parted (ht : t.Sound) (look : String → Lookup)
    (h : Clip.Enclosed t.clips time) :
  ∃ before x after, t.segments = before ++ x :: after ∧ (x.start < time ∧ time < x.stop)
    ∧ t.cutAt time
      = ⟨before ++ ⟨x.headAt time, t.nextId⟩ :: ⟨x.tailAt time, t.nextId + 1⟩ :: after,
        t.nextId + 2⟩
    ∧ t.announced look (.cut time)
      = [⟨.removed, some x⟩, ⟨.added, some ⟨x.headAt time, t.nextId⟩⟩,
        ⟨.added, some ⟨x.tailAt time, t.nextId + 1⟩⟩]
  := by
  obtain ⟨x, hfind⟩ := Option.isSome_iff_exists.mp
    (List.isSome_find?.trans (any_encloses.mpr h))
  obtain ⟨hx, before, after, hsplit, -⟩ := List.find?_eq_some_iff_append.mp hfind
  have hparts : x.cutAt time t.nextId
      = [⟨x.headAt time, t.nextId⟩, ⟨x.tailAt time, t.nextId + 1⟩] := if_pos hx
  have hsegments := ht.segments_cutAt hsplit hx
  rw [hparts, List.append_assoc] at hsegments
  refine ⟨before, x, after, hsplit, Clip.encloses_iff.mp hx, ?_, ?_⟩
  · apply congrArg (Timeline.mk · (t.nextId + 2)) hsegments
  · rw [announced, hfind]
    dsimp only
    rw [hparts]
    rfl

/-- A cut that succeeds. -/
theorem Sound.cutsTo_of_enclosed (ht : t.Sound) (look : String → Lookup)
    (h : Clip.Enclosed t.clips time) :
  t.CutsTo time (.ok [t.nextId, t.nextId + 1]) (t.cutAt time) (t.announced look (.cut time))
  := by
  obtain ⟨before, x, after, hsplit, hx, hcut, hannounced⟩ := ht.cut_parted look h
  constructor
  case succeeds => apply iff_of_true rfl h
  case degenerate => apply iff_of_false not_failsAs_ok fun hfailed => hfailed.1 h
  case nowhere => apply iff_of_false not_failsAs_ok fun hfailed => hfailed.1 h
  case refused =>
      intro hfailed
      cases hfailed
  case parted =>
      intro _
      exact ⟨before, x, after, hsplit, hx, rfl, hcut, hannounced⟩
  case fresh => apply ht.ids_lt
  case shows =>
      intro instant visible path
      rw [hcut, shows_parts hx]
      simp only [Shows, hsplit]

/-! ### A cut that fails -/

theorem Sound.any_contains (ht : t.Sound) (h : ¬ Clip.Enclosed t.clips time) :
  t.segments.any (·.contains time) = true ↔ Clip.Touched t.clips time
  := by
  have hiff : ∀ x ∈ t.segments, x.contains time = true
      ↔ x.start.equals time = true ∨ time.equals x.stop = true := by
    intro x hx
    apply (ht.proper x hx).contains_iff
    intro hencloses
    apply h ⟨x.toClip, List.mem_map_of_mem hx, hencloses⟩
  rw [List.any_eq_true]
  constructor
  · rintro ⟨x, hx, hcontains⟩
    exact ⟨x.toClip, List.mem_map_of_mem hx, (hiff x hx).mp hcontains⟩
  · rintro ⟨c, hc, htouched⟩
    obtain ⟨x, hx, rfl⟩ := List.mem_map.mp hc
    exact ⟨x, hx, (hiff x hx).mpr htouched⟩

/-- A cut that fails for a cause of the right kind. -/
theorem Sound.cutsTo_of_kind (ht : t.Sound) (h : ¬ Clip.Enclosed t.clips time)
    {cause : ScriptFault} (hdegenerate : cause.kind = .degenerateCut ↔ Clip.Touched t.clips time)
    (hnowhere : cause.kind = .noSegment ↔ ¬ Clip.Touched t.clips time) :
  t.CutsTo time (.error cause) t []
  := by
  constructor
  case succeeds =>
      apply iff_of_false _ h
      intro hok
      cases hok
  case degenerate => rw [failsAs_error, hdegenerate, and_iff_right h]
  case nowhere => rw [failsAs_error, hnowhere, and_iff_right h]
  case refused =>
      intro _
      exact ⟨rfl, rfl⟩
  case parted =>
      intro hok
      cases hok
  case fresh => apply ht.ids_lt
  case shows =>
      intro _ _ _
      rfl

/-- A cut that fails. -/
theorem Sound.cutsTo_of_not_enclosed (ht : t.Sound) (htime : Timecode.Expressible time)
    (h : ¬ Clip.Enclosed t.clips time) :
  ∃ cause, t.cutFault time = .script cause ∧ t.CutsTo time (.error cause) t []
  := by
  obtain ⟨stamp, hstamp⟩ := htime.stamp
  have hcontains := ht.any_contains h
  rw [cutFault, hstamp]
  dsimp only
  split
  · rename_i hany
    have htouched := hcontains.mp hany
    refine ⟨.onBoundary stamp, rfl, ht.cutsTo_of_kind h ?_ ?_⟩
    · apply iff_of_true rfl htouched
    · apply iff_of_false _ (not_not_intro htouched)
      intro hkind
      cases hkind
  · rename_i hany
    have htouched := mt hcontains.mpr hany
    refine ⟨.uncovered stamp, rfl, ht.cutsTo_of_kind h ?_ ?_⟩
    · apply iff_of_false _ htouched
      intro hkind
      cases hkind
    · apply iff_of_true rfl htouched

/-- Every cut at a time that can be expressed is one or the other. -/
theorem Sound.cut_cases (ht : t.Sound) (look : String → Lookup)
    (htime : Timecode.Expressible time) :
  (∃ ids t', t.edit look (.cut time) = .ok (t', ids)
      ∧ t.CutsTo time (.ok ids) t' (t.announced look (.cut time)))
    ∨ (∃ cause, t.edit look (.cut time) = .error (.script cause)
      ∧ t.CutsTo time (.error cause) t [])
  := by
  by_cases h : Clip.Enclosed t.clips time
  · left
    refine ⟨_, _, ?_, ht.cutsTo_of_enclosed look h⟩
    rw [edit, if_pos (any_encloses.mpr h)]
  · right
    obtain ⟨cause, hfault, hcut⟩ := ht.cutsTo_of_not_enclosed htime h
    refine ⟨cause, ?_, hcut⟩
    rw [edit, if_neg (mt any_encloses.mp h), hfault]

end Timeline

end Montage
