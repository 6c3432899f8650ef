import Mathlib.Data.List.Perm.Basic
import Montage.Proofs.Command.Writable
import Montage.Proofs.Timeline.Expressible
import Montage.Proofs.Timeline.Succeeded

/-!
# Cutting clips

What cuts make of a timeline is seen on its clips, which the ids do not tell apart.  A cut parts
every clip that encloses its time, so the clips that a list of cuts leads to do not depend on
the order of the cuts: `Clip.foldl_cutEach_perm`.  Their bounds are the old ones and the times
that were enclosed.
-/

namespace Montage

/-- A number inside of a proper clip is positive. -/
theorem Clip.Proper.zero_lt {c : Clip} {time : Double} (hc : c.Proper)
    (h : c.encloses time = true) :
  .zero < time
  := Double.lt_of_le_of_lt hc.1 (Clip.encloses_iff.mp h).1

namespace Clip

/-- A clip parted at a time that it encloses. -/
def cutAt (time : Double) (c : Clip) : List Clip :=
  if c.encloses time then [c.headAt time, c.tailAt time] else [c]

/-- Clips of which each that encloses a time is parted there. -/
def cutEach (clips : List Clip) (time : Double) : List Clip :=
  clips.flatMap (·.cutAt time)

/-- One of some clips encloses a time. -/
def Enclosed (clips : List Clip) (time : Double) : Prop :=
  ∃ c ∈ clips, c.encloses time = true

/-- One of some clips starts or ends at a time. -/
def Bounded (clips : List Clip) (time : Double) : Prop :=
  ∃ c ∈ clips, c.start = time ∨ c.stop = time

instance (clips : List Clip) (time : Double) : Decidable (Enclosed clips time) :=
  inferInstanceAs (Decidable (∃ c ∈ clips, _))

instance (clips : List Clip) (time : Double) : Decidable (Bounded clips time) :=
  inferInstanceAs (Decidable (∃ c ∈ clips, _))

variable {c : Clip} {clips : List Clip} {time a b : Double}

theorem cutAt_of_encloses (h : c.encloses time = true) :
  c.cutAt time = [c.headAt time, c.tailAt time]
  := if_pos h

theorem cutAt_of_not_encloses (h : ¬ c.encloses time = true) :
  c.cutAt time = [c]
  := if_neg h

theorem encloses_headAt :
  (c.headAt time).encloses b = true ↔ c.start < b ∧ b < time
  := encloses_iff

theorem encloses_tailAt :
  (c.tailAt time).encloses b = true ↔ time < b ∧ b < c.stop
  := encloses_iff

/-! ### One clip -/

theorem Proper.cutAt (hc : c.Proper) (time : Double) :
  ∀ y ∈ c.cutAt time, y.Proper
  := by
  intro y hy
  by_cases h : c.encloses time = true
  · rw [cutAt_of_encloses h] at hy
    rcases List.mem_pair.mp hy with rfl | rfl
    · apply hc.headAt h
    · apply hc.tailAt h
  · rw [cutAt_of_not_encloses h] at hy
    obtain rfl := List.mem_singleton.mp hy
    apply hc

/-- A clip that is cut encloses the times that it did but the one at which it was cut. -/
theorem Proper.enclosed_cutAt (hc : c.Proper) :
  Enclosed (c.cutAt time) b ↔ c.encloses b = true ∧ b ≠ time
  := by
  by_cases h : c.encloses time = true
  · obtain ⟨hstart, hstop⟩ := encloses_iff.mp h
    simp only [Enclosed, cutAt_of_encloses h, List.mem_pair, exists_eq_or_imp, exists_eq_left,
      encloses_iff]
    constructor
    · rintro (⟨hb, hbt⟩ | ⟨hbt, hb⟩)
      · refine ⟨⟨hb, Double.lt_trans hbt hstop⟩, ?_⟩
        rintro rfl
        apply Double.lt_irrefl _ hbt
      · refine ⟨⟨Double.lt_trans hstart hbt, hb⟩, ?_⟩
        rintro rfl
        apply Double.lt_irrefl _ hbt
    · rintro ⟨⟨hb, hb'⟩, hne⟩
      have hpos := hc.zero_lt (encloses_iff.mpr ⟨hb, hb'⟩)
      rcases Double.lt_or_lt_of_ne hpos (hc.zero_lt h) hne with hlt | hlt
      · left
        exact ⟨hb, hlt⟩
      · right
        exact ⟨hlt, hb'⟩
  · rw [cutAt_of_not_encloses h]
    constructor
    · rintro ⟨y, hy, hb⟩
      obtain rfl := List.mem_singleton.mp hy
      refine ⟨hb, ?_⟩
      rintro rfl
      apply h hb
    · rintro ⟨hb, -⟩
      exact ⟨c, List.mem_singleton_self c, hb⟩

/-- A clip that is cut has a new bound if it encloses the time of the cut. -/
theorem bounded_cutAt :
  Bounded (c.cutAt time) b ↔ (c.start = b ∨ c.stop = b) ∨ (c.encloses time = true ∧ b = time)
  := by
  by_cases h : c.encloses time = true
  · simp only [Bounded, cutAt_of_encloses h, List.mem_pair, exists_eq_or_imp, exists_eq_left, h,
      true_and, headAt, tailAt, eq_comm (a := time)]
    tauto
  · rw [cutAt_of_not_encloses h]
    constructor
    · rintro ⟨y, hy, hb⟩
      obtain rfl := List.mem_singleton.mp hy
      left
      apply hb
    · rintro (hb | ⟨hcut, -⟩)
      · exact ⟨c, List.mem_singleton_self c, hb⟩
      · apply absurd hcut h

/-! ### Two cuts of one clip -/

/-- Clips of which none encloses a time are not parted there. -/
theorem cutEach_of_not_enclosed (h : ¬ Enclosed clips time) :
  cutEach clips time = clips
  := by
  induction clips with
  | nil => rfl
  | cons y rest ih =>
      have hy : ¬ y.encloses time = true := fun hy => h ⟨y, List.mem_cons_self, hy⟩
      have hrest : ¬ Enclosed rest time := by
        rintro ⟨z, hz, hcut⟩
        apply h ⟨z, List.mem_cons_of_mem y hz, hcut⟩
      rw [cutEach, List.flatMap_cons, cutAt_of_not_encloses hy]
      apply congrArg (y :: ·) (ih hrest)

/-- Two cuts of one clip leave the parts between the three pairs of neighbouring bounds. -/
theorem cutEach_cutAt_of_lt (ha : c.encloses a = true) (hb : c.encloses b = true) (hab : a < b) :
  cutEach (c.cutAt a) b = [c.headAt a, (c.headAt b).tailAt a, c.tailAt b]
    ∧ cutEach (c.cutAt b) a = [c.headAt a, (c.headAt b).tailAt a, c.tailAt b]
  := by
  obtain ⟨hstart, -⟩ := encloses_iff.mp ha
  obtain ⟨-, hstop⟩ := encloses_iff.mp hb
  have hhead : ¬ (c.headAt a).encloses b = true :=
    fun h => Double.lt_asymm hab (encloses_headAt.mp h).2
  have htail : ¬ (c.tailAt b).encloses a = true :=
    fun h => Double.lt_asymm hab (encloses_tailAt.mp h).1
  constructor
  · rw [cutAt_of_encloses ha, cutEach, List.flatMap_cons, List.flatMap_singleton,
      cutAt_of_not_encloses hhead, cutAt_of_encloses (encloses_tailAt.mpr ⟨hab, hstop⟩)]
    rfl
  · rw [cutAt_of_encloses hb, cutEach, List.flatMap_cons, List.flatMap_singleton,
      cutAt_of_encloses (encloses_headAt.mpr ⟨hstart, hab⟩), cutAt_of_not_encloses htail]
    rfl

/-- Two cuts of one clip come to the same in either order. -/
theorem Proper.cutEach_comm (hc : c.Proper) (a b : Double) :
  cutEach (c.cutAt a) b = cutEach (c.cutAt b) a
  := by
  -- A time that is not enclosed cuts neither the clip nor its parts.
  have hmissed : ∀ {a b : Double}, ¬ c.encloses b = true →
      cutEach (c.cutAt a) b = cutEach (c.cutAt b) a := by
    intro a b hb
    have hparts : ¬ Enclosed (c.cutAt a) b := fun h => hb (hc.enclosed_cutAt.mp h).1
    rw [cutEach_of_not_enclosed hparts, cutAt_of_not_encloses hb, cutEach,
      List.flatMap_singleton]
  by_cases hb : c.encloses b = true
  · by_cases ha : c.encloses a = true
    · by_cases hab : a = b
      · rw [hab]
      · rcases Double.lt_or_lt_of_ne (hc.zero_lt ha) (hc.zero_lt hb) hab with hlt | hlt
        · obtain ⟨h, h'⟩ := cutEach_cutAt_of_lt ha hb hlt
          rw [h, h']
        · obtain ⟨h, h'⟩ := cutEach_cutAt_of_lt hb ha hlt
          rw [h, h']
    · apply (hmissed ha).symm
  · apply hmissed hb

/-! ### Lists of clips -/

variable (hclips : ∀ c ∈ clips, c.Proper)

include hclips

theorem proper_cutEach (time : Double) :
  ∀ c ∈ cutEach clips time, c.Proper
  := by
  intro y hy
  obtain ⟨c, hc, hy⟩ := List.mem_flatMap.mp hy
  apply (hclips c hc).cutAt time y hy

theorem enclosed_cutEach :
  Enclosed (cutEach clips time) b ↔ Enclosed clips b ∧ b ≠ time
  := by
  constructor
  · rintro ⟨y, hy, hb⟩
    obtain ⟨c, hc, hy⟩ := List.mem_flatMap.mp hy
    obtain ⟨hb, hne⟩ := (hclips c hc).enclosed_cutAt.mp ⟨y, hy, hb⟩
    exact ⟨⟨c, hc, hb⟩, hne⟩
  · rintro ⟨⟨c, hc, hb⟩, hne⟩
    obtain ⟨y, hy, hb⟩ := (hclips c hc).enclosed_cutAt.mpr ⟨hb, hne⟩
    exact ⟨y, List.mem_flatMap.mpr ⟨c, hc, hy⟩, hb⟩

omit hclips in
theorem bounded_cutEach :
  Bounded (cutEach clips time) b ↔ Bounded clips b ∨ (Enclosed clips time ∧ b = time)
  := by
  constructor
  · rintro ⟨y, hy, hb⟩
    obtain ⟨c, hc, hy⟩ := List.mem_flatMap.mp hy
    rcases bounded_cutAt.mp ⟨y, hy, hb⟩ with hb | ⟨hcut, rfl⟩
    · left
      exact ⟨c, hc, hb⟩
    · right
      exact ⟨⟨c, hc, hcut⟩, rfl⟩
  · have hcut : ∀ c ∈ clips, Bounded (c.cutAt time) b → Bounded (cutEach clips time) b := by
      rintro c hc ⟨y, hy, hb⟩
      exact ⟨y, List.mem_flatMap.mpr ⟨c, hc, hy⟩, hb⟩
    rintro (⟨c, hc, hb⟩ | ⟨⟨c, hc, hencloses⟩, rfl⟩)
    · apply hcut c hc (bounded_cutAt.mpr (Or.inl hb))
    · apply hcut c hc (bounded_cutAt.mpr (Or.inr ⟨hencloses, rfl⟩))

/-- Two cuts come to the same in either order. -/
theorem cutEach_comm (a b : Double) :
  cutEach (cutEach clips a) b = cutEach (cutEach clips b) a
  := by
  simp only [cutEach, List.flatMap_assoc]
  apply List.flatMap_congr
  intro c hc
  apply (hclips c hc).cutEach_comm

/-! ### Lists of cuts -/

/-- The bounds after some cuts are the old ones and the times that were enclosed. -/
theorem bounded_foldl (times : List Double) :
  Bounded (times.foldl cutEach clips) b ↔ Bounded clips b ∨ (b ∈ times ∧ Enclosed clips b)
  := by
  induction times generalizing clips with
  | nil => simp
  | cons time rest ih =>
      rw [List.foldl_cons, ih (proper_cutEach hclips time), bounded_cutEach,
        enclosed_cutEach hclips, List.mem_cons]
      by_cases hb : b = time
      · subst hb
        tauto
      · tauto

section Made

variable {made rest : List Double}
  (hmade : ∀ b, b ∈ made ↔ b ∈ rest ∧ Enclosed (cutEach clips time) b)

include hmade

/-- The times at which clips are cut once they have been cut at a time that they enclosed: the
first cut takes its time off those that the others find enclosed. -/
theorem mem_made_of_enclosed (h : Enclosed clips time) :
  time ∉ made ∧ ∀ b, b ∈ time :: made ↔ b ∈ time :: rest ∧ Enclosed clips b
  := by
  have hmade : ∀ b, b ∈ made ↔ b ∈ rest ∧ Enclosed clips b ∧ b ≠ time := by
    intro b
    rw [hmade b, enclosed_cutEach hclips]
  constructor
  · intro hmem
    apply ((hmade time).mp hmem).2.2 rfl
  · intro b
    rw [List.mem_cons, List.mem_cons, hmade b]
    by_cases hb : b = time
    · subst hb
      simp [h]
    · simp [hb]

omit hclips in
/-- The times at which clips are cut after a cut at a time that they did not enclose. -/
theorem mem_made_of_not_enclosed (h : ¬ Enclosed clips time) :
  ∀ b, b ∈ made ↔ b ∈ time :: rest ∧ Enclosed clips b
  := by
  intro b
  rw [hmade b, cutEach_of_not_enclosed h, List.mem_cons, or_and_right]
  constructor
  · apply Or.inr
  · rintro (⟨rfl, henclosed⟩ | hb)
    · apply absurd henclosed h
    · apply hb

end Made

/-- The clips that some cuts lead to do not depend on the order of the cuts. -/
theorem foldl_cutEach_perm {times times' : List Double} (h : times.Perm times') :
  times.foldl cutEach clips = times'.foldl cutEach clips
  := by
  induction h generalizing clips with
  | nil => rfl
  | cons time _ ih => apply ih (proper_cutEach hclips time)
  | swap a b rest =>
      rw [List.foldl_cons, List.foldl_cons, List.foldl_cons, List.foldl_cons,
        cutEach_comm hclips]
  | trans _ _ ih ih' => apply (ih hclips).trans (ih' hclips)

end Clip

/-! ### Timelines -/

/-- The segments of a timeline without their ids. -/
def Timeline.clips (t : Timeline) : List Clip :=
  t.segments.map (·.toClip)

theorem Segment.map_cutAt (x : Segment) (time : Double) (id : Int) :
  (x.cutAt time id).map (·.toClip) = x.toClip.cutAt time
  := by
  by_cases h : x.encloses time = true
  · rw [Segment.cutAt, if_pos h, Clip.cutAt_of_encloses h]
    rfl
  · rw [Segment.cutAt, if_neg h, Clip.cutAt_of_not_encloses h]
    rfl

namespace Timeline

variable {t : Timeline} {time : Double}

theorem clips_cutAt :
  (t.cutAt time).clips = Clip.cutEach t.clips time
  := by
  simp only [clips, cutAt, Clip.cutEach, List.map_flatMap, List.flatMap_map, Segment.map_cutAt]

theorem any_encloses :
  t.segments.any (·.encloses time) = true ↔ Clip.Enclosed t.clips time
  := by
  simp [Clip.Enclosed, clips]

variable (look : String → Lookup) {c : Command}

/-- A command that cuts succeeds if the time is enclosed, and parts what encloses it. -/
theorem execute_cut (t : Timeline) (hc : c.edit = .cut time) (htime : Timecode.Expressible time)
    (hline : Text.isWritable c.line = true) :
  ∃ t' r, t.execute look c = .ok (t', r) ∧ r.command = c ∧ r.isCancelled = false
    ∧ t'.clips = Clip.cutEach t.clips time ∧ (r.success = true ↔ Clip.Enclosed t.clips time)
  := by
  by_cases h : Clip.Enclosed t.clips time
  · have hedit : t.edit look c.edit = .ok (t.cutAt time, [t.nextId, t.nextId + 1]) := by
      rw [hc, edit, if_pos (any_encloses.mpr h)]
    exact ⟨_, _, execute_ok hedit, rfl, rfl, clips_cutAt, iff_of_true rfl h⟩
  · obtain ⟨stamp, hstamp⟩ := htime.stamp
    obtain ⟨cause, hfault, hkind⟩ := t.cutFault_of_stamp hstamp
    have hedit : t.edit look c.edit = .error (.script cause) := by
      rw [hc, edit, if_neg (mt any_encloses.mp h), hfault]
    refine ⟨_, _, execute_refused hedit (hc ▸ htime) hline, rfl, ?_, ?_, ?_⟩
    · simpa [Result.isCancelled, Result.fault?] using hkind
    · rw [Clip.cutEach_of_not_enclosed h]
    · apply iff_of_false _ h
      intro hok
      cases hok

end Timeline

/-! ### Batches -/

/-- A report of cuts of which those at given times succeeded, in order. -/
def Report.Cut (r : Report) (made : List Double) : Prop :=
  r.achieved.map (·.command.edit) = made.map .cut

namespace Report.Cut

variable {report : Report} {made : List Double} {r : Result}

theorem succeeded (h : report.Cut made) :
  report.succeeded = made.length
  := by
  have hlength := congrArg List.length h
  rw [List.length_map, List.length_map] at hlength
  rw [← hlength]
  apply List.countP_eq_length_filter

/-- A cut that succeeds before others. -/
theorem cons (h : report.Cut made) (hr : r.success = true) {time : Double}
    (hedit : r.command.edit = .cut time) :
  Cut ⟨r :: report.results, report.cancelled⟩ (time :: made)
  := by
  rw [Cut, achieved, List.filter_cons_of_pos hr, List.map_cons, List.map_cons, hedit]
  apply congrArg (Edit.cut time :: ·) h

/-- A cut that fails before others. -/
theorem skip (h : report.Cut made) (hr : ¬ r.success = true) :
  Cut ⟨r :: report.results, report.cancelled⟩ made
  := by
  rw [Cut, achieved, List.filter_cons_of_neg hr]
  apply h

end Report.Cut

namespace Timeline

variable {t : Timeline} (media : String → Except Fault Double)

/-- Cuts are followed to the end.  Those that succeed are at different times, which are the
times that were enclosed before all cuts. -/
theorem follow_cuts {times : List Double} {cs : List Command}
    (hcs : cs.map (·.edit) = times.map .cut)
    (htimes : ∀ time ∈ times, Timecode.Expressible time) (hlines : Command.Writable cs)
    (ht : ∀ c ∈ t.clips, c.Proper) :
  ∃ t' report, ∃ made : List Double, t.follow media cs = .ok (t', report)
    ∧ t'.clips = times.foldl Clip.cutEach t.clips ∧ report.Cut made ∧ made.Nodup
    ∧ ∀ time, time ∈ made ↔ time ∈ times ∧ Clip.Enclosed t.clips time
  := by
  induction times generalizing t cs with
  | nil =>
      obtain rfl := List.map_eq_nil_iff.mp hcs
      exact ⟨t, {}, [], rfl, rfl, rfl, List.nodup_nil, by simp⟩
  | cons time rest ih =>
      obtain ⟨c, cs, rfl, hc, hrest⟩ := List.map_eq_cons_iff.mp hcs
      obtain ⟨htime, htimes⟩ := List.forall_mem_cons.mp htimes
      obtain ⟨hline, hlines'⟩ := List.forall_mem_cons.mp hlines
      obtain ⟨t₁, r, hexecute, rfl, hr, hclips₁, hsuccess⟩ :=
        execute_cut (Lookup.undisturbed media) t hc htime hline
      have hproper : ∀ c ∈ t₁.clips, c.Proper := hclips₁ ▸ Clip.proper_cutEach ht time
      obtain ⟨t', report, made, hfollow, hclips, hcut, hnodup, hmade⟩ :=
        ih hrest htimes hlines' hproper
      have hfollow' : t.follow media (r.command :: cs)
          = .ok (t', ⟨r :: report.results, report.cancelled⟩) := by
        rw [follow_cons hexecute hr, hfollow]
        rfl
      rw [hclips₁] at hclips hmade
      by_cases h : Clip.Enclosed t.clips time
      · obtain ⟨hnot, hmade⟩ := Clip.mem_made_of_enclosed ht hmade h
        exact ⟨t', _, time :: made, hfollow', hclips, hcut.cons (hsuccess.mpr h) hc,
          List.nodup_cons.mpr ⟨hnot, hnodup⟩, hmade⟩
      · exact ⟨t', _, made, hfollow', hclips, hcut.skip (mt hsuccess.mp h), hnodup,
          Clip.mem_made_of_not_enclosed hmade h⟩

end Timeline

end Montage
