import Montage.Proofs.Timeline.Range
import Montage.Proofs.Timeline.Succeeded

/-!
# Hiding and showing ranges

Commands that hide or show ranges leave the segments in place and set how those are presented
that their ranges overlap.  Which segments a command reaches does not depend on the commands
before it, and it sets all that they have set, so each segment is in the end as the last
command that reaches it has left it: `Timeline.follow_presenting`.
-/

namespace Montage

/-- What a command that hides or shows a range makes of a segment that the range overlaps. -/
def Command.presents (c : Command) (x : Segment) : Option Segment :=
  match c.edit with
  | .range .hide start stop =>
    if x.overlaps start stop then some (x.presented false .hidden) else none
  | .range .reveal start stop =>
    if x.overlaps start stop then some (x.presented true .stopped) else none
  | _ => none

/-- A command that hides or shows a range. -/
def Command.Presenting (c : Command) : Prop :=
  ∃ start stop, c.edit = .range .hide start stop ∨ c.edit = .range .reveal start stop

/-- A segment as the last of some commands to reach it has left it. -/
def Segment.presentedBy (cs : List Command) (x : Segment) : Segment :=
  (cs.reverse.findSome? (·.presents x)).getD x

namespace Timeline

/-- The ids of the segments that a command reaches. -/
def reachedBy (t : Timeline) (c : Command) : List Int :=
  (t.segments.filter fun x => (c.presents x).isSome).map (·.id)

/-- The updates of the segments that a command reaches. -/
def updatedBy (t : Timeline) (c : Command) : List Event :=
  t.segments.filterMap fun x => (c.presents x).map fun y => ⟨.updated, some y⟩

/-- A timeline with every segment as the last of some commands to reach it has left it. -/
def presentedBy (cs : List Command) (t : Timeline) : Timeline :=
  { t with segments := t.segments.map (·.presentedBy cs) }

end Timeline

/-! ### Segments -/

theorem Command.presents_cases (c : Command) (x : Segment) :
  c.presents x = none ∨ ∃ visible state, c.presents x = some (x.presented visible state)
  := by
  unfold presents
  split
  · split
    · right
      exact ⟨_, _, rfl⟩
    · left
      rfl
  · split
    · right
      exact ⟨_, _, rfl⟩
    · left
      rfl
  · left
    rfl

theorem Command.Presenting.verb {c : Command} (h : c.Presenting) :
  ∃ verb start stop, c.edit = .range verb start stop ∧ ∀ x, ∃ y, verb.applied x = some y
    ∧ c.presents x = if x.overlaps start stop then some y else none
  := by
  obtain ⟨start, stop, h | h⟩ := h
  · refine ⟨_, start, stop, h, fun x => ⟨_, rfl, ?_⟩⟩
    rw [presents, h]
    rfl
  · refine ⟨_, start, stop, h, fun x => ⟨_, rfl, ?_⟩⟩
    rw [presents, h]
    rfl

namespace Segment

variable (cs : List Command) (c : Command) (x : Segment)

/-- Commands change nothing but how a segment is presented. -/
theorem presentedBy_cases :
  x.presentedBy cs = x ∨ ∃ visible state, x.presentedBy cs = x.presented visible state
  := by
  rw [presentedBy]
  cases hlast : cs.reverse.findSome? (·.presents x) with
  | none =>
      left
      rfl
  | some y =>
      right
      obtain ⟨c, -, hc⟩ := List.exists_of_findSome?_eq_some hlast
      rcases c.presents_cases x with h | ⟨visible, state, h⟩
      · cases h.symm.trans hc
      · obtain rfl := Option.some.inj (h.symm.trans hc)
        exact ⟨visible, state, rfl⟩

/-- What a command makes of a segment does not depend on the commands before it. -/
theorem presents_presentedBy :
  c.presents (x.presentedBy cs) = c.presents x
  := by
  rcases x.presentedBy_cases cs with h | ⟨visible, state, h⟩
  · rw [h]
  · rw [h]
    rfl

theorem presentedBy_nil :
  x.presentedBy [] = x
  := rfl

theorem presentedBy_singleton :
  x.presentedBy [c] = (c.presents x).getD x
  := by
  rw [presentedBy, List.reverse_singleton, List.findSome?_singleton]

/-- Commands after others present what those have left. -/
theorem presentedBy_append (cs' : List Command) :
  x.presentedBy (cs ++ cs') = (x.presentedBy cs).presentedBy cs'
  := by
  have hlast : (x.presentedBy cs).presentedBy cs'
      = (cs'.reverse.findSome? (·.presents x)).getD (x.presentedBy cs) := by
    rw [presentedBy]
    simp only [presents_presentedBy]
  rw [hlast, presentedBy, presentedBy, List.reverse_append, List.findSome?_append]
  cases cs'.reverse.findSome? (·.presents x) <;> rfl

end Segment

/-! ### Timelines -/

namespace Timeline

variable {look : String → Lookup} (media : String → Except Fault Double) (t : Timeline)
  {c : Command} (cs : List Command)

theorem presentedBy_nil :
  t.presentedBy [] = t
  := by
  simp only [presentedBy, Segment.presentedBy_nil, List.map_id']

theorem presentedBy_append (cs' : List Command) :
  t.presentedBy (cs ++ cs') = (t.presentedBy cs).presentedBy cs'
  := by
  simp only [presentedBy, List.map_map, Function.comp_def, Segment.presentedBy_append]

/-- The segments that commands reach are the same after other commands. -/
theorem reachedBy_presentedBy :
  (t.presentedBy cs).reachedBy = t.reachedBy
  := by
  funext c
  have hid : ∀ x : Segment, (x.presentedBy cs).id = x.id := by
    intro x
    rcases x.presentedBy_cases cs with h | ⟨visible, state, h⟩
    · rw [h]
    · rw [h]
      rfl
  simp only [reachedBy, presentedBy, List.filter_map, List.map_map, Function.comp_def,
    Segment.presents_presentedBy, hid]

theorem updatedBy_presentedBy :
  (t.presentedBy cs).updatedBy = t.updatedBy
  := by
  funext c
  simp only [updatedBy, presentedBy, List.filterMap_map, Function.comp_def,
    Segment.presents_presentedBy]

/-- A command that hides or shows a range succeeds and presents the segments that it
reaches. -/
theorem execute_presenting (hc : c.Presenting) :
  t.execute look c = .ok (t.presentedBy [c], ⟨c, .ok (t.reachedBy c)⟩)
    ∧ t.announced look c.edit = t.updatedBy c
  := by
  obtain ⟨verb, start, stop, hedit, hpresents⟩ := hc.verb
  have hreaches : ∀ x : Segment, (c.presents x).isSome = x.overlaps start stop := by
    intro x
    obtain ⟨y, -, hy⟩ := hpresents x
    rw [hy]
    split <;> simp_all
  constructor
  · have hids : t.overlappingIds start stop = t.reachedBy c := by
      simp only [overlappingIds, reachedBy, hreaches]
    have happly : t.applyRange verb start stop = t.presentedBy [c] := by
      rw [applyRange, presentedBy, Timeline.mk.injEq, ← List.filterMap_eq_map]
      refine ⟨List.filterMap_congr fun x _ => ?_, rfl⟩
      obtain ⟨y, happlied, hy⟩ := hpresents x
      rw [Function.comp_apply, Segment.presentedBy_singleton, hy, happlied]
      split <;> rfl
    rw [execute, hedit, edit, happly, hids]
  · rw [hedit, announced, updatedBy, ← List.filterMap_eq_map, List.filterMap_filter]
    apply List.filterMap_congr
    intro x _
    obtain ⟨y, happlied, hy⟩ := hpresents x
    rw [hy]
    split
    · rw [Function.comp_apply, RangeVerb.announced, happlied]
      rfl
    · rfl

/-- Commands that hide or show ranges succeed one and all, each updates the segments that it
reaches, and the last to reach a segment settles how it is presented. -/
theorem follow_presenting {cs : List Command} (hcs : ∀ c ∈ cs, c.Presenting) :
  t.follow media cs = .ok (t.presentedBy cs, ⟨cs.map fun c => ⟨c, .ok (t.reachedBy c)⟩, false⟩)
    ∧ t.told media cs = cs.flatMap t.updatedBy
  := by
  induction cs generalizing t with
  | nil =>
      rw [presentedBy_nil]
      exact ⟨rfl, rfl⟩
  | cons c rest ih =>
      obtain ⟨hc, hrest⟩ := List.forall_mem_cons.mp hcs
      obtain ⟨hexecute, hannounced⟩ := t.execute_presenting hc
      obtain ⟨hfollow, htold⟩ := ih (t.presentedBy [c]) hrest
      constructor
      · have hboth : t.presentedBy (c :: rest) = _ := t.presentedBy_append [c] rest
        rw [follow_cons hexecute rfl, hfollow, reachedBy_presentedBy, hboth]
        rfl
      · rw [told_cons hexecute rfl, hannounced, htold, updatedBy_presentedBy, List.flatMap_cons]

end Timeline

end Montage
