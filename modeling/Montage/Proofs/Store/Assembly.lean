import Mathlib.Data.List.Chain
import Montage.Proofs.Double.Sum
import Montage.Store.Basic

/-!
# The assembled timeline

The visible segments are laid end to end from zero on, and their length together is added up
on its own.  Both add the same lengths in the same order, so a plain sum is the time at which
the last segment ends, to the last bit: `Store.assembles`.  A runtime that compensates adds to
it what was rounded off, so there the two agree as long as no addition is rounded.
-/

namespace Montage

namespace Store

/-- The time at which a segment that was laid out ends. -/
def ending (p : Double × Segment) : Double :=
  p.1 + p.2.duration

/-- Segments laid end to end: the first starts at zero, and each further one where the one
before it ends. -/
structure EndToEnd (l : List (Double × Segment)) : Prop where
  first : ∀ p ∈ l.head?, p.1 = .zero
  next : l.IsChain fun p q => q.1 = ending p

/-- The time at which segments that were laid out end, which is zero if there are none. -/
def finish (l : List (Double × Segment)) : Double :=
  (l.getLast?.map ending).getD .zero

/-! ### Laying out from a time on -/

theorem map_snd_layOut (cursor : Double) (l : List Segment) :
  (layOut cursor l).map (·.2) = l
  := by
  induction l generalizing cursor with
  | nil => rfl
  | cons x rest ih => rw [layOut, List.map_cons, ih]

theorem head?_layOut (cursor : Double) (l : List Segment) :
  (layOut cursor l).head? = l.head?.map (cursor, ·)
  := by cases l <;> rfl

/-- Each segment is laid out where the one before it ends. -/
theorem isChain_layOut (cursor : Double) (l : List Segment) :
  (layOut cursor l).IsChain fun p q => q.1 = ending p
  := by
  induction l generalizing cursor with
  | nil => apply List.IsChain.nil
  | cons x rest ih =>
      rw [layOut, List.isChain_cons]
      constructor
      · intro q hq
        rw [head?_layOut] at hq
        obtain ⟨y, -, rfl⟩ := Option.map_eq_some_iff.mp hq
        rfl
      · apply ih

/-- The last segment ends where the sum of the lengths has got to.  Where there is none, that is
the time at which it has started. -/
theorem getLast?_layOut (cursor : Double) (l : List Segment) :
  ((layOut cursor l).getLast?.map ending).getD cursor
    = (l.map (·.duration)).foldl (· + ·) cursor
  := by
  induction l generalizing cursor with
  | nil => rfl
  | cons x rest ih =>
      rw [layOut, List.map_cons, List.foldl_cons, ← ih, List.getLast?_cons]
      cases (layOut (cursor + x.duration) rest).getLast? <;> rfl

/-! ### The segments of a store -/

/-- The lengths of the visible segments. -/
def lengths (s : Store) : List Double :=
  s.visible.map (·.duration)

/-- How the assembled timeline of a store and its length go together. -/
structure Assembles (s : Store) : Prop where
  /-- The visible segments are assembled, each once and in order. -/
  visible : s.assembled.map (·.2) = s.segments.filter (·.visible)
  endToEnd : EndToEnd s.assembled
  /-- The length is zero if nothing is visible. -/
  empty : s.visible = [] → ∀ how, s.assembledDuration how = .zero
  /-- The length is the time at which the last segment ends. -/
  plain : s.assembledDuration .plain = finish s.assembled
  /-- A runtime that compensates adds to this time what was rounded off on the way. -/
  compensated : s.assembledDuration .compensated
    = Double.Tally.settled ⟨finish s.assembled, (Double.tally s.lengths).lost⟩
  /-- Where nothing is rounded off, the length is that time on all runtimes. -/
  unrounded : Double.Unrounded .zero s.lengths → ∀ how, s.assembledDuration how = finish s.assembled

theorem assembledDuration_plain (s : Store) :
  s.assembledDuration .plain = finish s.assembled
  := (getLast?_layOut _ _).symm

/-- The assembled timeline holds the visible segments in order, laid end to end, and its length
is the time at which the last of them ends. -/
theorem assembles (s : Store) :
  s.Assembles
  := by
  constructor
  case visible => exact map_snd_layOut _ _
  case endToEnd =>
      refine ⟨?_, isChain_layOut _ _⟩
      intro p hp
      rw [assembled, head?_layOut] at hp
      obtain ⟨x, -, rfl⟩ := Option.map_eq_some_iff.mp hp
      rfl
  case empty =>
      intro hnone how
      rw [assembledDuration, hnone]
      cases how <;> rfl
  case plain => exact s.assembledDuration_plain
  case compensated =>
      rw [← s.assembledDuration_plain]
      exact Double.sum_compensated s.lengths
  case unrounded =>
      intro hexact how
      rw [← s.assembledDuration_plain]
      exact Double.sum_of_unrounded s.lengths hexact how

/-! ### Segments that keep their lengths -/

/-- Where segments start depends on their lengths alone. -/
theorem layOut_map {f : Segment → Segment} (hf : ∀ x, (f x).duration = x.duration)
    (cursor : Double) (l : List Segment) :
  layOut cursor (l.map f) = (layOut cursor l).map fun p => (p.1, f p.2)
  := by
  induction l generalizing cursor with
  | nil => rfl
  | cons x rest ih => rw [List.map_cons, layOut, layOut, List.map_cons, hf, ih]

/-- Segments that keep their lengths and their visibility are assembled as they were. -/
theorem assembled_map {s s' : Store} {f : Segment → Segment}
    (hf : ∀ x, (f x).duration = x.duration)
    (hvisible : ∀ x ∈ s.segments, (f x).visible = x.visible)
    (h : s'.segments = s.segments.map f) :
  s'.assembled = s.assembled.map (fun p => (p.1, f p.2))
    ∧ ∀ how, s'.assembledDuration how = s.assembledDuration how
  := by
  have hmap : s'.visible = s.visible.map f := by
    rw [visible, visible, h, List.filter_map]
    apply congrArg
    apply List.filter_congr hvisible
  constructor
  · rw [assembled, hmap, layOut_map hf]
    rfl
  · intro how
    rw [assembledDuration, assembledDuration, hmap, List.map_map]
    apply congrArg
    apply List.map_congr_left fun x _ => hf x

end Store

end Montage
