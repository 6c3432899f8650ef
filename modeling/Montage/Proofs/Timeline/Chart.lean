import Montage.Proofs.Timeline.Range

/-!
# Charts of a timeline

A `Chart` keeps what is known of a timeline since a file was loaded: the file with its
duration, the times at which it was cut, and whether anything was deleted.  A timeline `Fits`
its chart if its segments are parts of the file in order, all of whose ends are known from the
chart; as long as nothing was deleted they tile the file without a gap.  Edits keep the
timeline fitting its chart: `Timeline.fits_edit`.
-/

namespace Montage

/-- What is known of a timeline since a file was loaded. -/
structure Chart where
  path : String
  duration : Double
  /-- The times at which it was cut. -/
  cuts : List Double := []
  /-- Whether anything was deleted. -/
  deleted : Bool := false
  deriving DecidableEq

/-- The chart after an edit that affected the segments of given ids. -/
def Edit.charted (look : String → Lookup) (ids : List Int) (past : Option Chart) :
    Edit → Option Chart
  | load path =>
    match (look path).answer with
    | .ok duration => some { path, duration }
    | .error _ => past
  | cut time => past.map fun c => { c with cuts := time :: c.cuts }
  | range .delete _ _ => past.map fun c => { c with deleted := c.deleted || !ids.isEmpty }
  | range _ _ _ => past

namespace Chart

/-- The times at which a segment may start or end. -/
def Bound (c : Chart) (time : Double) : Prop :=
  time = .zero ∨ time = c.duration ∨ time ∈ c.cuts

/-- A segment is a part of the file between known times.  It is not playing, it is stopped if
it is visible, and it is not visible if it is hidden. -/
structure Shows (c : Chart) (x : Segment) : Prop where
  path : x.path = c.path
  proper : .zero ≤ x.start ∧ x.start < x.stop
  stop_le : x.stop ≤ c.duration
  start_bound : c.Bound x.start
  stop_bound : c.Bound x.stop
  not_playing : x.state ≠ .playing
  stopped : x.visible = true → x.state = .stopped
  hidden : x.state = .hidden → x.visible = false

end Chart

/-- Segments lie end to end from one time to another. -/
def Tiles (start stop : Double) : List Segment → Prop
  | [] => start = stop
  | x :: rest => x.start = start ∧ Tiles x.stop stop rest

/-- A timeline is in order and shows what its chart says; as long as nothing was deleted, it
tiles the file. -/
structure Chart.Fits (c : Chart) (t : Timeline) : Prop where
  shows : ∀ x ∈ t.segments, c.Shows x
  ascending : t.segments.Pairwise fun x y => x.start < y.start
  disjoint : t.segments.Pairwise fun x y => x.stop ≤ y.start
  tiles : c.deleted = false → Tiles .zero c.duration t.segments

/-- Before anything was loaded a timeline is empty, and then it fits its chart. -/
def Timeline.Charted (t : Timeline) (past : Option Chart) : Prop :=
  (past = none → t.segments = []) ∧ ∀ c, past = some c → c.Fits t

theorem Timeline.charted_none {t : Timeline} :
  t.Charted none ↔ t.segments = []
  := by
  simp [Charted]

theorem Timeline.charted_some {t : Timeline} {c : Chart} :
  t.Charted (some c) ↔ c.Fits t
  := by
  simp [Charted]

/-! ### Tiles -/

section Tiles

variable {start stop : Double} {l : List Segment}

theorem tiles_append {m : List Segment} {mid : Double} (hl : Tiles start mid l)
    (hm : Tiles mid stop m) :
  Tiles start stop (l ++ m)
  := by
  induction l generalizing start with
  | nil =>
      obtain rfl : start = mid := hl
      apply hm
  | cons x rest ih => exact ⟨hl.1, ih hl.2⟩

/-- Tiles that are themselves tiled. -/
theorem tiles_flatMap {f : Segment → List Segment} (hf : ∀ x, Tiles x.start x.stop (f x))
    (hl : Tiles start stop l) :
  Tiles start stop (l.flatMap f)
  := by
  induction l generalizing start with
  | nil => apply hl
  | cons x rest ih =>
      obtain ⟨rfl, hrest⟩ := hl
      apply tiles_append (hf x) (ih hrest)

theorem Segment.tiles_cutAt (time : Double) (id : Int) (x : Segment) :
  Tiles x.start x.stop (x.cutAt time id)
  := by
  unfold cutAt
  split
  · exact ⟨rfl, rfl, rfl⟩
  · exact ⟨rfl, rfl⟩

theorem tiles_map {f : Segment → Segment} (hf : Store.KeepsPlace f) (hl : Tiles start stop l) :
  Tiles start stop (l.map f)
  := by
  rw [List.map_eq_flatMap]
  apply tiles_flatMap _ hl
  intro x
  exact ⟨hf.start x, hf.stop x⟩

end Tiles

/-! ### Segments under edits -/

namespace Chart

variable {c : Chart} {x : Segment}

theorem Shows.withCut (h : c.Shows x) (time : Double) :
  Shows { c with cuts := time :: c.cuts } x
  := by
  have hbound : ∀ b, c.Bound b → Bound { c with cuts := time :: c.cuts } b := by
    rintro b (hb | hb | hb)
    · left
      apply hb
    · right
      left
      apply hb
    · right
      right
      apply List.mem_cons_of_mem time hb
  exact { h with
    start_bound := hbound _ h.start_bound
    stop_bound := hbound _ h.stop_bound }

/-- The parts of a segment lie between its ends and the time of the cut. -/
theorem Shows.cutAt (h : c.Shows x) (time : Double) (id : Int) :
  ∀ y ∈ x.cutAt time id, Shows { c with cuts := time :: c.cuts } y
  := by
  have h' := h.withCut time
  have hbound : Bound { c with cuts := time :: c.cuts } time := by
    right
    right
    apply List.mem_cons_self
  intro y hy
  unfold Segment.cutAt at hy
  split at hy
  · rename_i hx
    have hproper : x.Proper := h.proper
    rcases List.mem_cons.mp hy with rfl | hy
    · exact { h' with
        proper := hproper.headAt hx
        stop_le := Double.le_trans (Double.le_of_lt (Clip.encloses_iff.mp hx).2) h.stop_le
        stop_bound := hbound
        not_playing := nofun
        stopped := fun _ => rfl
        hidden := nofun }
    · obtain rfl := List.mem_singleton.mp hy
      exact { h' with
        proper := hproper.tailAt hx
        start_bound := hbound
        not_playing := nofun
        stopped := fun _ => rfl
        hidden := nofun }
  · obtain rfl := List.mem_singleton.mp hy
    apply h'

/-- Hidden segments are not visible, and shown ones are stopped. -/
theorem Shows.presented (h : c.Shows x) {visible : Bool} {state : PlayState}
    (hstate : (visible, state) = (false, .hidden) ∨ (visible, state) = (true, .stopped)) :
  c.Shows (x.presented visible state)
  := by
  rcases hstate with hstate | hstate
  · cases hstate
    exact { h with
      not_playing := nofun
      stopped := nofun
      hidden := fun _ => rfl }
  · cases hstate
    exact { h with
      not_playing := nofun
      stopped := fun _ => rfl
      hidden := nofun }

end Chart

/-! ### Timelines under edits -/

namespace Timeline

variable {t t' : Timeline} {c : Chart}

/-- What a sound timeline has to do to fit a chart. -/
theorem Sound.fits (ht : t.Sound) (hshows : ∀ x ∈ t.segments, c.Shows x)
    (htiles : c.deleted = false → Tiles .zero c.duration t.segments) :
  c.Fits t
  := by
  refine ⟨hshows, ?_, ht.disjoint, htiles⟩
  apply List.Pairwise.imp_of_mem _ ht.disjoint
  intro x y hx _ hxy
  apply Double.lt_of_lt_of_le (ht.proper x hx).2 hxy

theorem fits_whole (ht : (whole c.path c.duration).Sound) :
  c.Fits (whole c.path c.duration)
  := by
  apply ht.fits
  · intro x hx
    have hproper := ht.proper x hx
    obtain rfl := List.mem_singleton.mp hx
    exact
      { path := rfl
        proper := hproper
        stop_le := Double.le_refl (Double.ne_nan_of_lt_right hproper.2)
        start_bound := Or.inl rfl
        stop_bound := Or.inr (Or.inl rfl)
        not_playing := nofun
        stopped := fun _ => rfl
        hidden := nofun }
  · intro _
    exact ⟨rfl, rfl⟩

theorem fits_cutAt {time : Double} (ht' : (t.cutAt time).Sound) (h : c.Fits t) :
  Chart.Fits { c with cuts := time :: c.cuts } (t.cutAt time)
  := by
  apply ht'.fits
  · intro y hy
    obtain ⟨x, hx, hy⟩ := List.mem_flatMap.mp hy
    apply (h.shows x hx).cutAt time t.nextId y hy
  · intro hdeleted
    apply tiles_flatMap (Segment.tiles_cutAt time t.nextId) (h.tiles hdeleted)

theorem fits_marked {visible : Bool} {state : PlayState} {ids : List Int}
    (hstate : (visible, state) = (false, .hidden) ∨ (visible, state) = (true, .stopped))
    (ht' : (t.marked visible state ids).Sound) (h : c.Fits t) :
  c.Fits (t.marked visible state ids)
  := by
  apply ht'.fits
  · intro y hy
    obtain ⟨x, hx, rfl⟩ := List.mem_map.mp hy
    split
    · apply (h.shows x hx).presented hstate
    · apply h.shows x hx
  · intro hdeleted
    apply tiles_map _ (h.tiles hdeleted)
    constructor <;> intro x <;> split <;> rfl

theorem fits_without {ids : List Int} (ht' : (t.without ids).Sound) (h : c.Fits t) :
  Chart.Fits { c with deleted := c.deleted || !ids.isEmpty } (t.without ids)
  := by
  apply ht'.fits
  · intro x hx
    have hx' := h.shows x (List.mem_of_mem_filter hx)
    exact { hx' with }
  · intro hdeleted
    obtain ⟨hkept, hids⟩ := Bool.or_eq_false_iff.mp hdeleted
    obtain rfl : ids = [] := by simpa using hids
    rw [without_nil]
    apply h.tiles hkept

/-- Edits keep a timeline fitting its chart. -/
theorem charted_edit {look : String → Lookup} {past : Option Chart} {e : Edit} {ids : List Int}
    (ht : t.Sound) (ht' : t'.Sound) (h : t.Charted past)
    (hedit : t.edit look e = .ok (t', ids)) :
  t'.Charted (e.charted look ids past)
  := by
  cases e with
  | load path =>
      obtain ⟨duration, hplayable, rfl⟩ := of_edit_load hedit
      rw [Edit.charted, (Lookup.of_playable hplayable).1]
      apply charted_some.mpr
      apply fits_whole (c := { path, duration }) ht'
  | cut time =>
      obtain ⟨⟨x, hx, -⟩, rfl⟩ := of_edit_cut hedit
      cases past with
      | none =>
          rw [charted_none.mp h] at hx
          cases hx
      | some c => apply charted_some.mpr (fits_cutAt ht' (charted_some.mp h))
  | range verb start stop =>
      cases hedit
      cases past with
      | none =>
          have hempty : (t.applyRange verb start stop).segments = [] := by
            simp [applyRange, charted_none.mp h]
          cases verb <;> apply charted_none.mpr hempty
      | some c =>
          have h := charted_some.mp h
          cases verb with
          | hide =>
              rw [ht.applyRange_marked start stop fun _ => rfl] at ht' ⊢
              apply charted_some.mpr (fits_marked (Or.inl rfl) ht' h)
          | reveal =>
              rw [ht.applyRange_marked start stop fun _ => rfl] at ht' ⊢
              apply charted_some.mpr (fits_marked (Or.inr rfl) ht' h)
          | delete =>
              rw [ht.applyRange_without] at ht' ⊢
              apply charted_some.mpr (fits_without ht' h)

end Timeline

end Montage
