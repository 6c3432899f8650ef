import Montage.Proofs.Desk.Deeds
import Montage.Proofs.Timeline.Chart
import Montage.Proofs.Timeline.Withheld

/-!
# What the timeline tells of its history

Whatever calls are made on a desk that starts empty, the timeline fits the chart of the deeds
done, and what was hidden or deleted does not come back by itself.  Both hold after each
deed, also in the middle of a batch.
-/

namespace Montage

variable {ε : Type} (host : Surroundings ε)

namespace Deed

/-- The chart after a deed. -/
def chart (past : Option Chart) (x : Deed ε) : Option Chart :=
  match x.affected? host with
  | some ids => x.command.edit.charted (Desk.lookupAt host x.before) ids past
  | none => past

/-- A deed that has loaded a file. -/
def Loads (x : Deed ε) : Prop :=
  (∃ path, x.command.edit = .load path) ∧ (x.affected? host).isSome

/-- A deed that shows a range. -/
def Reveals (x : Deed ε) : Prop :=
  ∃ start stop, x.command.edit = .range .reveal start stop

end Deed

/-- The chart of given deeds, done on a desk that was empty before. -/
def Chart.ofDeeds (xs : List (Deed ε)) : Option Chart :=
  xs.foldl (Deed.chart host) none

variable {host} (hC : (Conduct.quiet ε).Binds host)

include hC

theorem Deed.keeps_charted :
  Deed.Keeps host fun past t => t.Charted (Chart.ofDeeds host past)
  := by
  intro past x hs h
  obtain ⟨hs', ⟨ids, haffected, hedit⟩ | ⟨haffected, -, hkept⟩⟩ := x.left_cases hC hs
  · rw [Chart.ofDeeds, List.foldl_append]
    simp only [List.foldl_cons, List.foldl_nil, Deed.chart, haffected]
    apply Timeline.charted_edit hs.timeline hs'.timeline h hedit
  · rw [Chart.ofDeeds, List.foldl_append]
    simp only [List.foldl_cons, List.foldl_nil, Deed.chart, haffected, hkept]
    apply h

/-- What was hidden stays hidden until a range is shown or a file is loaded, and what was
deleted stays away until a file is loaded. -/
def Deed.Withheld (host : Surroundings ε) (past : List (Deed ε)) (t : Timeline) : Prop :=
  ∀ earlier x later, past = earlier ++ x :: later → ∀ start stop,
    (x.command.edit = .range .hide start stop → (∀ y ∈ later, ¬ y.Loads host ∧ ¬ y.Reveals) →
      t.Conceals start stop)
    ∧ (x.command.edit = .range .delete start stop → (∀ y ∈ later, ¬ y.Loads host) →
      t.Lacks start stop)

section

variable {z : Deed ε} (hs : z.before.store.Sound) {start stop : Double}

include hs

/-- A range that is hidden is concealed. -/
theorem Deed.conceals_of_hides (h : z.command.edit = .range .hide start stop) :
  (z.left host).store.timeline.Conceals start stop
  := by
  obtain ⟨-, hcases⟩ := z.left_cases hC hs
  rw [h] at hcases
  rcases hcases with ⟨ids, -, hedit⟩ | ⟨-, ⟨f, hedit⟩, -⟩
  · rw [Timeline.of_edit_range hedit]
    apply Timeline.conceals_hide
  · cases hedit

/-- A range that is deleted is lacking. -/
theorem Deed.lacks_of_deletes (h : z.command.edit = .range .delete start stop) :
  (z.left host).store.timeline.Lacks start stop
  := by
  obtain ⟨-, hcases⟩ := z.left_cases hC hs
  rw [h] at hcases
  rcases hcases with ⟨ids, -, hedit⟩ | ⟨-, ⟨f, hedit⟩, -⟩
  · rw [Timeline.of_edit_range hedit]
    apply Timeline.lacks_delete
  · cases hedit

omit hC hs in
theorem Deed.not_load {ids : List Int} (haffected : z.affected? host = some ids)
    (hloads : ¬ z.Loads host) :
  ∀ path, z.command.edit ≠ .load path
  := by
  intro path hedit
  apply hloads
  exact ⟨⟨path, hedit⟩, by simp [haffected]⟩

/-- A range stays concealed unless a range is shown or a file is loaded. -/
theorem Deed.conceals_left (h : z.before.store.timeline.Conceals start stop)
    (hloads : ¬ z.Loads host) (hreveals : ¬ z.Reveals) :
  (z.left host).store.timeline.Conceals start stop
  := by
  obtain ⟨-, ⟨ids, haffected, hedit⟩ | ⟨-, -, hkept⟩⟩ := z.left_cases hC hs
  · apply h.edit hedit (Deed.not_load haffected hloads)
    intro a b hreveal
    apply hreveals ⟨a, b, hreveal⟩
  · rw [hkept]
    apply h

/-- A range stays lacking unless a file is loaded. -/
theorem Deed.lacks_left (h : z.before.store.timeline.Lacks start stop)
    (hloads : ¬ z.Loads host) :
  (z.left host).store.timeline.Lacks start stop
  := by
  obtain ⟨-, ⟨ids, haffected, hedit⟩ | ⟨-, -, hkept⟩⟩ := z.left_cases hC hs
  · apply h.edit hedit (Deed.not_load haffected hloads)
  · rw [hkept]
    apply h

end

theorem Deed.keeps_withheld :
  Deed.Keeps host (Deed.Withheld host)
  := by
  intro past z hs h earlier x later hpast start stop
  rcases List.eq_nil_or_concat later with rfl | ⟨between, z', rfl⟩
  · -- The last deed is the one that hides or deletes.
    obtain ⟨rfl, hz⟩ := List.append_inj' hpast rfl
    obtain rfl : z = x := by simpa using hz
    constructor
    · intro hhide _
      apply Deed.conceals_of_hides hC hs hhide
    · intro hdelete _
      apply Deed.lacks_of_deletes hC hs hdelete
  · -- The last deed comes after it.
    rw [List.concat_eq_append] at hpast ⊢
    rw [← List.cons_append, ← List.append_assoc] at hpast
    obtain ⟨rfl, hz⟩ := List.append_inj' hpast rfl
    obtain rfl : z = z' := by simpa using hz
    obtain ⟨hhidden, hdeleted⟩ := h earlier x between rfl start stop
    have hlast : z ∈ between ++ [z] := List.mem_append_right between List.mem_cons_self
    constructor
    · intro hhide hlater
      have hbefore := hhidden hhide fun y hy => hlater y (List.mem_append_left [z] hy)
      apply Deed.conceals_left hC hs hbefore (hlater z hlast).1 (hlater z hlast).2
    · intro hdelete hlater
      have hbefore := hdeleted hdelete fun y hy => hlater y (List.mem_append_left [z] hy)
      apply Deed.lacks_left hC hs hbefore (hlater z hlast)

namespace Desk

omit hC in
/-- A desk with nobody around, where every file lasts ten seconds. -/
def tenSeconds : Surroundings Unit :=
  .alone fun _ => .ok (.ofInt 10)

variable {d : Desk ε} (hempty : d.store.held = [])

include hempty

/-- Throughout all calls the timeline fits the chart of what was done. -/
theorem timeline_charted (calls : List Call) :
  (leftBy host calls d).store.timeline.Charted (Chart.ofDeeds host (deedsOf host calls d))
    ∧ ∀ earlier x later, deedsOf host calls d = earlier ++ x :: later →
      (x.left host).store.timeline.Charted (Chart.ofDeeds host (earlier ++ [x]))
  := by
  have hstart : d.store.timeline.Charted (Chart.ofDeeds host ([] : List (Deed ε))) := by
    apply Timeline.charted_none.mpr
    simp [Store.timeline, Store.segments, hempty]
  have h := arrives_calls hC (Deed.keeps_charted hC) calls (Store.sound_of_empty hempty) hstart
  constructor
  · apply h.atEnd
  · intro earlier x later hdeeds
    have hx := h.throughout
    rw [hdeeds] at hx
    apply hx.at

omit hC hempty in
/-- Calls that load a file, cut it twice and hide its first half. -/
def twoCuts : List Call :=
  [.batch [⟨.load "a.mp4", 1⟩, ⟨.cut (.ofInt 5), 2⟩] .never, .direct (.ofInt 7),
    .single ⟨.range .hide .zero (.ofInt 5), 3⟩]

omit hC hempty in
theorem timeline_charted_twoCuts :
  (Conduct.quiet Unit).Binds tenSeconds ∧ ({ surroundings := () } : Desk Unit).store.held = []
    ∧ (leftBy tenSeconds twoCuts { surroundings := () }).store.timeline.Charted
      (some { path := "a.mp4", duration := .ofInt 10, cuts := [.ofInt 7, .ofInt 5] })
  := by
  have hbinds : (Conduct.quiet Unit).Binds tenSeconds := Conduct.binds_alone _ _
  have hchart : Chart.ofDeeds tenSeconds (deedsOf tenSeconds twoCuts { surroundings := () })
      = some { path := "a.mp4", duration := .ofInt 10, cuts := [.ofInt 7, .ofInt 5] } := by
    decide +kernel
  obtain ⟨hcharted, -⟩ := timeline_charted hbinds (d := { surroundings := () }) rfl twoCuts
  rw [hchart] at hcharted
  exact ⟨hbinds, rfl, hcharted⟩

/-- What was hidden stays hidden until a range is shown or a file is loaded, and what was
deleted stays away until a file is loaded. -/
theorem withheld_stays_withheld (calls : List Call) {earlier later : List (Deed ε)} {x : Deed ε}
    (hdeeds : deedsOf host calls d = earlier ++ x :: later) (start stop : Double) :
  (x.command.edit = .range .hide start stop → (∀ y ∈ later, ¬ y.Loads host ∧ ¬ y.Reveals) →
      (leftBy host calls d).store.timeline.Conceals start stop
        ∧ ∀ y ∈ x :: later, (y.left host).store.timeline.Conceals start stop)
    ∧ (x.command.edit = .range .delete start stop → (∀ y ∈ later, ¬ y.Loads host) →
      (leftBy host calls d).store.timeline.Lacks start stop
        ∧ ∀ y ∈ x :: later, (y.left host).store.timeline.Lacks start stop)
  := by
  have hstart : Deed.Withheld host [] d.store.timeline := by
    intro earlier x later h
    cases earlier <;> cases h
  have h := arrives_calls hC (Deed.keeps_withheld hC) calls (Store.sound_of_empty hempty) hstart
  have hend := h.atEnd earlier x later (by simpa using hdeeds) start stop
  have hmid : ∀ y ∈ x :: later, ∃ between, (∀ z ∈ between, z ∈ later)
      ∧ Deed.Withheld host (earlier ++ x :: between) (y.left host).store.timeline := by
    intro y hy
    obtain ⟨between, rest, hsplit⟩ := List.append_of_mem hy
    have hthroughout := h.throughout
    rw [hdeeds, hsplit, ← List.append_assoc] at hthroughout
    have hat := hthroughout.at
    cases between with
    | nil =>
        cases hsplit
        use []
        constructor
        · intro z hz
          cases hz
        · simpa using hat
    | cons z between =>
        cases hsplit
        use between ++ [y]
        constructor
        · intro z hz
          rcases List.mem_append.mp hz with hz | hz
          · apply List.mem_append_left _ hz
          · obtain rfl := List.mem_singleton.mp hz
            apply List.mem_append_right between List.mem_cons_self
        · simpa using hat
  constructor
  · intro hhide hlater
    refine ⟨hend.1 hhide hlater, ?_⟩
    intro y hy
    obtain ⟨between, hbetween, hy⟩ := hmid y hy
    apply (hy earlier x between rfl start stop).1 hhide
    intro z hz
    apply hlater z (hbetween z hz)
  · intro hdelete hlater
    refine ⟨hend.2 hdelete hlater, ?_⟩
    intro y hy
    obtain ⟨between, hbetween, hy⟩ := hmid y hy
    apply (hy earlier x between rfl start stop).2 hdelete
    intro z hz
    apply hlater z (hbetween z hz)

omit hC hempty in
/-- Calls that load a file, hide its first half, delete its second half, and cut the first. -/
def halves : List Call :=
  [.single ⟨.load "a.mp4", 1⟩, .single ⟨.cut (.ofInt 5), 2⟩,
    .single ⟨.range .hide .zero (.ofInt 5), 3⟩,
    .single ⟨.range .delete (.ofInt 5) (.ofInt 10), 4⟩, .single ⟨.cut (.ofInt 2), 5⟩]

omit hC hempty in
theorem withheld_stays_withheld_halves :
  (Conduct.quiet Unit).Binds tenSeconds ∧ ({ surroundings := () } : Desk Unit).store.held = []
    ∧ (leftBy tenSeconds halves { surroundings := () }).store.timeline.Conceals .zero (.ofInt 5)
    ∧ (leftBy tenSeconds halves { surroundings := () }).store.timeline.Lacks (.ofInt 5)
      (.ofInt 10)
  := by
  have hbinds : (Conduct.quiet Unit).Binds tenSeconds := Conduct.binds_alone _ _
  have hhidden := withheld_stays_withheld hbinds (d := { surroundings := () }) rfl halves
    (show _ = [_, _] ++ _ :: _ from rfl) .zero (.ofInt 5)
  have hdeleted := withheld_stays_withheld hbinds (d := { surroundings := () }) rfl halves
    (show _ = [_, _, _] ++ _ :: _ from rfl) (.ofInt 5) (.ofInt 10)
  refine ⟨hbinds, rfl, (hhidden.1 rfl ?_).1, (hdeleted.2 rfl ?_).1⟩
  · simp [deedsOf, Call.deeds, Deed.Loads, Deed.Reveals]
  · simp [deedsOf, Call.deeds, Deed.Loads]

end Desk

end Montage
