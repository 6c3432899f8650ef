import Montage.Proofs.Store.Order

/-!
# Stores in order

A store is `Orderly` if its segments are in order and have different ids that have all been
given out.  It is `Tagged` if its tags tell its records apart, and `Regular` if it is both.
The changes of the list of records are described here on a store that is split at the place
of the change.
-/

namespace Montage

namespace Store

/-- The segments of a store are in order, and have different ids that have all been given
out. -/
structure Orderly (s : Store) : Prop where
  numeric : ∀ x ∈ s.held, x.segment.start ≠ .nan
  sorted : s.held.Pairwise fun x y => x.segment.precedes y.segment
  ids : s.held.Pairwise fun x y => x.segment.id ≠ y.segment.id
  ids_lt : ∀ x ∈ s.held, x.segment.id < s.nextId

/-- The tags of a store tell its records apart, and have all been given out. -/
structure Tagged (s : Store) : Prop where
  tags : s.held.Pairwise fun x y => x.tag ≠ y.tag
  tags_lt : ∀ x ∈ s.held, x.tag < s.nextTag

/-- An orderly store whose tags tell its records apart. -/
structure Regular (s : Store) : Prop extends Orderly s, Tagged s

variable {s s' : Store} {before after : List Held} {x z : Held}

theorem regular_of_empty (h : s.held = []) :
  s.Regular
  := by
  constructor <;> constructor <;> simp [h]

/-! ### Finding records -/

/-- The segments of a split store. -/
theorem segments_split (h : s.held = before ++ x :: after) :
  s.segments = before.map (·.segment) ++ x.segment :: after.map (·.segment)
  := by
  simp [segments, h]

/-- Where all elements differ, one differs from those on both of its sides. -/
theorem ne_of_pairwise_split {α β : Type} {f : α → β} {x : α} {before after : List α}
    (h : (before ++ x :: after).Pairwise fun y z => f y ≠ f z) :
  ∀ y ∈ before ++ after, f y ≠ f x
  := by
  obtain ⟨-, hx, hbefore⟩ := List.pairwise_append.mp h
  intro y hy
  rcases List.mem_append.mp hy with hy | hy
  · apply hbefore y hy x List.mem_cons_self
  · apply Ne.symm ((List.pairwise_cons.mp hx).1 y hy)

theorem Orderly.id_ne (hs : s.Orderly) (h : s.held = before ++ x :: after) :
  ∀ y ∈ before ++ after, y.segment.id ≠ x.segment.id
  := ne_of_pairwise_split (f := fun x : Held => x.segment.id) (h ▸ hs.ids)

theorem Tagged.tag_ne (hs : s.Tagged) (h : s.held = before ++ x :: after) :
  ∀ y ∈ before ++ after, y.tag ≠ x.tag
  := ne_of_pairwise_split (f := fun x : Held => x.tag) (h ▸ hs.tags)

/-- An element is found behind others that are not looked for. -/
theorem find?_split {α : Type} {p : α → Bool} {x : α} {before after : List α} (hx : p x = true)
    (h : ∀ y ∈ before, p y = false) :
  (before ++ x :: after).find? p = some x
  := by
  rw [List.find?_append, List.find?_eq_none.mpr]
  · simp [hx]
  · intro y hy
    simp [h y hy]

/-- A record is found by its id. -/
theorem Orderly.find?_eq (hs : s.Orderly) (h : s.held = before ++ x :: after) :
  s.find? x.segment.id = some x
  := by
  rw [find?, h]
  apply find?_split
  · simp
  · intro y hy
    simpa using hs.id_ne h y (List.mem_append_left after hy)

/-- A record is known by its tag. -/
theorem Tagged.current?_eq (hs : s.Tagged) (h : s.held = before ++ x :: after) :
  s.current? x.tag = some x.segment
  := by
  rw [current?, h, List.append_assoc, List.cons_append, find?_split]
  · rfl
  · simp
  · intro y hy
    simpa using hs.tag_ne h y (List.mem_append_left after hy)

theorem Tagged.current?_of_mem (hs : s.Tagged) (h : x ∈ s.held) :
  s.current? x.tag = some x.segment
  := by
  obtain ⟨before, after, hsplit⟩ := List.append_of_mem h
  apply hs.current?_eq hsplit

/-- A record that was just removed is still known by its tag. -/
theorem current?_former {rest : List Held} (h : ∀ y ∈ s.held, y.tag ≠ x.tag)
    (hf : s.former = x :: rest) :
  s.current? x.tag = some x.segment
  := by
  rw [current?, hf, find?_split]
  · rfl
  · simp
  · intro y hy
    simpa using h y hy

/-- A record that is found by an id is one of the store's, and has it. -/
theorem exists_split_of_find? {id : Int} (h : s.find? id = some x) :
  ∃ before after, s.held = before ++ x :: after ∧ x.segment.id = id
  := by
  obtain ⟨before, after, hsplit⟩ := List.append_of_mem (List.mem_of_find?_eq_some h)
  exact ⟨before, after, hsplit, by simpa using List.find?_some h⟩

theorem find?_eq_none_iff {id : Int} :
  s.find? id = none ↔ ∀ x ∈ s.held, x.segment.id ≠ id
  := by
  simp [find?]

/-! ### Putting records into order -/

theorem arrange_perm {l : List Held} (h : ∀ x ∈ l, x.segment.start ≠ .nan) :
  (arrange l).Perm l
  := Segment.arranged_perm h

/-- Records in order stay where they are. -/
theorem Orderly.arrange_held (hs : s.Orderly) :
  arrange s.held = s.held
  := Segment.arranged_eq (List.Perm.refl _) hs.numeric hs.sorted

/-- Records with different ids are orderly once they have been put into order. -/
theorem orderly_arrange {l : List Held} (hheld : s.held = arrange l)
    (hnum : ∀ x ∈ l, x.segment.start ≠ .nan)
    (hids : l.Pairwise fun x y => x.segment.id ≠ y.segment.id)
    (hlt : ∀ x ∈ l, x.segment.id < s.nextId) :
  s.Orderly
  := by
  have hperm := arrange_perm hnum
  constructor
  · intro x hx
    rw [hheld] at hx
    apply hnum x (hperm.mem_iff.mp hx)
  · rw [hheld]
    apply Segment.arranged_sorted hnum hids
  · rw [hheld]
    apply (hperm.pairwise_iff fun h => Ne.symm h).mpr hids
  · intro x hx
    rw [hheld] at hx
    apply hlt x (hperm.mem_iff.mp hx)

/-- Records with different tags are tagged in whatever order they are put. -/
theorem tagged_arrange {l : List Held} (hheld : s.held = arrange l)
    (hnum : ∀ x ∈ l, x.segment.start ≠ .nan) (htags : l.Pairwise fun x y => x.tag ≠ y.tag)
    (hlt : ∀ x ∈ l, x.tag < s.nextTag) :
  s.Tagged
  := by
  have hperm := arrange_perm hnum
  constructor
  · rw [hheld]
    apply (hperm.pairwise_iff fun h => Ne.symm h).mpr htags
  · intro x hx
    rw [hheld] at hx
    apply hlt x (hperm.mem_iff.mp hx)

/-- What holds of an element and of those on both of its sides. -/
theorem forall_mem_middle {α : Type} {P : α → Prop} {x : α} {before after : List α}
    (h : ∀ y ∈ before ++ after, P y) (hx : P x) :
  ∀ y ∈ before ++ x :: after, P y
  := by
  intro y hy
  rcases List.mem_cons.mp (List.perm_middle.mem_iff.mp hy) with rfl | hy
  · apply hx
  · apply h y hy

/-- A list that holds an element that differs from all others holds different elements. -/
theorem pairwise_ne_middle {α β : Type} {f : α → β} {x : α} {before after : List α}
    (h : (before ++ after).Pairwise fun y z => f y ≠ f z)
    (hx : ∀ y ∈ before ++ after, f y ≠ f x) :
  (before ++ x :: after).Pairwise fun y z => f y ≠ f z
  := by
  apply (List.perm_middle.pairwise_iff fun h => Ne.symm h).mpr
  apply List.pairwise_cons.mpr ⟨_, h⟩
  intro y hy
  apply Ne.symm (hx y hy)

/-- The records on both sides of a place are among all of them. -/
theorem sublist_of_split (h : s.held = before ++ x :: after) :
  (before ++ after).Sublist s.held
  := by
  rw [h]
  apply List.Sublist.append_left
  apply List.sublist_cons_self

/-- A store with some of the records of an orderly one. -/
theorem Orderly.sublist (hs : s.Orderly) (hheld : s'.held.Sublist s.held)
    (hnext : s'.nextId = s.nextId) :
  s'.Orderly
  := by
  constructor
  · intro x hx
    apply hs.numeric x (hheld.subset hx)
  · apply hs.sorted.sublist hheld
  · apply hs.ids.sublist hheld
  · intro x hx
    rw [hnext]
    apply hs.ids_lt x (hheld.subset hx)

/-- A store with some of the records of a tagged one. -/
theorem Tagged.sublist (hs : s.Tagged) (hheld : s'.held.Sublist s.held)
    (hnext : s.nextTag ≤ s'.nextTag) :
  s'.Tagged
  := by
  constructor
  · apply hs.tags.sublist hheld
  · intro x hx
    apply Nat.lt_of_lt_of_le (hs.tags_lt x (hheld.subset hx)) hnext

theorem Regular.sublist (hs : s.Regular) (hheld : s'.held.Sublist s.held)
    (hnext : s'.nextId = s.nextId) (htag : s.nextTag ≤ s'.nextTag) :
  s'.Regular
  := ⟨hs.toOrderly.sublist hheld hnext, hs.toTagged.sublist hheld htag⟩

/-- A regular store with its records changed, but not their starts, ids and tags. -/
theorem Regular.map (hs : s.Regular) {g : Held → Held}
    (hg : ∀ y, (g y).segment.start = y.segment.start ∧ (g y).segment.id = y.segment.id
      ∧ (g y).tag = y.tag)
    (hheld : s'.held = s.held.map g) (hnextId : s'.nextId = s.nextId)
    (hnextTag : s'.nextTag = s.nextTag) :
  s'.Regular
  := by
  have hstart := fun y => (hg y).1
  have hid := fun y => (hg y).2.1
  have htag := fun y => (hg y).2.2
  constructor <;> constructor
  · simpa [hheld, hstart] using hs.numeric
  · simpa [hheld, List.pairwise_map, Segment.precedes, hstart, hid] using hs.sorted
  · simpa [hheld, List.pairwise_map, hid] using hs.ids
  · simpa [hheld, hid, hnextId] using hs.ids_lt
  · simpa [hheld, List.pairwise_map, htag] using hs.tags
  · simpa [hheld, htag, hnextTag] using hs.tags_lt

/-- A regular store that has given out more tags. -/
theorem Regular.retagged (hs : s.Regular) {nextTag : Nat} (h : s.nextTag ≤ nextTag) :
  Regular { s with nextTag := nextTag }
  := hs.sublist (List.Sublist.refl _) rfl h

/-- A regular store with a record put between some of its own, under an id and a tag that
differ from theirs. -/
theorem Regular.arranged (hs : s.Regular) (hsub : (before ++ after).Sublist s.held)
    (hheld : s'.held = arrange (before ++ z :: after)) (hnum : z.segment.start ≠ .nan)
    (hids : ∀ y ∈ before ++ after, y.segment.id ≠ z.segment.id)
    (hid : z.segment.id < s'.nextId) (hnextId : s.nextId ≤ s'.nextId)
    (htags : ∀ y ∈ before ++ after, y.tag ≠ z.tag) (htag : z.tag < s'.nextTag)
    (hnextTag : s.nextTag ≤ s'.nextTag) :
  s'.Regular
  := by
  have hnum' : ∀ y ∈ before ++ z :: after, y.segment.start ≠ .nan :=
    forall_mem_middle (fun y hy => hs.numeric y (hsub.subset hy)) hnum
  constructor
  · apply orderly_arrange hheld hnum'
    · apply pairwise_ne_middle (f := fun y : Held => y.segment.id) (hs.ids.sublist hsub) hids
    · apply forall_mem_middle (P := fun y : Held => y.segment.id < s'.nextId) _ hid
      intro y hy
      apply Int.lt_of_lt_of_le (hs.ids_lt y (hsub.subset hy)) hnextId
  · apply tagged_arrange hheld hnum'
    · apply pairwise_ne_middle (f := fun y : Held => y.tag) (hs.tags.sublist hsub) htags
    · apply forall_mem_middle (P := fun y : Held => y.tag < s'.nextTag) _ htag
      intro y hy
      apply Nat.lt_of_lt_of_le (hs.tags_lt y (hsub.subset hy)) hnextTag

/-! ### Changes of the list -/

/-- A change of one element of a list that leaves those on both of its sides alone. -/
theorem map_split {α : Type} {p : α → Bool} {g : α → α} {x : α} {before after : List α}
    (hx : p x = true) (h : ∀ y ∈ before ++ after, p y = false) :
  (before ++ x :: after).map (fun y => if p y then g y else y) = before ++ g x :: after
  := by
  have hkept : ∀ l : List α, (∀ y ∈ l, p y = false) →
      l.map (fun y => if p y then g y else y) = l := by
    intro l hl
    apply Eq.trans (List.map_congr_left _) (List.map_id l)
    intro y hy
    simp [hl y hy]
  rw [List.map_append, List.map_cons, if_pos hx, hkept before, hkept after]
  · intro y hy
    apply h y (List.mem_append_right before hy)
  · intro y hy
    apply h y (List.mem_append_left after hy)

/-- A store with a record taken from between two parts of its list. -/
def removedBetween (s : Store) (before : List Held) (x : Held) (after : List Held) : Store :=
  { s with held := before ++ after, former := x :: s.former }

/-- A record is removed by its id. -/
theorem Orderly.erase_eq (hs : s.Orderly) (h : s.held = before ++ x :: after) :
  s.erase x.segment.id = some (s.removedBetween before x after, x)
  := by
  have herase : s.held.eraseP (·.segment.id == x.segment.id) = before ++ after := by
    rw [h, List.eraseP_append_right]
    · simp
    · intro y hy
      simpa using hs.id_ne h y (List.mem_append_left after hy)
  simp [erase, hs.find?_eq h, herase, removedBetween]

/-- The first element of a kind is replaced behind others that are of no such kind. -/
theorem replaceFirst_split {α : Type} {p : α → Bool} {x z : α} {before after : List α}
    (hx : p x = true) (h : ∀ y ∈ before, p y = false) :
  replaceFirst p z (before ++ x :: after) = before ++ z :: after
  := by
  induction before with
  | nil => simp [replaceFirst, hx]
  | cons y rest ih =>
      simp only [List.cons_append, replaceFirst, h y List.mem_cons_self]
      rw [ih fun z hz => h z (List.mem_cons_of_mem y hz)]
      rfl

/-- A record is put in the place of the one with its id. -/
theorem Orderly.replace_eq (hs : s.Orderly) (h : s.held = before ++ x :: after)
    (hid : z.segment.id = x.segment.id) :
  s.replace z
    = some { s with held := arrange (before ++ z :: after), former := x :: s.former }
  := by
  have hreplace : replaceFirst (·.segment.id == x.segment.id) z s.held
      = before ++ z :: after := by
    rw [h]
    apply replaceFirst_split
    · simp
    · intro y hy
      simpa using hs.id_ne h y (List.mem_append_left after hy)
  simp [replace, hid, hs.find?_eq h, hreplace]

/-- A record is put in its own place. -/
theorem Orderly.replace_self (hs : s.Orderly) (h : s.held = before ++ x :: after) :
  s.replace x = some { s with former := x :: s.former }
  := by
  rw [hs.replace_eq h rfl, ← h, hs.arrange_held]

end Store

end Montage
