import Montage.Proofs.Desk.Ledger
import Montage.Proofs.Desk.StoreCall

/-!
# The order of a store at all times

Whoever uses a store through its operations may do so from within an event, and may break an
operation off by failing when told of it.  A ledger with all calls of operations shows that
the store is orderly nevertheless, whenever anyone is called and in the end, and that a new
id is one that no segment has had since the store was cleared: `orderly_throughout`.
-/

namespace Montage

variable {ε : Type}

namespace Store

/-- A call that is entered in the ledger. -/
def Call.noted (host : Surroundings (Ledger Call ε)) (c : Call) :
    Run (Ledger Call ε) (Option Held) := do
  Desk.note (.noted c)
  c.run host.noting

/-- What those who use a store do, the listeners among them: they call its operations, subscribe
and unsubscribe listeners, and act on a state of their own, and they may fail and recover.
Listeners are told of what a call has changed, and what they do is of the same sort. -/
inductive Uses : {α : Type} → Run (Ledger Call ε) α → Prop where
  | pure {α : Type} (a : α) : Uses (pure a)
  | throw {α : Type} (f : Fault) : Uses (throw f : Run (Ledger Call ε) α)
  | get : Uses get
  | bind {α β : Type} {x : Run (Ledger Call ε) α} {k : α → Run (Ledger Call ε) β}
    (hx : Uses x) (hk : ∀ a, Uses (k a)) : Uses (x >>= k)
  | tryCatch {α : Type} {x : Run (Ledger Call ε) α} {k : Fault → Run (Ledger Call ε) α}
    (hx : Uses x) (hk : ∀ f, Uses (k f)) : Uses (tryCatch x k)
  | change (g : ε → ε) :
    Uses (modify fun d => { d with
      surroundings := ⟨d.moments, g d.surroundings.rest⟩ })
  | follow (g : List Nat → List Nat) : Uses (modify fun d => { d with listeners := g d.listeners })
  | call (host : Surroundings (Ledger Call ε)) (c : Call) (hnum : c.Numeric)
    (hhost : ∀ listener event, Uses (host.onEvent listener event)) : Uses (c.noted host)

/-- A call that removes all segments. -/
def clears (m : Moment Call) : Bool :=
  match m.occasion with
  | .noted .clear => true
  | _ => false

/-- The moments since all segments were removed, where the latest come first. -/
def sinceCleared (moments : List (Moment Call)) : List (Moment Call) :=
  moments.takeWhile fun m => !clears m

/-- All ids since all segments were removed are below a given one. -/
def Below (moments : List (Moment Call)) (nextId : Int) : Prop :=
  ∀ m ∈ sinceCleared moments, ∀ x ∈ m.desk.store.held, x.segment.id < nextId

/-- A desk with a regular store, and with a ledger in which stores are orderly at all moments
and ids are given out one after the other. -/
structure Kept (d : Desk (Ledger Call ε)) : Prop where
  regular : d.store.Regular
  orderly : ∀ m ∈ d.moments, m.desk.store.Orderly
  below : Below d.moments d.store.nextId
  earlier : ∀ later m earlier, d.moments = later ++ m :: earlier →
    Below earlier m.desk.store.nextId

namespace Kept

variable {d : Desk (Ledger Call ε)}

/-- A store that gives out ids from an earlier one on has been cleared. -/
theorem withStore (h : Kept d) {s : Store} (hs : s.Regular)
    (hnext : d.store.nextId ≤ s.nextId ∨ sinceCleared d.moments = []) :
  Kept { d with store := s }
  := by
  refine ⟨hs, h.orderly, ?_, h.earlier⟩
  intro m hm x hx
  rcases hnext with hnext | hnext
  · apply Int.lt_of_lt_of_le (h.below m hm x hx) hnext
  · change m ∈ sinceCleared d.moments at hm
    rw [hnext] at hm
    cases hm

theorem entered (h : Kept d) (o : Occasion Call) :
  Kept (d.entered o)
  := by
  have horderly : d.bare.store.Orderly := h.regular.toOrderly
  constructor
  · apply h.regular
  · intro m hm
    rcases List.mem_cons.mp hm with rfl | hm
    · apply horderly
    · apply h.orderly m hm
  · -- A moment at which the store is cleared is not itself among those since then.
    intro m hm x hx
    rw [Desk.moments_entered, sinceCleared, List.takeWhile_cons] at hm
    split at hm
    · rcases List.mem_cons.mp hm with rfl | hm
      · apply horderly.ids_lt x hx
      · apply h.below m hm x hx
    · cases hm
  · -- The moments before the new one are those of the old ledger, which `below` speaks of.
    intro later m earlier hsplit
    rw [Desk.moments_entered] at hsplit
    cases later with
    | nil =>
        obtain ⟨rfl, rfl⟩ := List.cons.inj hsplit
        apply h.below
    | cons _ later => apply h.earlier later m earlier (List.cons.inj hsplit).2

theorem note (o : Occasion Call) :
  Desk.Keeps Kept (Desk.note o : Run (Ledger Call ε) Unit)
  := Desk.keeps_modify fun _ hd => hd.entered o

variable {host : Surroundings (Ledger Call ε)}
  (hhost : ∀ listener event, Desk.Keeps Kept (host.onEvent listener event))

include hhost

/-- Announcing a change of the store. -/
theorem announce (h : Kept d) {s : Store} {kind : EventKind} {tag : Option Nat}
    (hchange : Change d.store s kind tag)
    (hcleared : kind = .cleared → sinceCleared d.moments = []) :
  Desk.Meets (Desk.announce host.noting kind tag) { d with store := s } (fun _ => Kept)
    (fun _ => Kept)
  := by
  apply Desk.keeps_announce
  · intro listener event
    apply (note _).bind fun _ => hhost listener event
  · apply h.withStore (hchange.regular h.regular)
    by_cases hkind : kind = .cleared
    · right
      apply hcleared hkind
    · left
      apply hchange.nextId_le hkind

/-- A call keeps the ledger. -/
theorem noted (c : Call) (hnum : c.Numeric) :
  Desk.Keeps Kept (c.noted host)
  := by
  intro d hd
  have h := hd.entered (.noted c)
  rw [Call.noted, Desk.meets_bind, Desk.note, Desk.meets_modify]
  apply Desk.meets_run h.regular hnum
  · intro n hn
    apply h.withStore
    · apply h.regular.retagged hn
    · left
      apply Int.le_refl
  · intro kind tag s hchange hclear
    apply h.announce hhost hchange
    -- The call that clears the store has just been entered, so nothing has happened since.
    intro hkind
    obtain rfl := hclear hkind
    rfl

end Kept

/-- Whoever uses a store keeps the ledger. -/
theorem Uses.keeps {α : Type} {x : Run (Ledger Call ε) α} (hx : Uses x) :
  Desk.Keeps Kept x
  := by
  induction hx with
  | pure a => apply Desk.keeps_pure
  | throw f => apply Desk.keeps_throw
  | get => apply Desk.keeps_get
  | bind hx hk ihx ihk => apply ihx.bind ihk
  | tryCatch hx hk ihx ihk => apply ihx.tryCatch ihk
  | change g =>
      apply Desk.keeps_modify
      intro d h
      exact ⟨h.regular, h.orderly, h.below, h.earlier⟩
  | follow g =>
      apply Desk.keeps_modify
      intro d h
      exact ⟨h.regular, h.orderly, h.below, h.earlier⟩
  | call host c hnum hhost ih => apply Kept.noted ih c hnum

/-- Whoever uses a store that was empty, and whatever listeners do in between, at every moment
and in the end the segments are in order and have different ids that have all been given out.
An id that is given out to a clip is one that no segment has had since the store was cleared.
An id that is taken cannot be given to a clip again, and where an id is absent nothing is
removed or updated and nobody is told. -/
theorem orderly_throughout {α : Type} {x : Run (Ledger Call ε) α} (hx : Uses x)
    {d : Desk (Ledger Call ε)} (hheld : d.store.held = []) (hmoments : d.moments = []) :
  (Desk.after x d).store.Orderly
    ∧ (∀ m ∈ (Desk.after x d).moments, m.desk.store.Orderly)
    ∧ (∀ later m earlier clip, (Desk.after x d).moments = later ++ m :: earlier →
      m.occasion = .noted (.add clip none) →
      ∃ s record, m.desk.store.insert clip none = .ok (s, record)
        ∧ ∀ m' ∈ m :: sinceCleared earlier, ∀ y ∈ m'.desk.store.segments,
          y.id ≠ record.segment.id)
    ∧ ∀ {σ : Type} (host : Surroundings σ) (d : Desk σ) (id : Int),
      ((d.store.find? id).isSome → ∀ clip,
        Desk.add host clip (some id) d = .error (.duplicateId id) d
          ∧ (Fault.duplicateId id).family = .value)
      ∧ (d.store.find? id = none →
        Desk.remove host id d = .ok () d ∧ Desk.touch host id d = .ok () d
          ∧ ∀ segment : Segment, segment.id = id → Desk.update host segment d
            = .ok () { d with store := { d.store with nextTag := d.store.nextTag + 1 } })
  := by
  have hstart : Kept d := by
    constructor
    · apply regular_of_empty hheld
    · simp [hmoments]
    · simp [hmoments, Below, sinceCleared]
    · simp [hmoments]
  have h := hx.keeps.after hstart
  refine ⟨h.regular.toOrderly, h.orderly, ?_, ?_⟩
  · intro later m earlier clip hsplit _
    have hm := h.orderly m (hsplit ▸ List.mem_append_right later List.mem_cons_self)
    refine ⟨_, _, rfl, ?_⟩
    intro m' hm' y hy
    obtain ⟨z, hz, rfl⟩ := List.mem_map.mp hy
    apply Int.ne_of_lt
    rcases List.mem_cons.mp hm' with rfl | hm'
    · apply hm.ids_lt z hz
    · apply h.earlier later m earlier hsplit m' hm' z hz
  · intro σ host d id
    constructor
    · intro htaken clip
      constructor
      · apply Desk.add_taken
        simpa [get?] using htaken
      · rfl
    · intro hnone
      refine ⟨Desk.remove_absent hnone, Desk.touch_absent hnone, ?_⟩
      intro segment hid
      apply Desk.update_absent hnone hid

/-- The first ten seconds of a file. -/
def tenSeconds : Clip :=
  { start := .zero, stop := .ofInt 10, path := "a.mp4" }

theorem numeric_tenSeconds :
  tenSeconds.Numeric
  := by decide +kernel

/-- A listener who adds a clip as soon as one is removed, and another one who fails when told of
a clip that was added. -/
def meddlers : Surroundings (Ledger Call Unit) :=
  { Surroundings.bystanders (Ledger Call Unit) with
    onEvent listener event := match listener, event.kind with
      | 0, .removed => do
        let _ ← (Call.add tenSeconds none).noted (.bystanders _)
        return
      | 1, .added => throw (.foreign "RuntimeError" .runtime "boom")
      | _, _ => pure () }

/-- A clip is added under an id of its own and removed again, and then the store is cleared and
the clip is added twice. -/
def addedTwice : Run (Ledger Call Unit) Unit := do
  let _ ← tryCatch ((Call.add tenSeconds (some 5)).noted meddlers) fun _ => pure none
  let _ ← (Call.remove 5).noted meddlers
  let _ ← Call.clear.noted meddlers
  let _ ← tryCatch ((Call.add tenSeconds none).noted meddlers) fun _ => pure none
  let _ ← (Call.add tenSeconds (some 7)).noted meddlers
  return

theorem uses_meddlers (listener : Nat) (event : Event) :
  Uses (meddlers.onEvent listener event)
  := by
  unfold meddlers
  dsimp only
  split
  · apply Uses.bind
    · apply Uses.call (.bystanders _) (.add tenSeconds none) numeric_tenSeconds
      intro _ _
      apply Uses.pure
    · intro _
      apply Uses.pure
  · apply Uses.throw
  · apply Uses.pure

theorem uses_addedTwice :
  Uses addedTwice
  := by
  have hcall : ∀ c : Call, c.Numeric → Uses (c.noted meddlers) :=
    fun c hc => Uses.call meddlers c hc uses_meddlers
  have hadd : ∀ id, Uses ((Call.add tenSeconds id).noted meddlers) :=
    fun id => hcall (.add tenSeconds id) numeric_tenSeconds
  apply ((hadd _).tryCatch fun _ => Uses.pure none).bind
  intro _
  apply (hcall (.remove 5) trivial).bind
  intro _
  apply (hcall .clear trivial).bind
  intro _
  apply ((hadd _).tryCatch fun _ => Uses.pure none).bind
  intro _
  apply (hadd _).bind
  intro _
  apply Uses.pure

/-- An empty store with these two listeners. -/
def meddledDesk : Desk (Ledger Call Unit) :=
  { listeners := [0, 1], surroundings := { rest := () } }

theorem orderly_throughout_meddled :
  ((Desk.after addedTwice meddledDesk).store.segments.map (·.id) = [1, 7]
      ∧ (Desk.after addedTwice meddledDesk).store.Orderly)
    ∧ ((Desk.after addedTwice meddledDesk).moments.map fun m => m.desk.store.segments.map (·.id))
      = [[1, 7], [1, 7], [1], [1], [1], [], [], [], [6], [6], [6], [6], [], [], [5], [5], [5], []]
    ∧ ∀ m ∈ (Desk.after addedTwice meddledDesk).moments, m.desk.store.Orderly
  := by
  obtain ⟨hend, hmoments, -⟩ := orderly_throughout uses_addedTwice (d := meddledDesk) rfl rfl
  exact ⟨⟨by decide +kernel, hend⟩, by decide +kernel, hmoments⟩

end Store

end Montage
