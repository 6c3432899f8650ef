import Montage.Proofs.Desk.Range
import Montage.Proofs.Desk.Request
import Montage.Proofs.Desk.StoreCall

/-!
# Mirrors

A mirror is a listener that was subscribed before all others and keeps a copy of the segments
by following the events it is told of, one by one.  Other listeners may fail at any event and
so break off an operation that makes several changes.  The mirror has learnt of every change
by then: `mirror_reflects`.
-/

namespace Montage

open Desk
open Store (Change)

variable {ε : Type}

/-- Surroundings with a copy of the segments. -/
structure Mirrored (ε : Type) where
  copy : List Segment := []
  rest : ε

/-- A desk whose mirror has followed an event. -/
def Desk.learnt (event : Event) (d : Desk (Mirrored ε)) : Desk (Mirrored ε) :=
  { d with surroundings := ⟨event.follow d.surroundings.copy, d.surroundings.rest⟩ }

/-- Surroundings among which a listener is a mirror. -/
def Surroundings.mirrored (m : Nat) (host : Surroundings (Mirrored ε)) :
    Surroundings (Mirrored ε) :=
  { host with
    log line e := ⟨e.copy, (host.log line e).rest⟩
    onEvent listener event :=
      if listener = m then modify (learnt event) else host.onEvent listener event }

section

variable {m : Nat} {host : Surroundings (Mirrored ε)} {event : Event}

theorem Surroundings.onEvent_mirrored :
  (host.mirrored m).onEvent m event = modify (learnt event)
  := if_pos rfl

theorem Surroundings.onEvent_mirrored_of_ne {listener : Nat} (h : listener ≠ m) :
  (host.mirrored m).onEvent listener event = host.onEvent listener event
  := if_neg h

end

/-- A listener that was subscribed before all others, and only once. -/
def Leads (m : Nat) (listeners : List Nat) : Prop :=
  ∃ rest, listeners = m :: rest ∧ m ∉ rest

/-- A desk on which the list of segments, the copy and the phase have been left alone, and the
mirror too. -/
structure Spares (m : Nat) (d d' : Desk (Mirrored ε)) : Prop where
  held : d'.store.held = d.store.held
  nextId : d'.store.nextId = d.store.nextId
  nextTag : d.store.nextTag ≤ d'.store.nextTag
  copy : d'.surroundings.copy = d.surroundings.copy
  phase : d'.phase = d.phase
  leads : Leads m d.listeners → Leads m d'.listeners

/-- An operation that spares the list of segments, the copy and the mirror at desks of a given
phase. -/
def Considerate {α : Type} (m : Nat) (phase : Phase) (x : Run (Mirrored ε) α) : Prop :=
  ∀ d, d.phase = phase → Leads m d.listeners →
    Meets x d (fun _ => Spares m d) (fun _ => Spares m d)

/-- Surroundings that spare a mirror at desks of a given phase, whether they fail or not.  Those
who follow evaluations are called in the phase `parsing` only. -/
structure Surroundings.Considerate (host : Surroundings (Mirrored ε)) (m : Nat)
    (phase : Phase) : Prop where
  onEvent : ∀ listener ≠ m, ∀ event, Montage.Considerate m phase (host.onEvent listener event)
  lookup : ∀ path, Montage.Considerate m phase (host.lookup path)
  onPass : phase = .parsing → ∀ listener pass,
    Montage.Considerate m phase (host.onPass listener pass)
  onError : phase = .parsing → ∀ listener message,
    Montage.Considerate m phase (host.onError listener message)

/-- A desk whose mirror has a copy of the segments. -/
structure Reflects (m : Nat) (phase : Phase) (d : Desk (Mirrored ε)) : Prop where
  regular : d.store.Regular
  copy : d.surroundings.copy.Perm d.store.segments
  leads : Leads m d.listeners
  phase : d.phase = phase

section

variable {m : Nat} {phase : Phase} {d d' d'' : Desk (Mirrored ε)}

namespace Spares

theorem refl (d : Desk (Mirrored ε)) :
  Spares m d d
  := ⟨rfl, rfl, Nat.le_refl _, rfl, rfl, id⟩

theorem trans (h : Spares m d d') (h' : Spares m d' d'') :
  Spares m d d''
  := ⟨h'.held.trans h.held, h'.nextId.trans h.nextId, Nat.le_trans h.nextTag h'.nextTag,
    h'.copy.trans h.copy, h'.phase.trans h.phase, fun hd => h'.leads (h.leads hd)⟩

theorem reflects (h : Spares m d d') (hd : Reflects m phase d) :
  Reflects m phase d'
  := by
  constructor
  · apply hd.regular.sublist _ h.nextId h.nextTag
    rw [h.held]
  · rw [h.copy, Store.segments, h.held]
    apply hd.copy
  · apply h.leads hd.leads
  · apply h.phase.trans hd.phase

end Spares

/-- An operation that spares the mirror keeps what it reflects. -/
theorem Considerate.keeps {α : Type} {x : Run (Mirrored ε) α} (h : Considerate m phase x) :
  Keeps (Reflects m phase) x
  := by
  intro d hd
  apply (h d hd.phase hd.leads).mono
  · intro _ d' h'
    apply h'.reflects hd
  · intro _ d' h'
    apply h'.reflects hd

namespace Reflects

/-- The store with tags given out. -/
theorem retagged (h : Reflects m phase d) {n : Nat} (hn : d.store.nextTag ≤ n) :
  Reflects m phase { d with store := { d.store with nextTag := n } }
  := ⟨h.regular.retagged hn, h.copy, h.leads, h.phase⟩

variable {host : Surroundings (Mirrored ε)} (hhost : host.Considerate m phase)

include hhost

/-- Those who come after the mirror spare it. -/
theorem considerate_tell (kind : EventKind) (tag : Option Nat) {listeners : List Nat}
    (hm : m ∉ listeners) :
  Considerate m phase (Desk.tell (host.mirrored m) kind tag listeners)
  := by
  induction listeners with
  | nil =>
      intro d _ _
      rw [Desk.tell, meets_pure]
      apply Spares.refl
  | cons listener rest ih =>
      obtain ⟨hlistener, hrest⟩ : m ≠ listener ∧ m ∉ rest := by simpa using hm
      intro d hphase hleads
      rw [Desk.tell, meets_bind, meets_get, Surroundings.onEvent_mirrored_of_ne (Ne.symm hlistener)]
      apply Meets.bind_trans (fun h h' => h.trans h') (fun h h' => h.trans h')
        (hhost.onEvent listener (Ne.symm hlistener) _ d hphase hleads)
      intro _ d' h'
      apply ih hrest d' (h'.phase.trans hphase) (h'.leads hleads)

/-- The mirror learns of a change before anyone else. -/
theorem meets_announce {kind : EventKind} {tag : Option Nat} (hleads : Leads m d.listeners)
    (h : Reflects m phase (d.learnt ⟨kind, tag.bind d.store.current?⟩)) :
  Meets (announce (host.mirrored m) kind tag) d
    (fun _ d' => Reflects m phase d' ∧ d'.store.held = d.store.held)
    (fun _ d' => Reflects m phase d' ∧ d'.store.held = d.store.held)
  := by
  obtain ⟨rest, hlisteners, hrest⟩ := hleads
  rw [Desk.announce, meets_bind, meets_get, hlisteners, Desk.tell, meets_bind, meets_get,
    meets_bind, Surroundings.onEvent_mirrored, meets_modify]
  -- The mirror never fails, so it has followed the event even if one of the others does.
  apply (considerate_tell hhost kind tag hrest _ h.phase h.leads).mono
  · intro _ d' h'
    exact ⟨h'.reflects h, h'.held⟩
  · intro _ d' h'
    exact ⟨h'.reflects h, h'.held⟩

/-- The copy is up to date once a change has been announced. -/
theorem announced (h : Reflects m phase d) {s : Store} {kind : EventKind} {tag : Option Nat}
    (hchange : Change d.store s kind tag) :
  Meets (announce (host.mirrored m) kind tag) { d with store := s }
    (fun _ d' => Reflects m phase d' ∧ d'.store.held = s.held)
    (fun _ d' => Reflects m phase d' ∧ d'.store.held = s.held)
  := by
  apply meets_announce hhost
  · apply h.leads
  · exact ⟨hchange.regular h.regular, hchange.follow h.regular h.copy, h.leads, h.phase⟩

theorem changed (h : Reflects m phase d) {s : Store} {kind : EventKind} {tag : Option Nat}
    (hchange : Change d.store s kind tag) :
  Meets (announce (host.mirrored m) kind tag) { d with store := s }
    (fun _ => Reflects m phase) (fun _ => Reflects m phase)
  := (h.announced hhost hchange).mono (fun _ _ h' => h'.1) fun _ _ h' => h'.1

omit hhost in
/-- Showing or hiding a record is one change of the store. -/
theorem change_presented {s : Store} (hs : s.Regular) {before after : List Held} {x : Held}
    (hsplit : s.held = before ++ x :: after) (visible : Bool) (state : PlayState) :
  Change s (s.presented x visible state) .updated (some x.tag)
  := by
  have hs' := hs.amend (Segment.keepsPlace_presented visible state) x.tag
  have hmem : x ∈ s.held := hsplit ▸ List.mem_append_right before List.mem_cons_self
  have hheld : (s.presented x visible state).held
      = Store.arrange (before ++ Store.changed (Segment.presented visible state) x :: after) := by
    rw [← hs.held_amend hsplit, hs'.arrange_held]
    rfl
  have hne : ∀ y ∈ before ++ after, y.tag ≠ x.tag := hs.tag_ne hsplit
  exact Change.updated (z := Store.changed (Segment.presented visible state) x) hsplit rfl
    (hs.numeric x hmem) hne (hs.tags_lt x hmem) hheld rfl (Nat.le_refl _)

/-- A record of the store is shown or hidden. -/
theorem present (h : Reflects m phase d) {x r : Held} (hx : x ∈ d.store.held)
    (htag : x.tag = r.tag) (visible : Bool) (state : PlayState) :
  Meets (do
      modifyStore (·.amend r.tag fun s => { s with visible := visible, state := state })
      put (host.mirrored m) { r with segment := ← refreshed r }) d
    (fun _ d' => Reflects m phase d'
      ∧ d'.store.held.map (·.tag) = d.store.held.map (·.tag))
    (fun _ d' => Reflects m phase d'
      ∧ d'.store.held.map (·.tag) = d.store.held.map (·.tag))
  := by
  obtain ⟨before, after, hsplit⟩ := List.append_of_mem hx
  have hs' := h.regular.amend (Segment.keepsPlace_presented visible state) x.tag
  have hheld := h.regular.held_amend hsplit (Segment.presented visible state)
  have htags : (d.store.presented x visible state).held.map (·.tag)
      = d.store.held.map (·.tag) := by
    change (d.store.amend x.tag (Segment.presented visible state)).held.map (·.tag) = _
    rw [hheld, hsplit]
    simp [Store.changed]
  have hannounced := h.announced hhost (change_presented h.regular hsplit visible state)
  rw [htags.symm]
  rw [meets_presenting h.regular hsplit htag, meets_put_of_replace (hs'.replace_self hheld)]
  apply hannounced.mono
  · rintro _ d' ⟨h', hheld'⟩
    exact ⟨h', congrArg _ hheld'⟩
  · rintro _ d' ⟨h', hheld'⟩
    exact ⟨h', congrArg _ hheld'⟩

/-- Records of the store are shown or hidden, one after the other. -/
theorem showAll (h : Reflects m phase d) (visible : Bool) (state : PlayState)
    (records : List Held) (hrecords : ∀ r ∈ records, r.tag ∈ d.store.held.map (·.tag)) :
  Meets (showAll (host.mirrored m) visible state records) d (fun _ => Reflects m phase)
    (fun _ => Reflects m phase)
  := by
  induction records generalizing d with
  | nil => exact (meets_pure _).mpr h
  | cons r rest ih =>
      obtain ⟨hr, hrest⟩ := List.forall_mem_cons.mp hrecords
      obtain ⟨x, hx, htag⟩ := List.mem_map.mp hr
      rw [showAll_cons, meets_bind]
      apply (h.present hhost hx htag visible state).mono
      · rintro _ d₁ ⟨h₁, htags⟩
        rw [meets_bind, meets_refreshed, meets_bind]
        apply (ih h₁ (htags ▸ hrest)).imp
        intro ids d₂ h₂
        exact (meets_pure _).mpr h₂
      · rintro _ d₁ ⟨h₁, -⟩
        apply h₁

/-- Among considerate surroundings the copy is always up to date. -/
theorem steady :
  Steady (host.mirrored m) (Reflects m phase)
  := by
  constructor
  · intro line
    apply keeps_modify
    intro d h
    exact ⟨h.regular, h.copy, h.leads, h.phase⟩
  · intro d h poll fingerprint last
    exact ⟨h.regular, h.copy, h.leads, h.phase⟩
  · intro path
    apply (hhost.lookup path).keeps
  · intro d h
    apply Meets.clear
    intro s hchange
    apply h.changed hhost hchange
  · intro clip hclip d h
    apply Meets.add h.regular hclip none fun _ _ _ => h
    intro record s hchange
    apply h.changed hhost hchange
  · intro id d h
    apply Meets.remove h.regular id h
    intro x s hchange
    apply h.changed hhost hchange
  · intro d h visible state start stop
    apply h.showAll hhost
    intro r hr
    apply List.mem_map_of_mem (List.mem_filter.mp hr).1

end Reflects

end

/-- What is done with a desk from outside. -/
inductive Operation (ε : Type) where
  | call (c : Store.Call)
  | execute (commands : List Command) (poll : Poll)
  | executeOne (command : Command)
  | request (r : Request)
  /-- Whatever does not concern the store. -/
  | other (x : Run (Mirrored ε) Unit)

namespace Operation

/-- The phase of the desk while an operation is under way. -/
def phase : Operation ε → Phase
  | request _ => .parsing
  | _ => .idle

/-- An operation that brings no bounds that are not numbers, and that does not concern the store
unless it is one of the desk's own. -/
def Fair (m : Nat) : Operation ε → Prop
  | call c => c.Numeric
  | other x => Considerate m .idle x
  | _ => True

/-- The desk that an operation leaves, whether it succeeds or fails. -/
def left (host : Surroundings (Mirrored ε)) (d : Desk (Mirrored ε)) :
    Operation ε → Desk (Mirrored ε)
  | call c => after (c.run host) d
  | execute commands poll => after (Desk.execute host commands poll) d
  | executeOne command => after (Desk.executeOne host command) d
  | request r => after (r.send host) d
  | other x => after x d

end Operation

variable {m : Nat} {d : Desk (Mirrored ε)}

/-- An operation leaves the copy up to date. -/
theorem Reflects.left {op : Operation ε} (hop : op.Fair m) {host : Surroundings (Mirrored ε)}
    (hhost : host.Considerate m op.phase) (h : Reflects m .idle d) :
  Reflects m .idle (op.left (host.mirrored m) d)
  := by
  have hsteady := steady hhost
  cases op with
  | call c =>
      have hcall : Meets (c.run (host.mirrored m)) d (fun _ => Reflects m .idle)
          (fun _ => Reflects m .idle) := by
        apply meets_run h.regular hop
        · intro n hn
          apply h.retagged hn
        · intro kind tag s hchange _
          apply h.changed hhost hchange
      apply hcall.after
  | execute commands poll => apply (hsteady.execute commands poll).after h
  | executeOne command => apply (hsteady.executeOne command).after h
  | request r =>
      have hsend : Meets (r.send (host.mirrored m)) d (fun _ => Reflects m .idle)
          (fun _ => Reflects m .idle) := by
        apply Request.meets_send hsteady
        · intro listener pass
          apply (hhost.onPass rfl listener pass).keeps
        · intro listener message
          apply (hhost.onError rfl listener message).keeps
        · simp [h.phase]
        · exact ⟨h.regular, h.copy, h.leads, rfl⟩
        · intro d' h'
          exact ⟨h'.regular, h'.copy, h'.leads, rfl⟩
      apply hsend.after
  | other x => apply (Considerate.keeps hop).after h

/-- The events of a store tell all there is to know.  A mirror of a store that was empty has the
segments of the store after any sequence of operations, whether they succeed or fail, up to
the order in which it has learnt of them. -/
theorem mirror_reflects {host : Surroundings (Mirrored ε)} {ops : List (Operation ε)}
    (hops : ∀ op ∈ ops, op.Fair m ∧ host.Considerate m op.phase)
    (hheld : d.store.held = []) (hcopy : d.surroundings.copy = [])
    (hleads : Leads m d.listeners) (hphase : d.phase = .idle) :
  Segment.arranged id (ops.foldl (Operation.left (host.mirrored m)) d).surroundings.copy
    = (ops.foldl (Operation.left (host.mirrored m)) d).store.segments
  := by
  have hstart : Reflects m .idle d := by
    refine ⟨Store.regular_of_empty hheld, ?_, hleads, hphase⟩
    rw [hcopy, Store.segments, hheld]
    rfl
  have hend : Reflects m .idle (ops.foldl (Operation.left (host.mirrored m)) d) := by
    clear hheld hcopy hleads hphase
    induction ops generalizing d with
    | nil => apply hstart
    | cons op rest ih =>
        obtain ⟨⟨hop, hhost⟩, hrest⟩ := List.forall_mem_cons.mp hops
        apply ih hrest (hstart.left hop hhost)
  have hregular := hend.regular
  apply Segment.arranged_eq hend.copy
  · intro x hx
    obtain ⟨y, hy, rfl⟩ := List.mem_map.mp hx
    apply hregular.numeric y hy
  · apply List.pairwise_map.mpr
    apply hregular.sorted

/-- A listener who fails when told of a removal, and one who submits another text when told of
an evaluation. -/
def alarmed : Surroundings (Mirrored Unit) :=
  { Surroundings.bystanders (Mirrored Unit) with
    onEvent _ event :=
      if event.kind = .removed then throw (.foreign "RuntimeError" .runtime "boom") else pure ()
    onPass _ _ := do
      let _ ← (Request.submit "LOAD b.mp4").send (.bystanders _)
      return }

theorem considerate_alarmed (m : Nat) (phase : Phase) :
  alarmed.Considerate m phase
  := by
  constructor
  · intro listener _ event d _ _
    unfold alarmed
    dsimp only
    split
    · exact (meets_throw _).mpr (Spares.refl d)
    · exact (meets_pure _).mpr (Spares.refl d)
  · intro path d _ _
    exact (meets_pure _).mpr (Spares.refl d)
  · intro hphase listener pass d hd _
    unfold alarmed
    dsimp only
    rw [meets_bind, Request.meets_send_parsing (hd.trans hphase), meets_pure]
    apply Spares.refl
  · intro _ listener message d _ _
    exact (meets_pure _).mpr (Spares.refl d)

/-- A file is loaded and hidden, the cut of it is broken off, and two clips are added and shown. -/
def alarmedOperations : List (Operation Unit) :=
  [.request (.submit "LOAD a.mp4\nCUT 00:00:00.000\nHIDE 00:00:01.000 00:00:02.000"),
    .call (.add { start := .ofInt 5, stop := .ofInt 10, path := "a.mp4" } (some 9)),
    .request (.insertCut (.ofInt 60)),
    .call (.add { start := .ofInt 1, stop := .ofInt 3, path := "a.mp4" } none),
    .executeOne ⟨.range .reveal (.ofInt 2) (.ofInt 4), 1⟩]

/-- An empty store with a mirror and the other listener. -/
def mirroredDesk : Desk (Mirrored Unit) :=
  { listeners := [0, 1], passListeners := [1], surroundings := { rest := () } }

theorem mirror_reflects_alarmed :
  (alarmedOperations.foldl (Operation.left (alarmed.mirrored 0)) mirroredDesk).store.segments.map
      (·.id) = [10, 9]
    ∧ Segment.arranged id
      (alarmedOperations.foldl (Operation.left (alarmed.mirrored 0)) mirroredDesk).surroundings.copy
      = (alarmedOperations.foldl (Operation.left (alarmed.mirrored 0)) mirroredDesk).store.segments
  := by
  have hfair : ∀ op ∈ alarmedOperations, op.Fair 0 := by
    have hfirst : Clip.Numeric { start := .ofInt 5, stop := .ofInt 10, path := "a.mp4" } := by
      decide +kernel
    have hsecond : Clip.Numeric { start := .ofInt 1, stop := .ofInt 3, path := "a.mp4" } := by
      decide +kernel
    simp only [alarmedOperations, List.forall_mem_cons]
    exact ⟨trivial, hfirst, trivial, hsecond, trivial, List.forall_mem_nil _⟩
  constructor
  · decide +kernel
  · apply mirror_reflects _ rfl rfl ⟨[1], rfl, by decide⟩ rfl
    intro op hop
    exact ⟨hfair op hop, considerate_alarmed 0 op.phase⟩

end Montage
