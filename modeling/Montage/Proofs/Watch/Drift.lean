import Montage.Proofs.Desk.Evaluate
import Montage.Proofs.Watch.Nudge

/-!
# The watch drifts while a text is evaluated

Lookups are the only moments of an evaluation at which something happens to the coalescer.
`Watch.manner` says what it may be: the document has changed as often as texts were pushed,
and if in the end no text is pending and none was let through meanwhile, then none was pushed.
-/

namespace Montage

variable {σ : Type}

namespace Watch

/-- The coalescer is as it should be, and each text pushed was noted as a change of the
document. -/
def Counted (p : Nat × Watch σ) : Prop :=
  p.2.Orderly ∧ p.1 = p.2.pushed.length

/-- What becomes of a watch on which things happen that are not the worker's. -/
structure Drifts (p q : Nat × Watch σ) : Prop where
  le : p.1 ≤ q.1
  counted : Counted p → Counted q
  taken : Counted p → q.2.taken = p.2.taken
  evaluated : Counted p → q.2.evaluated = p.2.evaluated
  released : Counted p → p.2.released <+: q.2.released
  /-- Unless a text is pending or was let through nothing was pushed. -/
  quiet : Counted p → q.2.coalescer.pending = none → q.2.released = p.2.released →
    p.2.coalescer.pending = none ∧ q.2.pushed = p.2.pushed

variable {p q r : Nat × Watch σ}

theorem Drifts.refl (p : Nat × Watch σ) :
  Drifts p p
  := ⟨Nat.le_refl _, id, fun _ => rfl, fun _ => rfl, fun _ => List.prefix_refl _,
    fun _ hnone _ => ⟨hnone, rfl⟩⟩

theorem Drifts.trans (h : Drifts p q) (h' : Drifts q r) :
  Drifts p r
  := by
  refine ⟨Nat.le_trans h.le h'.le, fun hp => h'.counted (h.counted hp), ?_, ?_, ?_, ?_⟩
  · intro hp
    rw [h'.taken (h.counted hp), h.taken hp]
  · intro hp
    rw [h'.evaluated (h.counted hp), h.evaluated hp]
  · intro hp
    apply (h.released hp).trans (h'.released (h.counted hp))
  · intro hp hnone hsame
    have hmiddle := released_between (h.released hp) (h'.released (h.counted hp)) hsame
    obtain ⟨hnone', hpushed'⟩ := h'.quiet (h.counted hp) hnone (hsame.trans hmiddle.symm)
    obtain ⟨hnone'', hpushed⟩ := h.quiet hp hnone' hmiddle
    exact ⟨hnone'', hpushed'.trans hpushed⟩

/-- If in the end no text is pending, and none was let through meanwhile, then the document
has not changed. -/
theorem Drifts.undisturbed (h : Drifts p q) (hp : Counted p)
    (hpending : q.2.coalescer.pending = none)
    (hlength : q.2.released.length ≤ p.2.released.length) :
  q.2.released = p.2.released ∧ p.2.coalescer.pending = none ∧ q.2.pushed = p.2.pushed
    ∧ q.1 = p.1
  := by
  have hsame : p.2.released = q.2.released := (h.released hp).eq_of_length_le hlength
  obtain ⟨hnone, hpushed⟩ := h.quiet hp hpending hsame.symm
  refine ⟨hsame.symm, hnone, hpushed, ?_⟩
  calc q.1 = q.2.pushed.length := (h.counted hp).2
    _ = p.2.pushed.length := congrArg List.length hpushed
    _ = p.1 := hp.2.symm

/-- The worker's plans and those who follow the desk play no part. -/
theorem drifts_of_plan (revision : Nat) (w : Watch σ) (plan : List (List Nudge)) (own : σ) :
  Drifts (revision, w) (revision, { w with plan := plan, own := own })
  := ⟨Nat.le_refl _, id, fun _ => rfl, fun _ => rfl, fun _ => List.prefix_refl _,
    fun _ hnone _ => ⟨hnone, rfl⟩⟩

/-- What the coalescer does by itself is no change of the document. -/
theorem drifts_of_ticks {revision : Nat} {w w' : Watch σ} (h : w.Orderly → w.Ticks w') :
  Drifts (revision, w) (revision, w')
  := by
  refine ⟨Nat.le_refl _, ?_, ?_, ?_, ?_, ?_⟩
  · rintro ⟨horderly, hcount⟩
    refine ⟨((h horderly).orderly horderly).1, ?_⟩
    rw [(h horderly).rest]
    apply hcount
  · rintro ⟨horderly, -⟩
    rw [(h horderly).rest]
  · rintro ⟨horderly, -⟩
    rw [(h horderly).rest]
  · rintro ⟨horderly, -⟩
    apply ((h horderly).orderly horderly).2.1
  · rintro ⟨horderly, -⟩ hnone hsame
    obtain ⟨-, -, hpending⟩ := (h horderly).orderly horderly
    refine ⟨(hpending hsame).symm.trans hnone, ?_⟩
    rw [(h horderly).rest]

/-- A text is pushed, and the change of the document is noted. -/
theorem drifts_push {revision : Nat} {w : Watch σ} {c : Coalescer} {text : String}
    (hpush : w.coalescer.push text = .ok c) :
  Drifts (revision, w) (revision + 1, { w with coalescer := c, pushed := w.pushed ++ [text] })
  := by
  have hpushed : w.Orderly → c.Orderly (w.pushed ++ [text]) w.released
      ∧ c.pending = some text := by
    intro horderly
    obtain ⟨c', hpush', hkept, hpending⟩ := Coalescer.Orderly.push horderly text
    obtain rfl := Except.ok.inj (hpush.symm.trans hpush')
    exact ⟨hkept, hpending⟩
  refine ⟨Nat.le_succ _, ?_, fun _ => rfl, fun _ => rfl, fun _ => List.prefix_refl _, ?_⟩
  · rintro ⟨horderly, hcount⟩
    refine ⟨(hpushed horderly).1, ?_⟩
    dsimp only at hcount ⊢
    rw [hcount, List.length_append, List.length_singleton]
  · rintro ⟨horderly, -⟩ hnone -
    cases (hpushed horderly).2.symm.trans hnone

end Watch

/-! ### What happens to the coalescer -/

namespace Nudge

variable {d : Desk (Watch σ)} {E : Fault → Desk (Watch σ) → Prop}

/-- A desk on which nothing has changed but the count of changes and the watch, which
drifted. -/
def Drifted (d d' : Desk (Watch σ)) : Prop :=
  d' = { d with revision := d'.revision, surroundings := d'.surroundings }
    ∧ Watch.Drifts d.around d'.around

theorem Drifted.refl (d : Desk (Watch σ)) :
  Drifted d d
  := ⟨rfl, Watch.Drifts.refl _⟩

theorem Drifted.trans {d d' d'' : Desk (Watch σ)} (h : Drifted d d') (h' : Drifted d' d'') :
  Drifted d d''
  := by
  refine ⟨?_, h.2.trans h'.2⟩
  rw [h'.1, h.1]

theorem meets_perform (n : Nudge) :
  Desk.Meets n.perform d (fun _ => Drifted d) E
  := by
  cases n with
  | push text =>
      rw [perform, Desk.meets_bind, Watch.meets_read]
      split
      · rename_i c hpush
        rw [Desk.meets_bind, Watch.meets_change, Desk.noteChange, Desk.meets_modify]
        exact ⟨rfl, Watch.drifts_push hpush⟩
      · rw [Desk.meets_pure]
        apply Drifted.refl
  | advance ms =>
      rw [perform, Desk.meets_bind, Watch.meets_read]
      apply (Watch.meets_advance ms).imp
      rintro _ d' ⟨w, rfl, hticks⟩
      exact ⟨rfl, Watch.drifts_of_ticks fun h => (hticks h).1⟩
  | expire number =>
      rw [perform]
      apply (Watch.meets_expire number).imp
      rintro _ d' ⟨w, rfl, hticks⟩
      exact ⟨rfl, Watch.drifts_of_ticks fun _ => hticks⟩

theorem meets_performAll (nudges : List Nudge) :
  Desk.Meets (performAll nudges) d (fun _ => Drifted d) E
  := by
  induction nudges generalizing d with
  | nil =>
      rw [performAll, Desk.meets_pure]
      apply Drifted.refl
  | cons n rest ih =>
      rw [performAll]
      apply Desk.Meets.bind_trans Drifted.trans (fun _ h' => h') (meets_perform n)
      intro _ d₁ _
      apply ih

end Nudge

/-! ### What happens during an evaluation -/

namespace Watch

/-- A watch drifts while a text is evaluated, and if nothing was planned then nothing happens
to it. -/
def manner (σ : Type) : Manner (Watch σ) where
  Rel p q := Drifts p q
    ∧ (p.2.plan = [] → q.1 = p.1 ∧ q.2 = { p.2 with own := q.2.own })
  refl p := ⟨Drifts.refl p, fun _ => ⟨rfl, rfl⟩⟩
  trans := by
    rintro p q r ⟨h, hcalm⟩ ⟨h', hcalm'⟩
    refine ⟨h.trans h', ?_⟩
    intro hplan
    obtain ⟨hrevision, hrest⟩ := hcalm hplan
    obtain ⟨hrevision', hrest'⟩ := hcalm' (by rw [hrest, hplan])
    refine ⟨hrevision'.trans hrevision, ?_⟩
    rw [hrest', hrest]
  le h := h.1.le

variable {a : Audience σ} {media : String → Except Fault Double} {d : Desk (Watch σ)}

/-- Who stands aside passes the desk by, and raises nothing. -/
theorem Aloof.passes {α : Type} {x : Run (Watch σ) α} (h : Aloof x)
    {E : Fault → Desk (Watch σ) → Prop} :
  Desk.Meets x d (fun _ => (manner σ).Passes d) E
  := by
  apply (h d).mono
  · intro _ d' hd'
    refine ⟨?_, ?_, ?_⟩
    · rw [hd']
    · rw [hd']
      apply drifts_of_plan
    · intro _
      rw [hd']
      exact ⟨rfl, rfl⟩
  · intro f d' hfalse
    apply hfalse.elim

/-- What is planned for a lookup passes the desk by. -/
theorem passes_disturb {E : Fault → Desk (Watch σ) → Prop} :
  Desk.Meets disturb d (fun _ => (manner σ).Passes d) E
  := by
  rw [disturb, Desk.meets_bind, Desk.meets_get]
  split
  · rw [Desk.meets_pure]
    apply Manner.Passes.refl
  · rename_i now rest hplan
    rw [Desk.meets_bind, meets_change]
    apply (Nudge.meets_performAll now).imp
    rintro _ d' ⟨hrest, hdrifts⟩
    refine ⟨?_, (drifts_of_plan _ _ _ _).trans hdrifts, ?_⟩
    · rw [hrest]
    · intro hnone
      rw [Desk.around, hplan] at hnone
      cases hnone

theorem passes_hook (path : String) {E : Fault → Desk (Watch σ) → Prop} :
  Desk.Meets (hook a path) d (fun _ => (manner σ).Passes d) E
  := by
  rw [hook]
  apply Desk.Meets.bind_trans Manner.Passes.trans (fun _ h' => h')
    (a.aloof_onLookup path).passes
  intro _ d' _
  apply passes_disturb

/-- Looking up a file brings what the table says. -/
theorem lookup_cases (d : Desk (Watch σ)) (path : String) :
  (Desk.lookupAt (surroundings a media) d path).answer = media path
    ∧ Desk.Meets ((surroundings a media).lookup path) d (fun _ => (manner σ).Passes d)
      (fun _ => (manner σ).Passes d)
  := Desk.lookup_of_hook (passes_hook path) rfl

/-- Those around a desk whose text is watched keep to the manner, and raise nothing. -/
theorem binds_surroundings :
  (manner σ).Binds (fun _ => False) (fun _ => False) (fun _ h => h) media (surroundings a media)
  := by
  constructor
  · constructor
    · intro d _ line
      exact ⟨rfl, drifts_of_plan _ _ _ _, fun _ => ⟨rfl, rfl⟩⟩
    · intro d _ listener event
      apply (a.aloof_onEvent listener event).passes
    · intro d _ path
      apply (lookup_cases d path).2
  · intro d _ path
    apply (lookup_cases d path).1
  · intro d _ listener pass
    apply (a.aloof_onPass listener pass).passes
  · intro d _ listener message
    apply (a.aloof_onError listener message).passes

end Watch

end Montage
