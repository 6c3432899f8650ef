import Montage.Proofs.Desk.Loading
import Montage.Proofs.Desk.Traceless
import Montage.Proofs.Timeline.CarryOut

/-!
# A load erases history

Where every file is what a table says, what a batch shows in the end depends on the timeline it
starts from and on nothing else of the desk, as long as none of its loads is given up.  A load
that succeeds leaves nothing of this timeline, so from there on the batch comes to the same from
every desk: `Desk.load_erases_history`.
-/

namespace Montage

variable {ε α : Type}

/-! ### Loads that are given up -/

/-- Whether a load is given up: a duration has been found for which it would succeed, and then
the batch was overtaken. -/
def Lookup.givesUp (path : String) (l : Lookup) : Bool :=
  match l.answer with
  | .ok duration =>
    !Text.isBlankText path && !(!duration.isFinite || duration ≤ .zero) && l.overtaken
  | .error _ => false

theorem Lookup.Overtaken.givesUp {path : String} {l : Lookup} (h : l.Overtaken path) :
  l.givesUp path = true
  := by
  obtain ⟨duration, hanswer, hduration⟩ := h.found
  simp only [Lookup.givesUp, hanswer, h.named, hduration, h.overtaken]
  rfl

/-- Whether a deed is a load that was given up. -/
def Deed.givenUp (host : Surroundings ε) (x : Deed ε) : Bool :=
  match x.command.edit with
  | .load path => (Desk.lookupAt host x.before path).givesUp path
  | _ => false

/-- Deeds none of which was given up. -/
def Deed.Uncancelled (host : Surroundings ε) (xs : List (Deed ε)) : Prop :=
  ∀ x ∈ xs, x.givenUp host = false

instance (host : Surroundings ε) (xs : List (Deed ε)) : Decidable (Deed.Uncancelled host xs) :=
  inferInstanceAs (Decidable (∀ x ∈ xs, x.givenUp host = false))

/-- Whether a deed is a load that succeeded. -/
def Deed.loaded (host : Surroundings ε) (x : Deed ε) : Bool :=
  match x.command.edit with
  | .load _ => (x.affected? host).isSome
  | _ => false

/-- The deed of a given index is a load that succeeded. -/
def Deed.LoadsAt (host : Surroundings ε) (xs : List (Deed ε)) (i : Nat) : Prop :=
  ∃ x, xs[i]? = some x ∧ x.loaded host = true

instance (host : Surroundings ε) (xs : List (Deed ε)) (i : Nat) :
    Decidable (Deed.LoadsAt host xs i) :=
  decidable_of_iff (xs[i]?.any (·.loaded host) = true) (Option.any_eq_true _ _)

namespace Desk

/-! ### What an operation shows in the end -/

/-- The timeline that an operation leaves, and its value or its fault. -/
def ending (x : Run ε α) (d : Desk ε) : Timeline × Except Fault α :=
  match x d with
  | .ok a d' => (d'.store.timeline, .ok a)
  | .error f d' => (d'.store.timeline, .error f)

variable {host : Surroundings ε} {d d₁ : Desk ε} {c : Command} {rest cs : List Command}

theorem ending_eq_iff {x : Run ε α} {p : Timeline × Except Fault α} :
  ending x d = p
    ↔ Meets x d (fun a d' => (d'.store.timeline, .ok a) = p)
      (fun f d' => (d'.store.timeline, .error f) = p)
  := by
  unfold ending
  cases hx : x d with
  | ok a d' => rw [meets_of_ok hx]
  | error f d' => rw [meets_of_error hx]

/-- The poll of a batch does not show in the end. -/
theorem ending_execute (poll : Poll) :
  ending (execute host cs poll) d = ending (executeAll host cs) { d with poll := poll }
  := by
  rw [ending_eq_iff, execute, meets_bind, setPoll, meets_modify, setPoll, meets_finally]
  apply ending_eq_iff.mp rfl

theorem ending_cons_ok {r : Result} (hx : executeOne host c d = .ok r d₁) :
  ending (executeAll host (c :: rest)) d
    = if r.isCancelled then (d₁.store.timeline, .ok ⟨[r], true⟩)
      else r.before (ending (executeAll host rest) d₁)
  := by
  rw [ending_eq_iff, executeAll, meets_bind, meets_of_ok hx]
  split
  · rw [meets_pure]
  · rw [meets_bind]
    have hrest : Meets (executeAll host rest) d₁ _ _ := ending_eq_iff.mp rfl
    apply hrest.mono
    · intro report d' h
      rw [meets_pure, ← h]
      rfl
    · intro f d' h
      rw [← h]
      rfl

theorem ending_cons_error {f : Fault} (hx : executeOne host c d = .error f d₁) :
  ending (executeAll host (c :: rest)) d = (d₁.store.timeline, .error f)
  := by
  rw [ending_eq_iff, executeAll, meets_bind, meets_of_error hx]

/-! ### Batches none of whose loads is given up -/

theorem uncancelled_cons (h : Deed.Uncancelled host (deeds host (c :: rest) d)) :
  Deed.givenUp host ⟨c, d⟩ = false
    ∧ ∀ r d₁, executeOne host c d = .ok r d₁ → r.isCancelled = false →
      Deed.Uncancelled host (deeds host rest d₁)
  := by
  rw [deeds] at h
  obtain ⟨hfirst, hrest⟩ := List.forall_mem_cons.mp h
  refine ⟨hfirst, ?_⟩
  intro r d₁ hx hr
  rw [hx] at hrest
  simp only [hr, Bool.false_eq_true, if_false] at hrest
  apply hrest

variable (hC : (Conduct.quiet ε).Binds host) {media : String → Except Fault Double}
  (hanswers : ∀ d path, (lookupAt host d path).answer = media path)

include hanswers

/-- The lookup of a load that is not given up comes to what it does undisturbed. -/
theorem playable_of_givenUp (h : Deed.givenUp host ⟨c, d⟩ = false) {path : String}
    (hload : c.edit = .load path) :
  (lookupAt host d path).playable path = (Lookup.undisturbed media path).playable path
  := by
  apply (Lookup.playable_cases (hanswers d path)).resolve_left
  intro hover
  rw [Deed.givenUp, hload] at h
  cases hover.givesUp.symm.trans h

include hC

/-- What a batch shows in the end depends on the timeline alone. -/
theorem ending_executeAll (hs : d.store.Sound)
    (h : Deed.Uncancelled host (deeds host cs d)) :
  ending (executeAll host cs) d = d.store.timeline.carryOut media cs
  := by
  induction cs generalizing d with
  | nil => rfl
  | cons c rest ih =>
      obtain ⟨hfirst, hrest⟩ := uncancelled_cons h
      have hone := meets_executeOne hC trivial hs c
      rw [(Timeline.execute_congr_look (fun path hload =>
        playable_of_givenUp hanswers hfirst hload) d.store.timeline).1] at hone
      rw [Timeline.carryOut]
      cases hx : executeOne host c d with
      | ok r d₁ =>
          obtain ⟨t, hexecute, hreaches⟩ := (meets_of_ok hx).mp hone
          obtain rfl := hreaches.timeline
          rw [ending_cons_ok hx, hexecute]
          dsimp only
          split
          · rfl
          · rename_i hr
            rw [ih hreaches.sound (hrest r d₁ hx (by simpa using hr))]
      | error f d₁ =>
          rcases (meets_of_error hx).mp hone with ⟨hraises, -⟩ | ⟨hexecute, hreaches⟩
          · apply hraises.elim
          · rw [ending_cons_error hx, hexecute, hreaches.timeline]

/-! ### Batches that start with a load -/

omit hanswers in
/-- A load that succeeds makes a sound store of any. -/
theorem executeOne_of_playable {path : String} {duration : Double}
    (h : (lookupAt host d path).playable path = .ok duration) (line : Int) :
  ∃ d₁, executeOne host ⟨.load path, line⟩ d = .ok ⟨⟨.load path, line⟩, .ok [1]⟩ d₁
    ∧ d₁.store.Sound ∧ d₁.store.timeline = .whole path duration
  := by
  have hload := meets_load_anew hC.unheard trivial path (d := d)
  cases hx : load host path d with
  | ok ids d₁ =>
      obtain ⟨duration', hplayable, rfl, hattains⟩ := (meets_of_ok hx).mp hload
      obtain rfl := Except.ok.inj (h.symm.trans hplayable)
      refine ⟨d₁, Meets.eq_ok ?_, hattains.sound, hattains.timeline⟩
      have hedit : applyEdit host (.load path) d = .ok [1] d₁ := hx
      rw [executeOne, meets_tryCatch, meets_bind, meets_of_ok hedit, meets_pure]
      exact ⟨rfl, rfl⟩
  | error f d₁ =>
      rcases (meets_of_error hx).mp hload with ⟨hraises, -⟩ | ⟨hplayable, -⟩
      · apply hraises.elim
      · cases h.symm.trans hplayable

omit hanswers in
/-- The file of a load that succeeds can be played. -/
theorem playable_of_loaded (h : Deed.loaded host ⟨c, d⟩ = true) :
  ∃ path duration, c.edit = .load path ∧ (lookupAt host d path).playable path = .ok duration
  := by
  obtain ⟨e, line⟩ := c
  cases e with
  | cut time => cases h
  | range verb start stop => cases h
  | load path =>
      have hsettled := meets_executeOne_settled hC path line d
      change (Deed.affected? host ⟨⟨.load path, line⟩, d⟩).isSome = true at h
      rw [Deed.affected?] at h
      dsimp only at h
      cases hx : executeOne host ⟨.load path, line⟩ d with
      | error f d' =>
          rw [hx] at h
          cases h
      | ok r d' =>
          rw [hx] at h
          obtain ⟨hreported, -⟩ := (meets_of_ok hx).mp hsettled
          cases hplayable : (lookupAt host d path).playable path with
          | ok duration => exact ⟨path, duration, rfl, hplayable⟩
          | error f =>
              rw [hplayable] at hreported
              obtain ⟨cause, rfl⟩ := Command.of_reported_error hreported
              cases h

variable {path : String} {duration : Double}

/-- A batch that starts with a load that is not given up, of a file that can be played, shows
the same from every desk. -/
theorem ending_loading (hload : c.edit = .load path)
    (hplayable : (Lookup.undisturbed media path).playable path = .ok duration)
    (h : Deed.Uncancelled host (deeds host (c :: rest) d)) (t : Timeline) :
  ending (executeAll host (c :: rest)) d = t.carryOut media (c :: rest)
  := by
  obtain ⟨e, line⟩ := c
  obtain rfl : e = .load path := hload
  obtain ⟨hfirst, hrest⟩ := uncancelled_cons h
  have hlook : (lookupAt host d path).playable path = .ok duration :=
    (playable_of_givenUp hanswers hfirst rfl).trans hplayable
  obtain ⟨d₁, hx, hs₁, htimeline⟩ := executeOne_of_playable hC hlook line
  have hnot : Result.isCancelled ⟨⟨.load path, line⟩, .ok [1]⟩ = false := rfl
  rw [ending_cons_ok hx, hnot, Timeline.carryOut_loading rfl hplayable, ← htimeline,
    ← ending_executeAll hC hanswers hs₁ (hrest _ d₁ hx hnot)]
  rfl

/-- From a load that succeeds on, what a batch makes of the timeline is what the rest of it
makes of any. -/
theorem exists_of_loadsAt {i : Nat} (hload : Deed.LoadsAt host (deeds host cs d) i)
    (h : Deed.Uncancelled host (deeds host cs d)) :
  ∃ c rest path duration, cs.drop i = c :: rest ∧ c.edit = .load path
    ∧ (Lookup.undisturbed media path).playable path = .ok duration
    ∧ ∀ t : Timeline, (ending (executeAll host cs) d).1 = (t.carryOut media (cs.drop i)).1
  := by
  induction i generalizing cs d with
  | zero =>
      obtain ⟨x, hx, hloaded⟩ := hload
      cases cs with
      | nil => cases hx
      | cons c rest =>
          obtain rfl := Option.some.inj hx
          obtain ⟨path, duration, hpath, hlook⟩ := playable_of_loaded hC hloaded
          have hplayable : (Lookup.undisturbed media path).playable path = .ok duration :=
            (playable_of_givenUp hanswers (uncancelled_cons h).1 hpath).symm.trans hlook
          refine ⟨c, rest, path, duration, rfl, hpath, hplayable, ?_⟩
          intro t
          rw [ending_loading hC hanswers hpath hplayable h t, List.drop_zero]
  | succ i ih =>
      cases cs with
      | nil =>
          obtain ⟨x, hx, -⟩ := hload
          cases hx
      | cons c rest =>
          obtain ⟨hfirst, hrest⟩ := uncancelled_cons h
          obtain ⟨x, hx, hloaded⟩ := hload
          rw [deeds, List.getElem?_cons_succ] at hx
          cases hc : executeOne host c d with
          | error f d₁ =>
              rw [hc] at hx
              cases hx
          | ok r d₁ =>
              rw [hc] at hx
              dsimp only at hx
              split at hx
              · cases hx
              · rename_i hr
                have hrest₁ := hrest r d₁ hc (by simpa using hr)
                rw [ending_cons_ok hc, if_neg hr]
                apply ih ⟨x, hx, hloaded⟩ hrest₁

/-- A load erases history.  A batch that starts with a load that succeeds shows the same in the
end, segments, next id and report, from every desk; and what comes before any load that
succeeds can be dropped from a batch without a change of the timeline that it leads to.  The
first batch has a report, unless the number of a line is too long to be written. -/
theorem load_erases_history (hreporting : Lookup.Reporting media)
    (hcs : ∀ c ∈ cs, c.edit.Expressible) (poll : Poll)
    (h : Deed.Uncancelled host ((Call.batch cs poll).deeds host d)) :
  (Deed.LoadsAt host ((Call.batch cs poll).deeds host d) 0 →
      (∀ d' poll', Deed.Uncancelled host ((Call.batch cs poll').deeds host d') →
        ending (execute host cs poll') d' = ending (execute host cs poll) d)
      ∧ ((∃ report, (ending (execute host cs poll) d).2 = .ok report)
        ∨ (∃ c ∈ cs, Text.isWritable c.line = false)
          ∧ (ending (execute host cs poll) d).2 = .error .tooLongToWrite))
    ∧ ∀ i, Deed.LoadsAt host ((Call.batch cs poll).deeds host d) i → ∀ d' poll',
      Deed.Uncancelled host ((Call.batch (cs.drop i) poll').deeds host d') →
      (ending (execute host (cs.drop i) poll') d').1 = (ending (execute host cs poll) d).1
  := by
  simp only [ending_execute]
  constructor
  · intro hload
    obtain ⟨c, rest, path, duration, hdrop, hpath, hplayable, -⟩ :=
      exists_of_loadsAt hC hanswers hload h
    rw [List.drop_zero] at hdrop
    subst hdrop
    have hending : ∀ d' : Desk ε, Deed.Uncancelled host (deeds host (c :: rest) d') →
        ending (executeAll host (c :: rest)) d' = Timeline.carryOut media {} (c :: rest) :=
      fun d' h' => ending_loading hC hanswers hpath hplayable h' {}
    constructor
    · intro d' poll' h'
      rw [hending _ h', hending _ h]
    · rw [hending _ h]
      apply Timeline.carryOut_expressible hreporting hcs
  · intro i hload d' poll' h'
    obtain ⟨c, rest, path, duration, hdrop, hpath, hplayable, hsame⟩ :=
      exists_of_loadsAt hC hanswers hload h
    rw [hsame {}]
    rw [hdrop] at h' ⊢
    rw [ending_loading hC hanswers hpath hplayable h' {}]

omit hC hanswers

/-- A desk with nothing loaded. -/
def nothingLoaded : Desk (List Event) :=
  onRecord oneReadable []

/-- A batch that starts with a load and loads twice more, once in vain. -/
def reloads : List Command :=
  [⟨.load "a.mp4", 1⟩, ⟨.cut (.ofInt 5), 2⟩, ⟨.load "b.mp4", 3⟩, ⟨.load "a.mp4", 4⟩,
    ⟨.cut (.ofInt 5), 5⟩, ⟨.range .delete .zero (.ofInt 1), 6⟩]

theorem load_erases_history_reloads :
  (Conduct.quiet _).Binds (.recording oneReadable)
    ∧ (∀ d path, (lookupAt (.recording oneReadable) d path).answer = oneReadable path)
    ∧ Lookup.Reporting oneReadable ∧ (∀ c ∈ reloads, c.edit.Expressible)
    ∧ Deed.Uncancelled (.recording oneReadable)
      ((Call.batch reloads .never).deeds (.recording oneReadable) patchy)
    ∧ patchy.store.timeline ≠ nothingLoaded.store.timeline
    ∧ ending (execute (.recording oneReadable) reloads (.answers [false])) nothingLoaded
      = ending (execute (.recording oneReadable) reloads .never) patchy
    ∧ (∃ report, (ending (execute (.recording oneReadable) reloads .never) patchy).2 = .ok report)
    ∧ (ending (execute (.recording oneReadable) (reloads.drop 3) .never) nothingLoaded).1
      = (ending (execute (.recording oneReadable) reloads .never) patchy).1
  := by
  have hanswers : ∀ d path,
      (lookupAt (.recording oneReadable) d path).answer = oneReadable path := by
    intro d path
    rw [lookupAt_table rfl]
  have hcs : ∀ c ∈ reloads, c.edit.Expressible := by decide +kernel
  have hlines : ∀ c ∈ reloads, Text.isWritable c.line = true := by decide +kernel
  have huncancelled : Deed.Uncancelled (.recording oneReadable)
      ((Call.batch reloads .never).deeds (.recording oneReadable) patchy) := by
    decide +kernel
  obtain ⟨hstart, hdrop⟩ := load_erases_history Conduct.quiet_recording hanswers
    reporting_oneReadable hcs .never huncancelled
  obtain ⟨hsame, hreport⟩ := hstart (by decide +kernel)
  refine ⟨Conduct.quiet_recording, hanswers, reporting_oneReadable, hcs, huncancelled, ?_, ?_, ?_,
    ?_⟩
  · decide +kernel
  · apply hsame
    decide +kernel
  · apply hreport.resolve_right
    rintro ⟨⟨c, hc, hline⟩, -⟩
    rw [hlines c hc] at hline
    cases hline
  · apply hdrop 3
    · decide +kernel
    · decide +kernel

end Desk

end Montage
