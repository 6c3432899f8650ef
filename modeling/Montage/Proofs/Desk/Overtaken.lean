import Montage.Proofs.Desk.Deeds
import Montage.Proofs.Desk.Reentrant
import Montage.Proofs.Timeline.Complete

/-!
# Loads that are overtaken

A batch is carried out while those who surround the desk note changes of the document and
keep a record of the events of the store.  The first load that finds a playable file after a
change is the last command to be carried out: it is given up before anything is announced,
and the store is as it was when its turn came.  Without such a load the batch is carried out
to the end.
-/

namespace Montage

variable {ε : Type}

/-! ### Keeping a record of events -/

/-- The manner of those who leave a desk alone, save that they count changes of the document,
and enter nothing into a record of events. -/
def Manner.unrecorded (events : ε → List Event) : Manner ε where
  Rel p q := p.1 ≤ q.1 ∧ events q.2 = events p.2
  refl _ := ⟨Nat.le_refl _, rfl⟩
  trans h h' := ⟨Nat.le_trans h.1 h'.1, h'.2.trans h.2⟩
  le h := h.1

/-- Surroundings that keep a record of the events of the store.  While the desk is busy they
note changes of the document and change their own state, leave everything else alone, and
raise nothing; files are what a table says. -/
structure Surroundings.Records (host : Surroundings ε) (media : String → Except Fault Double)
    (events : ε → List Event) : Prop where
  log : ∀ line s, events (host.log line s) = events s
  onEvent : ∀ d : Desk ε, d.Busy → ∀ listener event, Desk.Meets (host.onEvent listener event) d
    (fun _ d' => (Manner.free ε).Passes d d'
      ∧ events d'.surroundings = events d.surroundings ++ [event])
    (fun _ _ => False)
  onPass : ∀ d : Desk ε, d.Busy → ∀ listener pass, Desk.Meets (host.onPass listener pass) d
    (fun _ => (Manner.unrecorded events).Passes d) (fun _ _ => False)
  lookup : ∀ d : Desk ε, d.Busy → ∀ path, Desk.Meets (host.lookup path) d
    (fun duration d' => media path = .ok duration ∧ (Manner.unrecorded events).Passes d d')
    (fun f d' => media path = .error f ∧ (Manner.unrecorded events).Passes d d')

namespace Manner.Passes

variable {M : Manner ε} {d d' : Desk ε}

theorem free (h : M.Passes d d') :
  (Manner.free ε).Passes d d'
  := ⟨h.rest, M.le h.rel⟩

theorem events {events : ε → List Event} (h : (Manner.unrecorded events).Passes d d') :
  events d'.surroundings = events d.surroundings
  := h.rel.2

end Manner.Passes

namespace Surroundings.Records

variable {host : Surroundings ε} {media : String → Except Fault Double}
  {events : ε → List Event} (h : host.Records media events) {d : Desk ε}

include h

theorem logged (line : String) (d : Desk ε) :
  (Manner.unrecorded events).Passes d (d.logged host line)
  := ⟨rfl, Nat.le_refl _, h.log line d.surroundings⟩

/-- Such surroundings pass a busy desk by. -/
theorem binds :
  (Conduct.passing ε).Binds host
  := by
  constructor
  · intro d _ line
    apply (h.logged line d).free
  · intro d hd listener event
    apply (h.onEvent d hd listener event).mono
    · rintro _ d' ⟨hpasses, -⟩
      apply hpasses
    · intro f d' hf
      apply hf.elim
  · intro d hd path
    apply (h.lookup d hd path).mono
    · rintro duration d' ⟨-, hpasses⟩
      apply hpasses.free
    · rintro f d' ⟨-, hpasses⟩
      apply hpasses.free

theorem answers (hd : d.Busy) (path : String) :
  (Desk.lookupAt host d path).answer = media path
  := by
  have hlookup := h.lookup d hd path
  cases hrun : host.lookup path d with
  | ok duration d' =>
      rw [Desk.lookupAt_ok hrun, ((Desk.meets_of_ok hrun).mp hlookup).1]
  | error f d' =>
      rw [Desk.lookupAt_error hrun, ((Desk.meets_of_error hrun).mp hlookup).1]

end Surroundings.Records

/-! ### Single commands -/

/-- A deed that loads a playable file whose lookup ends after the document has changed. -/
def Deed.Stale (host : Surroundings ε) (media : String → Except Fault Double) (revision : Nat)
    (x : Deed ε) : Prop :=
  ∃ path duration, x.command.edit = .load path ∧ Text.isBlankText path = false
    ∧ media path = .ok duration ∧ duration.isFinite = true ∧ .zero < duration
    ∧ (Desk.after (host.lookup path) x.before).revision ≠ revision

namespace Desk

variable {host : Surroundings ε} {media : String → Except Fault Double}
  {events : ε → List Event} (hrecords : host.Records media events) {d : Desk ε} {revision : Nat}
  {c : Command}

/-- A desk at which a batch is carried out that is given up once the document's revision is
another. -/
structure Runs (revision : Nat) (d : Desk ε) : Prop where
  busy : d.Busy
  poll : d.poll = .changedSince revision
  sound : d.store.Sound

theorem Runs.passes {d' : Desk ε} (hd : Runs revision d) (h : (Manner.free ε).Passes d d') :
  Runs revision d'
  := by
  refine ⟨h.busy hd.busy, ?_, ?_⟩
  · rw [h.rest]
    apply hd.poll
  · rw [h.store]
    apply hd.sound

theorem Runs.reaches {t : Timeline} {d' : Desk ε} (hd : Runs revision d)
    (h : (Conduct.passing ε).Reaches d t d') :
  Runs revision d'
  := by
  refine ⟨h.holds hd.busy, ?_, h.sound⟩
  rw [h.follows.rest]
  apply hd.poll

/-- Such a desk asks whether the revision is another one. -/
theorem Runs.pollAnswer (hd : Runs revision d) :
  pollAnswer d = (d.revision != revision)
  := by
  rw [Desk.pollAnswer, hd.poll]

omit hrecords in
/-- The failure of a command that can be mentioned is reported. -/
theorem meets_failed_mentioned {cause : ScriptFault} {text : String}
    (hline : Text.isWritable c.line = true) (htext : c.text = .ok text)
    {E : Fault → Desk ε → Prop} :
  Meets (failed host c (.script cause)) d
    (fun r d' => r = ⟨c, .error cause⟩ ∧ ∃ line, d' = logged host line d) E
  := by
  unfold failed
  rw [htext, Text.writeInteger, if_pos hline]
  rw [meets_bind, meets_ofExcept_ok, meets_bind, meets_ofExcept_ok, meets_bind, log, meets_modify,
    meets_pure]
  exact ⟨rfl, _, rfl⟩

include hrecords

/-- A lookup is overtaken exactly if it is that of a load that is stale. -/
theorem stale_iff (hd : Runs revision d) :
  Deed.Stale host media revision ⟨c, d⟩
    ↔ ∃ path, c.edit = .load path ∧ (lookupAt host d path).Overtaken path
  := by
  have hovertaken : ∀ path, (lookupAt host d path).overtaken
      = ((after (host.lookup path) d).revision != revision) := by
    intro path
    apply Runs.pollAnswer
    apply hd.passes
    apply Meets.after
    apply (hrecords.lookup d hd.busy path).mono
    · rintro duration d' ⟨-, h⟩
      apply h.free
    · rintro f d' ⟨-, h⟩
      apply h.free
  have hanswer := fun path => hrecords.answers hd.busy path
  constructor
  · rintro ⟨path, duration, hload, hnamed, hfile, hfinite, hpositive, hrevision⟩
    refine ⟨path, hload, ?_⟩
    have hplayable : (!duration.isFinite || decide (duration ≤ .zero)) = false := by
      simp [hfinite, Double.not_le_of_lt hpositive]
    have hlate : (lookupAt host d path).overtaken = true := by
      rw [hovertaken]
      simpa using hrevision
    refine ⟨hlate, ?_, hnamed, duration, ?_, hplayable⟩
    · rw [Lookup.playable, hanswer, hfile, hlate, hnamed]
      simp [hplayable]
    · rw [hanswer, hfile]
  · rintro ⟨path, hload, hover⟩
    obtain ⟨duration, hfound, hplayable⟩ := hover.found
    have hlate := hover.overtaken
    rw [hanswer] at hfound
    rw [hovertaken] at hlate
    simp only [Bool.or_eq_false_iff, Bool.not_eq_eq_eq_not, Bool.not_false,
      decide_eq_false_iff_not] at hplayable
    exact ⟨path, duration, hload, hover.named, hfound, hplayable.1,
      Double.zero_lt_of_not_le_zero hplayable.1 hplayable.2, by simpa using hlate⟩

/-- A load that is stale is given up, and nothing else happens. -/
theorem meets_executeOne_stale (hd : Runs revision d) (hc : c.edit.Readable)
    (hline : Text.isWritable c.line = true) (hstale : Deed.Stale host media revision ⟨c, d⟩) :
  Meets (executeOne host c) d
    (fun r d' => (∃ path, c.edit = .load path ∧ r = ⟨c, .error (.overtaken path)⟩)
      ∧ (Manner.unrecorded events).Passes d d')
    (fun _ _ => False)
  := by
  obtain ⟨text, -, htext, -⟩ := hc.text
  obtain ⟨path, duration, hload, hnamed, hfile, hfinite, hpositive, hrevision⟩ := hstale
  have hplayable : (!duration.isFinite || decide (duration ≤ .zero)) = false := by
    simp [hfinite, Double.not_le_of_lt hpositive]
  have hlookup := hrecords.lookup d hd.busy path
  rw [executeOne, hload, meets_tryCatch, meets_bind, applyEdit, load, meets_bind,
    playableDuration]
  simp only [hnamed, Bool.false_eq_true, if_false, meets_bind, meets_tryCatch]
  cases hrun : host.lookup path d with
  | error f d₁ =>
      obtain ⟨herror, -⟩ := (meets_of_error hrun).mp hlookup
      cases hfile.symm.trans herror
  | ok found d₁ =>
      obtain ⟨hok, h₁⟩ := (meets_of_ok hrun).mp hlookup
      obtain rfl := Except.ok.inj (hfile.symm.trans hok)
      rw [after, hrun] at hrevision
      have hd₁ := hd.passes h₁.free
      have hlate : pollAnswer d₁ = true := by
        rw [hd₁.pollAnswer]
        simpa using hrevision
      rw [meets_of_ok hrun]
      simp only [hplayable, Bool.false_eq_true, if_false, meets_bind, meets_poll?, hlate, if_true,
        meets_throw, hd₁.busy.asked]
      apply (meets_failed_mentioned hline htext).imp
      rintro r d₂ ⟨rfl, line, rfl⟩
      exact ⟨⟨path, rfl, rfl⟩, h₁.trans (hrecords.logged line d₁)⟩

/-- Any other command is carried out. -/
theorem meets_executeOne_current (hmedia : Lookup.Answering media) (hd : Runs revision d)
    (hc : c.edit.Readable) (hline : Text.isWritable c.line = true)
    (hcurrent : ¬ Deed.Stale host media revision ⟨c, d⟩) :
  Meets (executeOne host c) d
    (fun r d' => r.isCancelled = false ∧ r.command = c
      ∧ (Conduct.passing ε).Reaches d d'.store.timeline d'
      ∧ d.store.timeline.execute (Lookup.undisturbed media) c = .ok (d'.store.timeline, r))
    (fun _ _ => False)
  := by
  have hsame : d.store.timeline.execute (lookupAt host d) c
      = d.store.timeline.execute (Lookup.undisturbed media) c := by
    apply (Timeline.execute_cases (fun path => hrecords.answers hd.busy path) c).resolve_left
    rwa [← stale_iff hrecords hd]
  obtain ⟨t, r, hexecute, hr⟩ := Timeline.execute_complete hmedia hc hline d.store.timeline
  apply (meets_executeOne hrecords.binds hd.busy hd.sound c).mono
  · rintro r' d' ⟨t', hexecute', h'⟩
    rw [hsame, hexecute] at hexecute'
    cases hexecute'
    obtain rfl := h'.timeline
    refine ⟨hr, ?_, h', hexecute⟩
    rcases Timeline.of_execute hexecute with ⟨ids, rfl, -⟩ | ⟨cause, rfl, -, -⟩ <;> rfl
  · rintro f d' (⟨hraises, -⟩ | ⟨hexecute', -⟩)
    · apply hraises.elim
    · rw [hsame, hexecute] at hexecute'
      cases hexecute'

end Desk

/-! ### Batches -/

/-- How a batch ends with a load that is stale, when given deeds were done before: the load is
the last command that is carried out, it is reported as given up, and what it leaves is the
desk as it was when its turn came, which shows what the commands before it come to. -/
structure Deed.GivenUp (media : String → Except Fault Double) (events : ε → List Event)
    (cs : List Command) (d : Desk ε) (earlier : List (Deed ε)) (x : Deed ε) (report : Report)
    (d' : Desk ε) : Prop where
  commands : ∃ rest, cs = earlier.map (·.command) ++ x.command :: rest
  report : ∃ rs path, rs.map (·.command) = earlier.map (·.command)
    ∧ x.command.edit = .load path
    ∧ report = ⟨rs ++ [⟨x.command, .error (.overtaken path)⟩], true⟩
  passes : (Manner.unrecorded events).Passes x.before d'
  follow : ∃ report, report.cancelled = false
    ∧ d.store.timeline.follow media (earlier.map (·.command))
      = .ok (x.before.store.timeline, report)

namespace Desk

/-- How a batch ends that is given up at the first load that is stale, and at no other
command. -/
structure Concludes (host : Surroundings ε) (media : String → Except Fault Double)
    (events : ε → List Event) (revision : Nat) (cs : List Command) (d : Desk ε) (report : Report)
    (d' : Desk ε) : Prop where
  reaches : (Conduct.passing ε).Reaches d d'.store.timeline d'
  givenUp : ∀ earlier x later, deeds host cs d = earlier ++ x :: later →
    (∀ y ∈ earlier, ¬ y.Stale host media revision) → x.Stale host media revision →
    later = [] ∧ Deed.GivenUp media events cs d earlier x report d'
  complete : (∀ x ∈ deeds host cs d, ¬ x.Stale host media revision) →
    report.cancelled = false ∧ report.results.map (·.command) = cs

section

variable {host : Surroundings ε} {media : String → Except Fault Double}
  {events : ε → List Event} {revision : Nat} {c : Command} {rest : List Command} {r : Result}
  {report : Report} {d d₁ d' : Desk ε}

/-- A batch without commands. -/
theorem Concludes.nil (hs : d.store.Sound) :
  Concludes host media events revision [] d {} d
  := by
  refine ⟨Conduct.Reaches.of_allows hs (Manner.Passes.refl d), ?_, fun _ => ⟨rfl, rfl⟩⟩
  intro earlier x later h
  cases earlier <;> cases h

/-- A batch whose first command is a load that is stale. -/
theorem Concludes.stale {path : String} (hs : d.store.Sound)
    (hrun : executeOne host c d = .ok r d₁) (hload : c.edit = .load path)
    (hr : r = ⟨c, .error (.overtaken path)⟩) (h₁ : (Manner.unrecorded events).Passes d d₁)
    (hstale : Deed.Stale host media revision ⟨c, d⟩) :
  Concludes host media events revision (c :: rest) d ⟨[r], true⟩ d₁
  := by
  have hdeeds : deeds host (c :: rest) d = [⟨c, d⟩] := by
    rw [deeds, hrun, hr]
    rfl
  constructor
  · rw [h₁.store]
    apply Conduct.Reaches.of_allows hs h₁.free
  · intro earlier x later hsplit hearlier hx
    rw [hdeeds] at hsplit
    cases earlier with
    | nil =>
        cases hsplit
        refine ⟨rfl, ⟨rest, rfl⟩, ⟨[], path, rfl, hload, ?_⟩, h₁, {}, rfl, rfl⟩
        rw [hr]
        rfl
    | cons y earlier =>
        obtain ⟨rfl, -⟩ := List.cons.inj hsplit
        exact (hearlier _ List.mem_cons_self hstale).elim
  · intro hcurrent
    rw [hdeeds] at hcurrent
    exact (hcurrent _ List.mem_cons_self hstale).elim

/-- A batch whose first command is carried out. -/
theorem Concludes.cons (hrun : executeOne host c d = .ok r d₁) (hr : r.isCancelled = false)
    (hc : r.command = c) (h₁ : (Conduct.passing ε).Reaches d d₁.store.timeline d₁)
    (hexecute : d.store.timeline.execute (Lookup.undisturbed media) c
      = .ok (d₁.store.timeline, r))
    (hcurrent : ¬ Deed.Stale host media revision ⟨c, d⟩)
    (h : Concludes host media events revision rest d₁ report d') :
  Concludes host media events revision (c :: rest) d ⟨r :: report.results, report.cancelled⟩ d'
  := by
  have hdeeds : deeds host (c :: rest) d = ⟨c, d⟩ :: deeds host rest d₁ := by
    rw [deeds, hrun]
    simp [hr]
  constructor
  · apply h₁.trans h.reaches
  · intro earlier x later hsplit hearlier hx
    rw [hdeeds] at hsplit
    cases earlier with
    | nil =>
        obtain ⟨rfl, -⟩ := List.cons.inj hsplit
        exact (hcurrent hx).elim
    | cons y earlier =>
        obtain ⟨rfl, hlater⟩ := List.cons.inj hsplit
        obtain ⟨hlast, ⟨rest', hrest⟩, ⟨rs, path, hrs, hload, hreport⟩, hpasses,
          report', hreport', hfollow⟩ := h.givenUp earlier x later hlater
            (fun z hz => hearlier z (List.mem_cons_of_mem _ hz)) hx
        refine ⟨hlast, ⟨rest', ?_⟩, ⟨r :: rs, path, ?_, hload, ?_⟩, hpasses,
          ⟨r :: report'.results, report'.cancelled⟩, hreport', ?_⟩
        · rw [hrest]
          rfl
        · rw [List.map_cons, List.map_cons, hrs, hc]
        · rw [hreport]
          rfl
        · rw [List.map_cons, Timeline.follow, hexecute]
          simp only [hr, Bool.false_eq_true, if_false, hfollow]
          rfl
  · intro hall
    rw [hdeeds] at hall
    obtain ⟨hcancelled, hresults⟩ := h.complete fun x hx => hall x (List.mem_cons_of_mem _ hx)
    refine ⟨hcancelled, ?_⟩
    rw [List.map_cons, hresults, hc]

end

/-- A batch among surroundings that keep a record is given up at the first load that is stale,
and at no other command. -/
theorem meets_executeAll_overtaken {host : Surroundings ε} {media : String → Except Fault Double}
    {events : ε → List Event} (hrecords : host.Records media events)
    (hmedia : Lookup.Answering media) {revision : Nat} {cs : List Command} {d : Desk ε}
    (hd : Runs revision d) (hcs : Command.Readable cs) (hlines : Command.Writable cs) :
  Meets (executeAll host cs) d (Concludes host media events revision cs d) (fun _ _ => False)
  := by
  induction cs generalizing d with
  | nil =>
      rw [executeAll, meets_pure]
      apply Concludes.nil hd.sound
  | cons c rest ih =>
      have hc := hcs c List.mem_cons_self
      have hline := hlines c List.mem_cons_self
      rw [executeAll, meets_bind]
      by_cases hstale : Deed.Stale host media revision ⟨c, d⟩
      · apply ((meets_executeOne_stale hrecords hd hc hline hstale).and (meets_self _ d)).mono
        · rintro r d₁ ⟨⟨⟨path, hload, hr⟩, h₁⟩, hrun⟩
          have hcancelled : r.isCancelled = true := by
            rw [hr]
            rfl
          rw [if_pos hcancelled, meets_pure]
          apply Concludes.stale hd.sound hrun hload hr h₁ hstale
        · rintro f d₁ ⟨hf, -⟩
          apply hf
      · apply ((meets_executeOne_current hrecords hmedia hd hc hline hstale).and
          (meets_self _ d)).mono
        · rintro r d₁ ⟨⟨hr, hcommand, h₁, hexecute⟩, hrun⟩
          have hd₁ := hd.reaches h₁
          rw [if_neg (by simp [hr]), meets_bind]
          apply (ih hd₁ (fun c' hc' => hcs c' (List.mem_cons_of_mem c hc'))
            fun c' hc' => hlines c' (List.mem_cons_of_mem c hc')).imp
          intro report d₂ h₂
          rw [meets_pure]
          apply Concludes.cons hrun hr hcommand h₁ hexecute hstale h₂
        · rintro f d₁ ⟨hf, -⟩
          apply hf

end Desk

end Montage
