import Montage.Proofs.Timeline.Expressible

/-!
# Carrying commands out to the end

`Timeline.carryOut` says what a list of commands makes of a timeline, as `Timeline.follow` does,
and keeps the timeline also where a fault ends the commands.  If the first of them loads a file
that can be played, it does not depend on the timeline: `Timeline.carryOut_loading`.
-/

namespace Montage

/-- What commands come to after a first one that has not been given up. -/
def Result.before (r : Result) (p : Timeline × Except Fault Report) :
    Timeline × Except Fault Report :=
  (p.1, p.2.map fun report => ⟨r :: report.results, report.cancelled⟩)

namespace Timeline

variable (media : String → Except Fault Double)

/-- What commands make of a timeline in order, until one is given up, and their report or the
fault that ends them. -/
def carryOut (t : Timeline) : List Command → Timeline × Except Fault Report
  | [] => (t, .ok {})
  | c :: rest =>
    match t.execute (Lookup.undisturbed media) c with
    | .error f => (t, .error f)
    | .ok (t', r) =>
      if r.isCancelled then (t', .ok ⟨[r], true⟩) else r.before (t'.carryOut rest)

variable {media} {t : Timeline} {cs : List Command}

/-- Commands that are carried out are followed. -/
theorem follow_eq_carryOut :
  t.follow media cs = (t.carryOut media cs).2.map fun report => ((t.carryOut media cs).1, report)
  := by
  induction cs generalizing t with
  | nil => rfl
  | cons c rest ih =>
      rw [follow, carryOut]
      cases t.execute (Lookup.undisturbed media) c with
      | error f => rfl
      | ok p =>
          obtain ⟨t₁, r⟩ := p
          dsimp only
          split
          · rfl
          · rw [ih, Result.before]
            cases (t₁.carryOut media rest).2 <;> rfl

/-- Commands at times that can be expressed have a report, unless the failure of one cannot be
reported for its line. -/
theorem carryOut_expressible (hmedia : Lookup.Reporting media)
    (hcs : ∀ c ∈ cs, c.edit.Expressible) (t : Timeline) :
  (∃ report, (t.carryOut media cs).2 = .ok report)
    ∨ (∃ c ∈ cs, Text.isWritable c.line = false)
      ∧ (t.carryOut media cs).2 = .error .tooLongToWrite
  := by
  have hfollow := follow_expressible hmedia hcs t
  rw [follow_eq_carryOut] at hfollow
  cases hcarried : (t.carryOut media cs).2 with
  | ok report =>
      left
      exact ⟨report, rfl⟩
  | error f =>
      rw [hcarried] at hfollow
      rcases hfollow with ⟨t', report, hok⟩ | ⟨hline, herror⟩
      · cases hok
      · right
        cases herror
        exact ⟨hline, rfl⟩

/-- What is carried out from a load on does not depend on what there was before. -/
theorem carryOut_loading {c : Command} {path : String} {duration : Double}
    (hload : c.edit = .load path)
    (hplayable : (Lookup.undisturbed media path).playable path = .ok duration) (t : Timeline)
    (rest : List Command) :
  t.carryOut media (c :: rest)
    = Result.before ⟨c, .ok [1]⟩ ((whole path duration).carryOut media rest)
  := by
  have hedit : t.edit (Lookup.undisturbed media) c.edit = .ok (whole path duration, [1]) := by
    rw [hload, edit, hplayable]
    rfl
  rw [carryOut, execute_ok hedit]
  rfl

end Timeline

end Montage
