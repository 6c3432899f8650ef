import Montage.Proofs.Timeline.Announced
import Montage.Proofs.Timeline.Follow

/-!
# The commands that succeed

What a list of commands makes of a timeline, and what it announces, comes from the commands
that succeed.  Those that fail leave the timeline as it is and announce nothing, so the ones
after them come to the same without them.
-/

namespace Montage

/-- The commands of a report that succeeded. -/
def Report.achieved (r : Report) : List Result :=
  r.results.filter (·.success)

namespace Timeline

variable (media : String → Except Fault Double)

/-- What commands announce in order, until one is given up. -/
def told (t : Timeline) : List Command → List Event
  | [] => []
  | c :: rest =>
    match t.execute (Lookup.undisturbed media) c with
    | .error _ => []
    | .ok (t', r) =>
      t.announced (Lookup.undisturbed media) c.edit ++ if r.isCancelled then [] else t'.told rest

variable {media} {look look' : String → Lookup} {t t' : Timeline}

/-- Of all lookups a command depends on that of the file it loads alone. -/
theorem execute_congr_look {c : Command}
    (h : ∀ path, c.edit = .load path → (look path).playable path = (look' path).playable path)
    (t : Timeline) :
  t.execute look c = t.execute look' c ∧ t.announced look c.edit = t.announced look' c.edit
  := by
  obtain ⟨e, line⟩ := c
  cases e with
  | load path => simp only [execute, edit, announced, h path rfl, and_self]
  | cut time => exact ⟨rfl, rfl⟩
  | range verb start stop => exact ⟨rfl, rfl⟩

section Cons

variable {c : Command} {rest : List Command} {t₁ : Timeline} {r : Result}

/-- Where the first command is not given up, the rest are followed from where it led. -/
theorem follow_cons (hexecute : t.execute (Lookup.undisturbed media) c = .ok (t₁, r))
    (hr : r.isCancelled = false) :
  t.follow media (c :: rest)
    = (t₁.follow media rest).map fun (t', report) =>
        (t', ⟨r :: report.results, report.cancelled⟩)
  := by
  rw [follow, hexecute]
  simp only [hr, Bool.false_eq_true, if_false]

theorem told_cons (hexecute : t.execute (Lookup.undisturbed media) c = .ok (t₁, r))
    (hr : r.isCancelled = false) :
  t.told media (c :: rest)
    = t.announced (Lookup.undisturbed media) c.edit ++ t₁.told media rest
  := by
  rw [told, hexecute]
  simp only [hr, Bool.false_eq_true, if_false]

/-- The first of some commands that are followed to the end. -/
theorem of_follow_cons {report : Report} (h : t.follow media (c :: rest) = .ok (t', report))
    (hreport : report.cancelled = false) :
  ∃ t₁ r report', t.execute (Lookup.undisturbed media) c = .ok (t₁, r) ∧ r.isCancelled = false
    ∧ t₁.follow media rest = .ok (t', report') ∧ report'.cancelled = false
    ∧ report.results = r :: report'.results
  := by
  rw [follow] at h
  split at h
  · cases h
  · rename_i t₁ r hexecute
    split at h
    · cases h
      cases hreport
    · rename_i hr
      cases hrest : t₁.follow media rest with
      | error f =>
          rw [hrest] at h
          cases h
      | ok p =>
          rw [hrest] at h
          cases h
          exact ⟨t₁, r, p.2, hexecute, by simpa using hr, hrest, hreport, rfl⟩

end Cons

/-- Commands that are followed to the end are reported one by one, and those that succeeded
come to the same by themselves: the same timeline, the same results and the same events. -/
theorem follow_achieved {cs : List Command} {report : Report}
    (h : t.follow media cs = .ok (t', report)) (hreport : report.cancelled = false) :
  report.results.map (·.command) = cs
    ∧ t.follow media (report.achieved.map (·.command)) = .ok (t', ⟨report.achieved, false⟩)
    ∧ t.told media (report.achieved.map (·.command)) = t.told media cs
  := by
  induction cs generalizing t report with
  | nil =>
      cases h
      exact ⟨rfl, rfl, rfl⟩
  | cons c rest ih =>
      obtain ⟨t₁, r, report', hexecute, hr, hrest, hreport', hresults⟩ :=
        of_follow_cons h hreport
      obtain ⟨hcommands, hfollow, htold⟩ := ih hrest hreport'
      rw [told_cons hexecute hr]
      rcases of_execute hexecute with ⟨ids, rfl, -⟩ | ⟨cause, rfl, rfl, hfault⟩
      · have hachieved : report.achieved = ⟨c, .ok ids⟩ :: report'.achieved := by
          rw [Report.achieved, hresults]
          rfl
        rw [hresults, hachieved, List.map_cons, List.map_cons, hcommands, follow_cons hexecute hr,
          hfollow, told_cons hexecute hr, htold]
        exact ⟨rfl, rfl, rfl⟩
      · have hachieved : report.achieved = report'.achieved := by
          rw [Report.achieved, hresults]
          rfl
        rw [hresults, hachieved, List.map_cons, hcommands, announced_of_error hfault]
        exact ⟨rfl, hfollow, htold⟩

end Timeline

end Montage
