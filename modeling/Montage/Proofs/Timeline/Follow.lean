import Montage.Proofs.Timeline.Execute

/-!
# Following commands from scratch

`Timeline.follow` says what a whole list of commands makes of a timeline when nothing
disturbs it and every file is what a table says.  It depends on the edits alone, not on the
lines the commands stand on, as long as these can be written.  A lookup that is disturbed
either brings the same or is overtaken.
-/

namespace Montage

namespace Timeline

variable (media : String → Except Fault Double)

/-- What commands make of a timeline in order, and their report, until one is given up. -/
def follow (t : Timeline) : List Command → Except Fault (Timeline × Report)
  | [] => .ok (t, {})
  | c :: rest =>
    match t.execute (Lookup.undisturbed media) c with
    | .error f => .error f
    | .ok (t', r) =>
      if r.isCancelled then .ok (t', ⟨[r], true⟩)
      else
        (t'.follow rest).map fun (t'', report) => (t'', ⟨r :: report.results, report.cancelled⟩)

end Timeline

/-! ### Disturbed lookups -/

namespace Lookup

/-- A lookup has been overtaken after it had found a duration for which the file would have
been loaded. -/
structure Overtaken (path : String) (l : Lookup) : Prop where
  overtaken : l.overtaken = true
  playable : l.playable path = .error (.script (.overtaken path))
  named : Text.isBlankText path = false
  found : ∃ duration, l.answer = .ok duration
    ∧ (!duration.isFinite || decide (duration ≤ .zero)) = false

variable {media : String → Except Fault Double} {path : String} {l : Lookup}

/-- A lookup that brings what the table says is overtaken or comes to the same. -/
theorem playable_cases (h : l.answer = media path) :
  l.Overtaken path ∨ l.playable path = (undisturbed media path).playable path
  := by
  obtain ⟨answer, overtaken⟩ := l
  obtain rfl : answer = media path := h
  cases overtaken with
  | false =>
      right
      rfl
  | true =>
      by_cases hblank : Text.isBlankText path = true
      · right
        simp [playable, hblank]
      · cases hmedia : media path with
        | error f =>
            right
            simp [playable, undisturbed, hmedia]
        | ok duration =>
            by_cases hd : (!duration.isFinite || decide (duration ≤ .zero)) = true
            · right
              simp [playable, undisturbed, hmedia, hd]
            · left
              constructor
              · rfl
              · simp only [playable, if_neg hblank, if_neg hd]
                rfl
              · simpa using hblank
              · use duration
                exact ⟨rfl, by simpa using hd⟩

end Lookup

namespace Timeline

variable {media : String → Except Fault Double} {look : String → Lookup} {t : Timeline}

/-- A command whose lookup brings what the table says is overtaken or comes to the same. -/
theorem execute_cases (h : ∀ path, (look path).answer = media path) (c : Command) :
  (∃ path, c.edit = .load path ∧ (look path).Overtaken path)
    ∨ t.execute look c = t.execute (Lookup.undisturbed media) c
  := by
  obtain ⟨e, line⟩ := c
  cases e with
  | load path =>
      rcases Lookup.playable_cases (h path) with hover | hsame
      · left
        exact ⟨path, rfl, hover⟩
      · right
        simp only [execute, edit, hsame]
  | cut time =>
      right
      rfl
  | range verb start stop =>
      right
      rfl

section Overtaken

variable {c : Command} {path : String} (hload : c.edit = .load path)
  (hover : (look path).Overtaken path)

include hload hover

theorem edit_of_overtaken :
  t.edit look c.edit = .error (.script (.overtaken path))
  := by
  rw [hload, edit, hover.playable]
  rfl

/-- A load that is overtaken is given up. -/
theorem isCancelled_of_overtaken {t' : Timeline} {r : Result}
    (h : t.execute look c = .ok (t', r)) :
  r.isCancelled = true
  := by
  have hedit : t.edit look c.edit = _ := edit_of_overtaken hload hover
  rcases of_execute h with ⟨ids, -, hok⟩ | ⟨cause, rfl, -, herror⟩
  · rw [hedit] at hok
    cases hok
  · rw [hedit] at herror
    cases herror
    rfl

/-- A load that is overtaken fails altogether only if it cannot be mentioned. -/
theorem mention_of_overtaken {f : Fault} (h : t.execute look c = .error f) :
  c.mention = .error f
  := by
  rw [execute, edit_of_overtaken hload hover] at h
  dsimp only at h
  cases hmention : c.mention with
  | ok m =>
      rw [hmention] at h
      cases h
  | error f' =>
      rw [hmention] at h
      cases h
      rfl

end Overtaken

end Timeline

/-! ### The same edits on other lines -/

/-- A command can be mentioned if its line can be written and it has a text. -/
theorem Command.mention_ok {c : Command} {text : String} (hline : Text.isWritable c.line = true)
    (htext : c.text = .ok text) :
  c.mention = .ok (toString c.line, text)
  := by
  rw [mention, Text.writeInteger, if_pos hline, htext]
  rfl

theorem Command.text_of_mention {c : Command} {m : String × String} (h : c.mention = .ok m) :
  c.text = .ok m.2
  := by
  rw [mention] at h
  cases hline : Text.writeInteger c.line with
  | error f =>
      rw [hline] at h
      cases h
  | ok line =>
      rw [hline] at h
      cases htext : c.text with
      | error f =>
          rw [htext] at h
          cases h
      | ok text =>
          rw [htext] at h
          cases h
          rfl

namespace Timeline

variable {media : String → Except Fault Double} {look : String → Lookup} {t t' : Timeline}

theorem execute_congr {c c' : Command} {r : Result} (h : t.execute look c = .ok (t', r))
    (hedit : c'.edit = c.edit) (hline : Text.isWritable c'.line = true) :
  t.execute look c' = .ok (t', ⟨c', r.outcome⟩)
  := by
  rw [execute] at h ⊢
  rw [hedit]
  split at h
  · cases h
    rfl
  · cases hmention : c.mention with
    | error f =>
        rw [hmention] at h
        cases h
    | ok m =>
        have htext : c'.text = .ok m.2 := by
          rw [Command.text, hedit]
          apply Command.text_of_mention hmention
        rw [hmention] at h
        cases h
        rw [Command.mention_ok hline htext]
        rfl
  · cases h

/-- Commands with the same edits come to the same. -/
theorem follow_congr {cs cs' : List Command} {report : Report}
    (h : t.follow media cs = .ok (t', report)) (hedits : cs'.map (·.edit) = cs.map (·.edit))
    (hlines : ∀ c ∈ cs', Text.isWritable c.line = true) :
  ∃ report', t.follow media cs' = .ok (t', report') ∧ report'.cancelled = report.cancelled
  := by
  induction cs generalizing t cs' report with
  | nil =>
      obtain rfl := List.map_eq_nil_iff.mp hedits
      cases h
      exact ⟨_, rfl, rfl⟩
  | cons c rest ih =>
      cases cs' with
      | nil => cases hedits
      | cons c' rest' =>
          obtain ⟨hedit, hedits⟩ := List.cons.inj hedits
          have hline := hlines c' List.mem_cons_self
          have hlines' : ∀ c ∈ rest', Text.isWritable c.line = true :=
            fun c hc => hlines c (List.mem_cons_of_mem c' hc)
          rw [follow] at h ⊢
          cases hexecute : t.execute (Lookup.undisturbed media) c with
          | error f =>
              rw [hexecute] at h
              cases h
          | ok p =>
              obtain ⟨t₁, r⟩ := p
              rw [hexecute] at h
              rw [execute_congr hexecute hedit hline]
              dsimp only at h ⊢
              have hcancelled : Result.isCancelled ⟨c', r.outcome⟩ = r.isCancelled := rfl
              rw [hcancelled]
              split at h
              · rename_i hr
                rw [if_pos hr]
                cases h
                exact ⟨_, rfl, rfl⟩
              · rename_i hr
                rw [if_neg hr]
                cases hrest : t₁.follow media rest with
                | error f =>
                    rw [hrest] at h
                    cases h
                | ok p =>
                    rw [hrest] at h
                    cases h
                    obtain ⟨report', hfollow, hsame⟩ := ih hrest hedits hlines'
                    rw [hfollow]
                    exact ⟨_, rfl, hsame⟩

end Timeline

end Montage
