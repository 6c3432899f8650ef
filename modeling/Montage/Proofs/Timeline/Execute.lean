import Montage.Proofs.Timeline.Range

/-!
# Executing commands on a timeline

`Timeline.execute` says what becomes of a timeline when one command is executed, and what is
reported.  A command that fails is reported with its line and its text, so it is itself in
need of a line that can be written and of a text.
-/

namespace Montage

/-- The line and the text by which the failure of a command is reported. -/
def Command.mention (c : Command) : Except Fault (String × String) := do
  let line ← Text.writeInteger c.line
  let text ← c.text
  return (line, text)

namespace Timeline

/-- What a command makes of a timeline, and the result that is reported. -/
def execute (look : String → Lookup) (t : Timeline) (c : Command) :
    Except Fault (Timeline × Result) :=
  match t.edit look c.edit with
  | .ok (t', ids) => .ok (t', ⟨c, .ok ids⟩)
  | .error (.script cause) => c.mention.map fun _ => (t, ⟨c, .error cause⟩)
  | .error f => .error f

variable {look : String → Lookup} {t t' : Timeline} {c : Command} {r : Result}

/-- A command that is reported has succeeded or left the timeline as it was. -/
theorem of_execute (h : t.execute look c = .ok (t', r)) :
  (∃ ids, r = ⟨c, .ok ids⟩ ∧ t.edit look c.edit = .ok (t', ids))
    ∨ (∃ cause, r = ⟨c, .error cause⟩ ∧ t' = t ∧ t.edit look c.edit = .error (.script cause))
  := by
  unfold execute at h
  split at h
  · rename_i hedit
    cases h
    left
    exact ⟨_, rfl, hedit⟩
  · rename_i cause hedit
    right
    generalize c.mention = mention at h
    cases mention with
    | error f => cases h
    | ok m =>
        cases h
        exact ⟨cause, rfl, rfl, hedit⟩
  · cases h

/-- A command that ends with a fault was no success. -/
theorem of_execute_error {f : Fault} (h : t.execute look c = .error f) :
  ∃ f', t.edit look c.edit = .error f'
  := by
  rw [execute] at h
  split at h
  · cases h
  · rename_i hedit
    exact ⟨_, hedit⟩
  · rename_i hedit
    exact ⟨_, hedit⟩

end Timeline

end Montage
