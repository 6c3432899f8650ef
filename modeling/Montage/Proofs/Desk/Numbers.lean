import Montage.Proofs.Desk.Ledger
import Montage.Proofs.Desk.Request
import Montage.Proofs.Desk.Unchanged
import Montage.Proofs.Script.Numbers

/-!
# Line numbers that are published

Whoever is told of the pass of a text that was submitted learns of the script of that text, and
of no other.  A ledger of all calls shows it, whatever those who are called do.  So if carriage
returns are paired, the numbers that are published are those of the lines of the whole text:
`published_numbered`.
-/

namespace Montage

open Desk

variable {κ ε : Type}

/-- An operation that leaves the ledger to itself. -/
def Desk.Discreet {α : Type} (x : Run (Ledger κ ε) α) : Prop :=
  ∀ P : List (Moment κ) → Prop, Keeps (fun d => P d.moments) x

/-- Surroundings that do as they please with a desk but for its ledger. -/
structure Surroundings.Discreet (host : Surroundings (Ledger κ ε)) : Prop where
  onEvent : ∀ listener event, Desk.Discreet (host.onEvent listener event)
  onPass : ∀ listener pass, Desk.Discreet (host.onPass listener pass)
  onError : ∀ listener message, Desk.Discreet (host.onError listener message)
  lookup : ∀ path, Desk.Discreet (host.lookup path)

/-- The scripts of all passes of which someone was told are the same. -/
def Heard (s : Script) (moments : List (Moment κ)) : Prop :=
  ∀ m ∈ moments, ∀ listener pass, m.occasion = .published listener pass → pass.script = s

namespace Heard

variable {s : Script}

/-- Someone is called, and if it is to be told of a pass then of one with the script. -/
theorem note {α : Type} {o : Occasion κ} {x : Run (Ledger κ ε) α}
    (h : ∀ listener pass, o = .published listener pass → pass.script = s) (hx : Discreet x) :
  Keeps (fun d => Heard s d.moments) (do Desk.note o; x)
  := by
  apply Keeps.bind _ fun _ => hx _
  apply keeps_modify
  intro d hd
  rw [moments_entered]
  exact List.forall_mem_cons.mpr ⟨h, hd⟩

theorem steady {host : Surroundings (Ledger κ ε)} (h : host.Discreet) :
  Steady host.noting fun d => Heard s d.moments
  := by
  apply steady_of_withStore
  · intro d hd _
    exact hd
  · intro d hd _ _ _
    exact hd
  · intro line
    apply keeps_modify
    intro d hd
    exact hd
  · intro listener event
    apply note (o := .told listener event) _ (h.onEvent listener event)
    rintro _ _ ⟨⟩
  · intro path
    apply note (o := .looked path) _ (h.lookup path)
    rintro _ _ ⟨⟩

/-- Whoever is told of a pass while a text is submitted learns of its script. -/
theorem submit {host : Surroundings (Ledger κ ε)} (h : host.Discreet) (text : String)
    {d : Desk (Ledger κ ε)} (hd : d.moments = []) :
  Heard (Script.ofText text) (after (Desk.submit host.noting text) d).moments
  := by
  have hstart : Heard (Script.ofText text) d.moments := by
    rw [hd]
    apply List.forall_mem_nil
  have hsubmit : Meets (Desk.submit host.noting text) d
      (fun _ d' => Heard (Script.ofText text) d'.moments)
      (fun _ d' => Heard (Script.ofText text) d'.moments) := by
    by_cases hphase : d.phase = .parsing
    · rw [meets_submit_parsing text hphase]
      exact hstart
    · apply (steady h).submit _ _ hphase hstart
      · intro d' hd'
        exact hd'
      · intro listener pass hscript
        apply note (o := .published listener pass) _ (h.onPass listener pass)
        rintro _ _ ⟨⟩
        exact hscript
      · intro listener message
        apply note (o := .complained listener message) _ (h.onError listener message)
        rintro _ _ ⟨⟩
  apply hsubmit.after

end Heard

/-- The numbers that are published are those of the lines of the whole text, if every carriage
return in it has a line feed right after it.  The commands of the pass of a submitted text are
what the lines after its header ask for, in order and each with the number of its line; every
scene stands on a separator after the header, and every paragraph of it on a line of its
content that is not blank; and the numbers of scenes and paragraphs ascend.  Whoever is told of
a pass in the meantime finds the same in it. -/
theorem Desk.published_numbered {text : String} (h : Text.ReturnsPaired text.toList) :
  (∀ {ε : Type} (host : Surroundings ε) (d d' : Desk ε) (pass : Pass),
      submit host text d = .ok (some pass) d' → pass.script.Numbered text)
    ∧ ∀ {κ ε : Type} (host : Surroundings (Ledger κ ε)), host.Discreet →
      ∀ d, d.moments = [] → ∀ m ∈ (after (submit host.noting text) d).moments,
        ∀ listener pass, m.occasion = .published listener pass → pass.script.Numbered text
  := by
  have hnumbered := Script.numbered_ofText h
  constructor
  · intro ε host d d' pass hsubmit
    rw [script_of_submit hsubmit]
    exact hnumbered
  · intro κ ε host hhost d hd m hm listener pass hpublished
    rw [Heard.submit hhost text hd m hm listener pass hpublished]
    exact hnumbered

/-- A text with a header, a command, and a scene with two paragraphs. -/
def diary : String :=
  "FRAMERATE 25\r\n===\r\nLOAD a.mp4\r\n--- [00:00:00.000 -> 00:00:10.000] ---\r\n"
    ++ "# Harbour\nBoats\r\nat dawn\r\n\r\n  Nets\r\n"

/-- A desk at which one listens for passes. -/
def readingDesk : Desk (Ledger Unit Unit) :=
  { passListeners := [0], surroundings := { rest := () } }

/-- The numbers of the commands of which the listeners were told, and those of the scenes and
paragraphs. -/
def numbersHeard (moments : List (Moment κ)) : List (List Int × List Int) :=
  moments.filterMap fun m =>
    match m.occasion with
    | .published _ pass =>
      some (pass.script.commands.map (·.line), pass.script.scenes.flatMap Scene.numbers)
    | _ => none

theorem Desk.published_numbered_diary :
  (∃ pass d', submit (.bystanders _) diary readingDesk = .ok (some pass) d'
      ∧ pass.script.Numbered diary)
    ∧ (∀ m ∈ (after (submit (Surroundings.bystanders _).noting diary) readingDesk).moments,
      ∀ listener pass, m.occasion = .published listener pass → pass.script.Numbered diary)
    ∧ numbersHeard (after (submit (Surroundings.bystanders _).noting diary) readingDesk).moments
      = [([3], [4, 6, 9])]
  := by
  have hpaired : Text.ReturnsPaired diary.toList := by decide +kernel
  have hdiscreet : (Surroundings.bystanders (Ledger Unit Unit)).Discreet :=
    ⟨fun _ _ _ => keeps_pure _, fun _ _ _ => keeps_pure _, fun _ _ _ => keeps_pure _,
      fun _ _ => keeps_pure _⟩
  have hpublished : (published? (.bystanders _) diary readingDesk).isSome = true := by
    decide +kernel
  obtain ⟨pass, hpass⟩ := Option.isSome_iff_exists.mp hpublished
  obtain ⟨d', hsubmit⟩ := of_published? hpass
  obtain ⟨hnumbered, hheard⟩ := published_numbered hpaired
  refine ⟨⟨pass, d', hsubmit, hnumbered _ _ _ _ hsubmit⟩, ?_, by decide +kernel⟩
  apply hheard _ hdiscreet _ rfl

end Montage
