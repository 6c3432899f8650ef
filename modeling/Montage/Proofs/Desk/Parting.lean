import Montage.Proofs.Desk.Batch
import Montage.Proofs.Desk.Reachable
import Montage.Proofs.Timeline.Parting

/-!
# A single cut at a desk

A cut among quiet surroundings does what `Timeline.CutsTo` says and recorders are told of it,
whether it is made by itself or as a command: `Desk.cut_changes_bounds`.
-/

namespace Montage.Desk

variable {ε : Type} {host : Surroundings ε} {α : Type}

/-- An operation that leaves a desk and ends with a given outcome. -/
def ended (outcome : Except ScriptFault α) (d' : Desk ε) : EStateM.Result Fault (Desk ε) α :=
  match outcome with
  | .ok a => .ok a d'
  | .error cause => .error (.script cause) d'

/-- The desk that a cut leads to, and what recorders are told. -/
def CutsTo (host : Surroundings ε) (d : Desk ε) (time : Double)
    (outcome : Except ScriptFault (List Int)) (d' : Desk ε) : Prop :=
  ∃ events, d.store.timeline.CutsTo time outcome d'.store.timeline events
    ∧ host.Tells events d d'

variable (hC : (Conduct.quiet ε).Binds host) {d : Desk ε} {time : Double}

include hC

/-- A cut changes bounds and nothing else. -/
theorem cut_changes_bounds (hs : d.store.Reachable) (htime : Timecode.Expressible time) :
  ∃ outcome, (∃ d', cut host time d = ended outcome d' ∧ CutsTo host d time outcome d')
    ∧ ∀ line, Text.isWritable line = true →
      ∃ d', executeOne host ⟨.cut time, line⟩ d = .ok ⟨⟨.cut time, line⟩, outcome⟩ d'
        ∧ CutsTo host d time outcome d'
  := by
  have hcut := meets_cut_told hC (fun _ => id) (lookupAt host d) time trivial hs.sound
  have hrun := fun line =>
    meets_executeOne_told hC (fun _ => id) ⟨.cut time, line⟩ trivial hs.sound
  rcases hs.sound.timeline.cut_cases (lookupAt host d) htime with
    ⟨ids, t, hedit, h⟩ | ⟨cause, hedit, h⟩
  · refine ⟨.ok ids, ?_, ?_⟩
    · obtain ⟨d', hd', rfl, htells⟩ := hcut.ok_of_eq (fun _ _ hf => hf.1) hedit
      exact ⟨d', hd', _, h, htells⟩
    · intro line _
      have hexecute := Timeline.execute_ok (c := ⟨.cut time, line⟩) hedit
      obtain ⟨d', hd', rfl, htells⟩ := (hrun line).ok_of_eq (fun _ _ hf => hf.1) hexecute
      exact ⟨d', hd', _, h, htells⟩
  · refine ⟨.error cause, ?_, ?_⟩
    · obtain ⟨d', hd', -, htimeline, htells⟩ := hcut.error_of_eq (fun _ _ hf => hf.1) hedit
      exact ⟨d', hd', [], htimeline ▸ h, htells⟩
    · intro line hline
      have hexecute := Timeline.execute_refused (c := ⟨.cut time, line⟩) hedit htime hline
      obtain ⟨d', hd', htimeline, htells⟩ := (hrun line).ok_of_eq (fun _ _ hf => hf.1) hexecute
      rw [Timeline.announced_of_error hedit] at htells
      exact ⟨d', hd', [], htimeline ▸ h, htells⟩

omit hC

theorem cut_changes_bounds_patchy :
  (Conduct.quiet _).Binds .reel ∧ patchy.store.Reachable
    ∧ (∀ time ∈ [Double.ofInt 3, .ofInt 2, .ofInt 5], Timecode.Expressible time)
    ∧ (∃ ids d', cut .reel (.ofInt 3) patchy = .ok ids d'
      ∧ d'.store.timeline.Shows (.ofInt 3) false "a.mp4")
    ∧ (∃ cause d', cut .reel (.ofInt 2) patchy = .error (.script cause) d'
      ∧ cause.kind = .degenerateCut)
    ∧ (∃ cause d', cut .reel (.ofInt 5) patchy = .error (.script cause) d'
      ∧ cause.kind = .noSegment)
  := by
  have hreachable : patchy.store.Reachable := reachable_onRecord _
  have htimes : ∀ time ∈ [Double.ofInt 3, .ofInt 2, .ofInt 5], Timecode.Expressible time := by
    decide +kernel
  have hcut := fun time htime =>
    cut_changes_bounds Conduct.quiet_reel hreachable (htimes time htime)
  refine ⟨Conduct.quiet_reel, hreachable, htimes, ?_, ?_, ?_⟩
  · obtain ⟨outcome, ⟨d', hd', events, h, -⟩, -⟩ := hcut (.ofInt 3) (by decide +kernel)
    have hok := h.succeeds.mpr (by decide +kernel)
    have hshows := (h.shows (.ofInt 3) false "a.mp4").mpr (by decide +kernel)
    cases outcome with
    | ok ids => exact ⟨ids, d', hd', hshows⟩
    | error cause => cases hok
  · obtain ⟨outcome, ⟨d', hd', events, h, -⟩, -⟩ := hcut (.ofInt 2) (by decide +kernel)
    obtain ⟨cause, rfl, hkind⟩ := h.degenerate.mpr (by decide +kernel)
    exact ⟨cause, d', hd', hkind⟩
  · obtain ⟨outcome, ⟨d', hd', events, h, -⟩, -⟩ := hcut (.ofInt 5) (by decide +kernel)
    obtain ⟨cause, rfl, hkind⟩ := h.nowhere.mpr (by decide +kernel)
    exact ⟨cause, d', hd', hkind⟩

end Montage.Desk
