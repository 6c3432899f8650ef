import Montage.Proofs.Desk.Batch
import Montage.Proofs.Desk.Reachable
import Montage.Proofs.Timeline.Expressible
import Montage.Proofs.Timeline.Sharing

/-!
# Range commands at a desk

A line that hides, shows or deletes a range is carried out as `Timeline.RangesOver` says, and
recorders are told of it: `Desk.range_acts_on_shared`.  Neither the reader nor the interpreter
puts the two times of a line in order, so a range may end before it starts, and then it can
act on segments with which it shares nothing: `Desk.backward_range_acts`.
-/

namespace Montage.Desk

variable {ε : Type} {host : Surroundings ε} (hC : (Conduct.quiet ε).Binds host) {d : Desk ε}

include hC

/-- A line that is read as a range command is carried out.  If the range ends after it starts,
the command acts on the segments that share an instant with the range. -/
theorem range_acts_on_shared (hs : d.store.Reachable) {text : String} {line : Int}
    {verb : RangeVerb} {start stop : Double}
    (htext : Command.ofLine? text line = some ⟨.range verb start stop, line⟩) :
  ∃ ids events d', executeOne host ⟨.range verb start stop, line⟩ d
      = .ok ⟨⟨.range verb start stop, line⟩, .ok ids⟩ d'
    ∧ host.Tells events d d'
    ∧ d.store.timeline.RangesOver verb start stop d'.store.timeline ids events
  := by
  obtain ⟨e, he, hcommand⟩ := Option.map_eq_some_iff.mp htext
  obtain rfl := (Command.mk.inj hcommand).1
  obtain ⟨hstart, hstop⟩ := Edit.readable_of_ofLine? he
  have hranges := hs.sound.timeline.rangesOver hstart.ne_nan hstop.ne_nan verb
    (lookupAt host d)
  have hrun := meets_executeOne_told hC (fun _ => id) ⟨.range verb start stop, line⟩ trivial
    hs.sound
  obtain ⟨d', hexecute, htimeline, htells⟩ :=
    hrun.ok_of_eq (fun _ _ hf => hf.1) (Timeline.execute_ok rfl)
  rw [← htimeline] at hranges
  exact ⟨_, _, d', hexecute, htells, hranges⟩

omit hC

theorem range_acts_on_shared_patchy :
  (Conduct.quiet _).Binds .reel ∧ patchy.store.Reachable
    ∧ Command.ofLine? " SHOW 00:00:01.000 00:00:04.000" 7
      = some ⟨.range .reveal (.ofInt 1) (.ofInt 4), 7⟩
    ∧ ∃ ids d', executeOne .reel ⟨.range .reveal (.ofInt 1) (.ofInt 4), 7⟩ patchy
        = .ok ⟨⟨.range .reveal (.ofInt 1) (.ofInt 4), 7⟩, .ok ids⟩ d'
      ∧ ids = [2, 4]
      ∧ d'.store.timeline.segments.map (·.visible) = [true, true, true]
  := by
  have hreachable : patchy.store.Reachable := reachable_onRecord _
  have htext : Command.ofLine? " SHOW 00:00:01.000 00:00:04.000" 7
      = some ⟨.range .reveal (.ofInt 1) (.ofInt 4), 7⟩ := by
    decide +kernel
  obtain ⟨ids, events, d', hexecute, -, hranges⟩ :=
    range_acts_on_shared Conduct.quiet_reel hreachable htext
  have hacts := hranges.proper (by decide +kernel)
  refine ⟨Conduct.quiet_reel, hreachable, htext, ids, d', hexecute, ?_, ?_⟩
  · rw [hacts.ids]
    decide +kernel
  · rw [hacts.timeline]
    decide +kernel

/-! ### Ranges without instants -/

/-- A desk with a file of ten seconds. -/
def wholeReel : Desk (List Event) :=
  onRecord (fun _ => .ok (.ofInt 10)) [.single ⟨.load "a.mp4", 1⟩]

/-- A range that ends before it starts deletes a segment, and one that ends where it starts
hides it, though neither shares an instant with it. -/
theorem backward_range_acts :
  wholeReel.store.Reachable
    ∧ Command.ofLine? "DELETE 00:00:07.000 00:00:03.000" 2
      = some ⟨.range .delete (.ofInt 7) (.ofInt 3), 2⟩
    ∧ Command.ofLine? "HIDE 00:00:05.000 00:00:05.000" 2
      = some ⟨.range .hide (.ofInt 5) (.ofInt 5), 2⟩
    ∧ (∀ x ∈ wholeReel.store.timeline.segments,
      ¬ x.Shares (.ofInt 7) (.ofInt 3) ∧ ¬ x.Shares (.ofInt 5) (.ofInt 5))
    ∧ Deed.affected? .reel ⟨⟨.range .delete (.ofInt 7) (.ofInt 3), 2⟩, wholeReel⟩ = some [1]
    ∧ (Deed.left .reel ⟨⟨.range .delete (.ofInt 7) (.ofInt 3), 2⟩, wholeReel⟩).store.segments = []
    ∧ Deed.affected? .reel ⟨⟨.range .hide (.ofInt 5) (.ofInt 5), 2⟩, wholeReel⟩ = some [1]
    ∧ (Deed.left .reel ⟨⟨.range .hide (.ofInt 5) (.ofInt 5), 2⟩, wholeReel⟩).store.segments.map
      (·.visible) = [false]
  := by
  refine ⟨reachable_onRecord _, ?_⟩
  decide +kernel

end Montage.Desk
