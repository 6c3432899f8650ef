import Montage.Proofs.Desk.Batch
import Montage.Proofs.Desk.Reachable
import Montage.Proofs.Timeline.Presenting

/-!
# Batches that hide and show ranges

A batch of commands that hide or show ranges succeeds altogether, and of the commands that
reach a segment the last settles how it is presented: `Desk.last_presents`.
-/

namespace Montage.Desk

variable {ε : Type} {host : Surroundings ε} (hC : (Conduct.quiet ε).Binds host) {d : Desk ε}

include hC

/-- The last command wins.  Commands that hide or show ranges succeed, and each affects and
updates the segments that its range overlaps, in order.  The segments and the next id stay as
they were, but that each segment is presented as the last command to reach it says. -/
theorem last_presents (hs : d.store.Reachable) {cs : List Command}
    (hcs : ∀ c ∈ cs, c.Presenting) (poll : Poll) :
  ∃ d', execute host cs poll d
      = .ok ⟨cs.map fun c => ⟨c, .ok (d.store.timeline.reachedBy c)⟩, false⟩ d'
    ∧ d'.store.timeline = d.store.timeline.presentedBy cs
    ∧ host.Tells (cs.flatMap d.store.timeline.updatedBy) d d'
  := by
  have hload : ∀ c ∈ cs, ∀ path, c.edit ≠ .load path := by
    intro c hc path hedit
    obtain ⟨start, stop, h | h⟩ := hcs c hc
    · cases h.symm.trans hedit
    · cases h.symm.trans hedit
  have hrun := meets_execute_unloaded hC (fun _ => id) (fun _ => .ok .zero) hload poll (d := d)
    trivial hs.sound
  obtain ⟨hfollow, htold⟩ := d.store.timeline.follow_presenting (fun _ => .ok .zero) hcs
  rw [htold] at hrun
  apply hrun.ok_of_eq (fun _ _ hf => hf) hfollow

omit hC

/-- Commands of which the later undo some of what the earlier do, and a range that ends before
it starts. -/
def overlays : List Command :=
  [⟨.range .reveal (.ofInt 1) (.ofInt 7), 1⟩, ⟨.range .hide (.ofInt 3) (.ofInt 8), 2⟩,
    ⟨.range .hide (.ofInt 9) (.ofInt 1), 3⟩, ⟨.range .reveal (.ofInt 9) (.ofInt 20), 4⟩]

theorem last_presents_overlays :
  (Conduct.quiet _).Binds .reel ∧ patchy.store.Reachable ∧ (∀ c ∈ overlays, c.Presenting)
    ∧ ∃ report d', execute .reel overlays .never patchy = .ok report d'
      ∧ report.results.map (·.affected) = [[2, 4, 7], [4, 7], [], [7]]
      ∧ d'.store.timeline.segments.map (·.visible) = [true, false, true]
      ∧ d'.surroundings.length = patchy.surroundings.length + 6
  := by
  have hreachable : patchy.store.Reachable := reachable_onRecord _
  have hcs : ∀ c ∈ overlays, c.Presenting := by
    simp [overlays, Command.Presenting]
  have hcount : patchy.listeners.count 0 = 1 := by decide +kernel
  obtain ⟨d', hexecute, htimeline, htells⟩ :=
    last_presents Conduct.quiet_reel hreachable hcs .never
  have hrecord := (htells 0 id Surroundings.recorder_recording hcount).record
  refine ⟨Conduct.quiet_reel, hreachable, hcs, _, d', hexecute, ?_, ?_, ?_⟩
  · decide +kernel
  · rw [htimeline]
    decide +kernel
  · rw [← id_eq d'.surroundings, hrecord, List.length_append]
    decide +kernel

end Montage.Desk
