import Mathlib.Data.List.Dedup
import Montage.Proofs.Desk.Batch
import Montage.Proofs.Desk.Reachable
import Montage.Proofs.Timeline.Cuts

/-!
# Batches of cuts

The order of the cuts in a batch does not matter to the clips it leads to, or to how many of
the cuts succeed: `Desk.cuts_commute`.  Nor do the lines on which they stand, as long as a cut
that fails can be reported with its line.
-/

namespace Montage

theorem Store.Sound.clips_proper {s : Store} (h : s.Sound) :
  ∀ c ∈ s.timeline.clips, c.Proper
  := by
  intro c hc
  obtain ⟨x, hx, rfl⟩ := List.mem_map.mp hc
  apply h.timeline.proper x hx

namespace Desk

variable {ε : Type} {host : Surroundings ε} (hC : (Conduct.quiet ε).Binds host) {d : Desk ε}

include hC

/-- A batch of cuts among quiet surroundings. -/
theorem execute_cuts (hs : d.store.Sound) {times : List Double} {cs : List Command}
    (hcs : cs.map (·.edit) = times.map .cut)
    (htimes : ∀ time ∈ times, Timecode.Expressible time) (hlines : Command.Writable cs)
    (poll : Poll) :
  ∃ report d', ∃ made : List Double, execute host cs poll d = .ok report d'
    ∧ d'.store.timeline.clips = times.foldl Clip.cutEach d.store.timeline.clips
    ∧ report.Cut made ∧ made.Nodup
    ∧ ∀ time, time ∈ made ↔ time ∈ times ∧ Clip.Enclosed d.store.timeline.clips time
  := by
  have hload : ∀ c ∈ cs, ∀ path, c.edit ≠ .load path := by
    intro c hc path hedit
    have hmem : c.edit ∈ times.map Edit.cut := hcs ▸ List.mem_map_of_mem hc
    obtain ⟨time, -, htime⟩ := List.mem_map.mp hmem
    cases htime.trans hedit
  have hrun := meets_execute_unloaded hC (fun _ => id) (fun _ => .ok .zero) hload poll (d := d)
    trivial hs
  obtain ⟨t, report, made, hfollow, hclips, hachieved, hnodup, hmade⟩ :=
    Timeline.follow_cuts (fun _ => .ok .zero) hcs htimes hlines hs.clips_proper
  obtain ⟨d', hexecute, rfl, -⟩ := hrun.ok_of_eq (fun _ _ hf => hf) hfollow
  exact ⟨report, d', made, hexecute, hclips, hachieved, hnodup, hmade⟩

/-- Cuts commute.  Two batches of the same cuts in different orders lead to the same clips and
have as many successes.  The bounds of the clips are the old ones and the times that lay inside
of a clip, at each of which either batch has cut once. -/
theorem cuts_commute (hs : d.store.Reachable) {times times' : List Double}
    (hperm : times.Perm times') (htimes : ∀ time ∈ times, Timecode.Expressible time)
    {cs cs' : List Command} (hcs : cs.map (·.edit) = times.map .cut)
    (hcs' : cs'.map (·.edit) = times'.map .cut) (hlines : Command.Writable cs)
    (hlines' : Command.Writable cs') (poll poll' : Poll) :
  ∃ report d₁ report' d₂, ∃ made made' : List Double,
    execute host cs poll d = .ok report d₁ ∧ execute host cs' poll' d = .ok report' d₂
    ∧ d₁.store.timeline.clips = d₂.store.timeline.clips
    ∧ report.succeeded = report'.succeeded
    ∧ (∀ time, Clip.Bounded d₁.store.timeline.clips time
      ↔ Clip.Bounded d.store.timeline.clips time
        ∨ (time ∈ times ∧ Clip.Enclosed d.store.timeline.clips time))
    ∧ report.Cut made ∧ report'.Cut made' ∧ made.Perm made' ∧ made.Nodup
    ∧ ∀ time, time ∈ made ↔ time ∈ times ∧ Clip.Enclosed d.store.timeline.clips time
  := by
  have htimes' : ∀ time ∈ times', Timecode.Expressible time :=
    fun time htime => htimes time (hperm.mem_iff.mpr htime)
  obtain ⟨report, d₁, made, hexecute, hclips, hcut, hnodup, hmade⟩ :=
    execute_cuts hC hs.sound hcs htimes hlines poll
  obtain ⟨report', d₂, made', hexecute', hclips', hcut', hnodup', hmade'⟩ :=
    execute_cuts hC hs.sound hcs' htimes' hlines' poll'
  have hsame : made.Perm made' := by
    apply (List.perm_ext_iff_of_nodup hnodup hnodup').mpr
    intro time
    rw [hmade, hmade', hperm.mem_iff]
  refine ⟨report, d₁, report', d₂, made, made', hexecute, hexecute', ?_, ?_, ?_, hcut, hcut',
    hsame, hnodup, hmade⟩
  · rw [hclips, hclips', Clip.foldl_cutEach_perm hs.sound.clips_proper hperm]
  · rw [hcut.succeeded, hcut'.succeeded, hsame.length_eq]
  · intro time
    rw [hclips, Clip.bounded_foldl hs.sound.clips_proper]

omit hC

/-- Times inside of segments, one of them twice, at an end, in a gap and after all segments. -/
def scattered : List Double :=
  [.ofInt 7, .ofInt 3, .ofInt 2, .ofInt 7, .ofInt 5, .ofInt 20]

/-- Cuts at some times, all on one line. -/
def cutsAt (times : List Double) : List Command :=
  times.map fun time => ⟨.cut time, 1⟩

theorem edit_cutsAt (times : List Double) :
  (cutsAt times).map (·.edit) = times.map .cut
  := by
  rw [cutsAt, List.map_map]
  rfl

theorem writable_cutsAt (times : List Double) :
  Command.Writable (cutsAt times)
  := by
  intro c hc
  obtain ⟨time, -, rfl⟩ := List.mem_map.mp hc
  apply Text.isWritable_of_lt (n := 1)
  decide

theorem cuts_commute_scattered :
  (Conduct.quiet _).Binds .reel ∧ patchy.store.Reachable
    ∧ scattered.Perm scattered.reverse ∧ (∀ time ∈ scattered, Timecode.Expressible time)
    ∧ ∃ report d₁ report' d₂,
      execute .reel (cutsAt scattered) .never patchy = .ok report d₁
      ∧ execute .reel (cutsAt scattered.reverse) .never patchy = .ok report' d₂
      ∧ d₁.store.timeline.clips = d₂.store.timeline.clips
      ∧ report.succeeded = 2 ∧ report'.succeeded = 2
      ∧ Clip.Bounded d₂.store.timeline.clips (.ofInt 3)
  := by
  have hreachable : patchy.store.Reachable := reachable_onRecord _
  have hperm : scattered.Perm scattered.reverse := scattered.reverse_perm.symm
  have htimes : ∀ time ∈ scattered, Timecode.Expressible time := by decide +kernel
  obtain ⟨report, d₁, report', d₂, made, made', hexecute, hexecute', hclips, hsucceeded, hbounded,
    hcut, -, -, hnodup, hmade⟩ :=
    cuts_commute Conduct.quiet_reel hreachable hperm htimes (edit_cutsAt scattered)
      (edit_cutsAt scattered.reverse) (writable_cutsAt _) (writable_cutsAt _) .never .never
  have hinside : made.Perm
      (scattered.filter fun time => Clip.Enclosed patchy.store.timeline.clips time).dedup := by
    apply (List.perm_ext_iff_of_nodup hnodup (List.nodup_dedup _)).mpr
    intro time
    rw [hmade, List.mem_dedup, List.mem_filter, decide_eq_true_iff]
  have htwo : report.succeeded = 2 := by
    rw [hcut.succeeded, hinside.length_eq]
    decide +kernel
  have hthree : Clip.Bounded d₁.store.timeline.clips (.ofInt 3) :=
    (hbounded _).mpr (Or.inr (by decide +kernel))
  exact ⟨Conduct.quiet_reel, hreachable, hperm, htimes, report, d₁, report', d₂, hexecute,
    hexecute', hclips, htwo, hsucceeded.symm.trans htwo, hclips ▸ hthree⟩

end Desk

end Montage
