import Montage.Proofs.Desk.Deeds
import Montage.Proofs.Desk.Recorder

/-!
# Reachable stores

A store is reachable if commands have made it of an empty one, among quiet surroundings.  Such
a store is sound.
-/

namespace Montage

/-- A store that calls with commands have made of an empty one, among quiet surroundings. -/
def Store.Reachable (s : Store) : Prop :=
  ∃ (ε : Type) (host : Surroundings ε) (d : Desk ε) (calls : List Montage.Call),
    (Conduct.quiet ε).Binds host ∧ d.store.held = [] ∧ (Desk.leftBy host calls d).store = s

theorem Store.Reachable.sound {s : Store} (h : s.Reachable) :
  s.Sound
  := by
  obtain ⟨ε, host, d, calls, hC, hempty, rfl⟩ := h
  have hkeeps : Deed.Keeps host fun _ _ => True := fun _ _ _ _ => trivial
  have harrives : Deed.Arrives host _ [] _ _ :=
    Desk.arrives_calls hC hkeeps calls (Store.sound_of_empty hempty) trivial
  apply harrives.sound

/-! ### Stores made with a record kept -/

variable {media : String → Except Fault Double}

theorem Conduct.quiet_recording :
  (Conduct.quiet (List Event)).Binds (.recording media)
  := Surroundings.binds_recording fun _ _ => rfl

/-- What calls make of a desk with nothing loaded, at which a listener keeps a record. -/
def Desk.onRecord (media : String → Except Fault Double) (calls : List Call) :
    Desk (List Event) :=
  leftBy (.recording media) calls { listeners := [0], surroundings := [] }

theorem Desk.reachable_onRecord (calls : List Call) :
  (onRecord media calls).store.Reachable
  := ⟨_, _, _, calls, Conduct.quiet_recording, rfl, rfl⟩

/-- A listener keeps a record, and every file is ten seconds long. -/
def Surroundings.reel : Surroundings (List Event) :=
  .recording fun _ => .ok (.ofInt 10)

theorem Conduct.quiet_reel :
  (Conduct.quiet _).Binds .reel
  := quiet_recording

/-- A desk with a file of ten seconds, of which the part from two to four is hidden and the part
from four to six is deleted. -/
def Desk.patchy : Desk (List Event) :=
  onRecord (fun _ => .ok (.ofInt 10))
    [.batch [⟨.load "a.mp4", 1⟩, ⟨.cut (.ofInt 2), 2⟩, ⟨.cut (.ofInt 4), 3⟩, ⟨.cut (.ofInt 6), 4⟩,
      ⟨.range .hide (.ofInt 2) (.ofInt 4), 5⟩, ⟨.range .delete (.ofInt 4) (.ofInt 6), 6⟩] .never]

end Montage
