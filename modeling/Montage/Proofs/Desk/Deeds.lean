import Montage.Proofs.Desk.Execute
import Montage.Proofs.Desk.Turn

/-!
# Calls and deeds

Commands reach a desk in three ways: in a batch, one alone, or as a direct cut.  Each command
that is executed is a `Deed`, recorded with the desk at that moment.  A statement about the
deeds done so far and the timeline they have led to holds throughout every sequence of calls
if every single deed keeps it: `Desk.meets_calls`.
-/

namespace Montage

/-- A command that was executed, with the desk at that moment. -/
structure Deed (ε : Type) where
  command : Command
  before : Desk ε

/-- A way in which commands reach a desk. -/
inductive Call where
  | batch (commands : List Command) (poll : Poll)
  | single (command : Command)
  | direct (time : Double)

variable {ε : Type} (host : Surroundings ε)

namespace Deed

/-- The desk that a deed left. -/
def left (x : Deed ε) : Desk ε :=
  Desk.after (Desk.executeOne host x.command) x.before

/-- The ids of the segments that a deed affected, if it succeeded. -/
def affected? (x : Deed ε) : Option (List Int) :=
  match Desk.executeOne host x.command x.before with
  | .ok r _ => r.outcome.toOption
  | .error _ _ => none

end Deed

/-- The deeds of a batch.  It ends with a command that was given up because the document has
changed, and with a command that failed altogether. -/
def Desk.deeds : List Command → Desk ε → List (Deed ε)
  | [], _ => []
  | c :: rest, d =>
    ⟨c, d⟩ ::
      match executeOne host c d with
      | .ok r d' => if r.isCancelled then [] else deeds rest d'
      | .error _ _ => []

namespace Call

/-- The desk that a call leaves, whether it succeeds or fails. -/
def left (call : Call) (d : Desk ε) : Desk ε :=
  match call with
  | batch commands poll => Desk.after (Desk.execute host commands poll) d
  | single command => Desk.after (Desk.executeOne host command) d
  | direct time => Desk.after (Desk.insertCut host time) d

/-- The deeds of a call.  A direct cut is ignored while a text is being evaluated. -/
def deeds (call : Call) (d : Desk ε) : List (Deed ε) :=
  match call with
  | batch commands poll => Desk.deeds host commands { d with poll := poll }
  | single command => [⟨command, d⟩]
  | direct time =>
    if d.phase = .parsing then [] else [⟨⟨.cut time, 0⟩, { d with phase := .parsing }⟩]

end Call

namespace Desk

/-- The desk that a sequence of calls leaves. -/
def leftBy (calls : List Call) (d : Desk ε) : Desk ε :=
  calls.foldl (fun d call => call.left host d) d

/-- The deeds of a sequence of calls. -/
def deedsOf : List Call → Desk ε → List (Deed ε)
  | [], _ => []
  | call :: rest, d => call.deeds host d ++ deedsOf rest (call.left host d)

end Desk

/-! ### Quiet surroundings -/

/-- Those who surround a desk keep away from the store and raise nothing, save that lookups
may fail in any way. -/
def Conduct.quiet (ε : Type) : Conduct ε where
  Holds _ := True
  Allows d d' := d'.store = d.store
  Raises _ := False
  refl _ := rfl
  trans h h' := h'.trans h
  store h := h
  withStore _ _ := rfl
  holds _ _ := trivial
  holds_withStore _ _ := trivial
  asked {d} _ := by
    unfold Desk.asked
    split <;> rfl
  not_script h := h

/-! ### What a deed keeps -/

variable {host} (hC : (Conduct.quiet ε).Binds host)

include hC

/-- A deed on a sound store leaves a sound store.  Either it has succeeded and made of the
timeline what its edit should, or its edit was refused and the timeline is as it was. -/
theorem Deed.left_cases (x : Deed ε) (hs : x.before.store.Sound) :
  (x.left host).store.Sound
    ∧ ((∃ ids, x.affected? host = some ids
          ∧ x.before.store.timeline.edit (Desk.lookupAt host x.before) x.command.edit
            = .ok ((x.left host).store.timeline, ids))
      ∨ (x.affected? host = none
          ∧ (∃ f, x.before.store.timeline.edit (Desk.lookupAt host x.before) x.command.edit
            = .error f)
          ∧ (x.left host).store.timeline = x.before.store.timeline))
  := by
  have hmeets := Desk.meets_executeOne hC trivial hs x.command
  unfold Deed.left Deed.affected? Desk.after
  cases hx : Desk.executeOne host x.command x.before with
  | ok r d' =>
      obtain ⟨t, hexecute, hreaches⟩ := (Desk.meets_of_ok hx).mp hmeets
      refine ⟨hreaches.sound, ?_⟩
      dsimp only
      rw [hreaches.timeline]
      rcases Timeline.of_execute hexecute with ⟨ids, rfl, hedit⟩ | ⟨cause, rfl, rfl, hedit⟩
      · left
        exact ⟨ids, rfl, hedit⟩
      · right
        exact ⟨rfl, ⟨_, hedit⟩, rfl⟩
  | error f d' =>
      rcases (Desk.meets_of_error hx).mp hmeets with ⟨hraises, -⟩ | ⟨hexecute, hreaches⟩
      · apply hraises.elim
      · refine ⟨hreaches.sound, Or.inr ⟨rfl, ?_, hreaches.timeline⟩⟩
        apply Timeline.of_execute_error hexecute

omit hC

/-- A statement about the deeds done so far and the timeline they have led to, kept by every
deed. -/
def Deed.Keeps (host : Surroundings ε) (I : List (Deed ε) → Timeline → Prop) : Prop :=
  ∀ past x, x.before.store.Sound → I past x.before.store.timeline →
    I (past ++ [x]) (x.left host).store.timeline

/-- Such a statement holds after each of given deeds. -/
def Deed.Throughout (host : Surroundings ε) (I : List (Deed ε) → Timeline → Prop) :
    List (Deed ε) → List (Deed ε) → Prop
  | _, [] => True
  | past, x :: rest =>
    I (past ++ [x]) (x.left host).store.timeline ∧ Deed.Throughout host I (past ++ [x]) rest

variable {I : List (Deed ε) → Timeline → Prop}

theorem Deed.Throughout.append {past xs ys : List (Deed ε)} (hxs : Throughout host I past xs)
    (hys : Throughout host I (past ++ xs) ys) :
  Throughout host I past (xs ++ ys)
  := by
  induction xs generalizing past with
  | nil => simpa using hys
  | cons x rest ih =>
      refine ⟨hxs.1, ih hxs.2 ?_⟩
      simpa using hys

/-- What holds throughout holds after each of the deeds. -/
theorem Deed.Throughout.at {past xs ys : List (Deed ε)} {x : Deed ε}
    (h : Throughout host I past (xs ++ x :: ys)) :
  I (past ++ xs ++ [x]) (x.left host).store.timeline
  := by
  induction xs generalizing past with
  | nil => simpa using h.1
  | cons y rest ih => simpa using ih h.2

/-- Deeds that lead to a desk with a sound store, and what holds throughout and at the end. -/
structure Deed.Arrives (host : Surroundings ε) (I : List (Deed ε) → Timeline → Prop)
    (past xs : List (Deed ε)) (d : Desk ε) : Prop where
  sound : d.store.Sound
  throughout : Deed.Throughout host I past xs
  atEnd : I (past ++ xs) d.store.timeline

theorem Deed.Arrives.trans {past xs ys : List (Deed ε)} {d d' : Desk ε}
    (h : Arrives host I past xs d) (h' : Arrives host I (past ++ xs) ys d') :
  Arrives host I past (xs ++ ys) d'
  := ⟨h'.sound, h.throughout.append h'.throughout, by rw [← List.append_assoc]; apply h'.atEnd⟩

/-! ### What calls keep -/

namespace Desk

include hC

variable (hI : Deed.Keeps host I)

include hI

/-- One deed. -/
theorem arrives_deed {past : List (Deed ε)} (x : Deed ε) (hs : x.before.store.Sound)
    (h : I past x.before.store.timeline) :
  Deed.Arrives host I past [x] (x.left host)
  := by
  have h' := hI past x hs h
  exact ⟨(x.left_cases hC hs).1, ⟨h', trivial⟩, h'⟩

/-- The deeds of commands that are executed in order. -/
theorem meets_executeAll (commands : List Command) {d : Desk ε} {past : List (Deed ε)}
    (hs : d.store.Sound) (h : I past d.store.timeline) :
  Meets (executeAll host commands) d
    (fun _ => Deed.Arrives host I past (deeds host commands d))
    (fun _ => Deed.Arrives host I past (deeds host commands d))
  := by
  induction commands generalizing d past with
  | nil =>
      rw [executeAll, meets_pure]
      exact ⟨hs, trivial, by simpa [deeds] using h⟩
  | cons c rest ih =>
      have hfirst := arrives_deed hC hI ⟨c, d⟩ hs h
      rw [executeAll, meets_bind]
      unfold Deed.left after at hfirst
      rw [deeds]
      cases hx : executeOne host c d with
      | error f d' =>
          rw [hx] at hfirst
          rw [meets_of_error hx]
          apply hfirst
      | ok r d' =>
          rw [hx] at hfirst
          rw [meets_of_ok hx]
          dsimp only at hfirst ⊢
          split
          · rw [meets_pure]
            apply hfirst
          · rw [meets_bind]
            apply (ih hfirst.sound hfirst.atEnd).mono
            · intro report d'' h''
              rw [meets_pure]
              apply hfirst.trans h''
            · intro f d'' h''
              apply hfirst.trans h''

/-- The deeds of a call. -/
theorem arrives_call (call : Call) {d : Desk ε} {past : List (Deed ε)} (hs : d.store.Sound)
    (h : I past d.store.timeline) :
  Deed.Arrives host I past (call.deeds host d) (call.left host d)
  := by
  cases call with
  | batch commands poll =>
      apply Meets.after
      unfold execute
      rw [meets_bind, setPoll, meets_modify]
      apply (meets_finally _ _).mpr
      apply (meets_executeAll hC hI commands (d := { d with poll := poll }) hs h).mono
      · intro _ d' h'
        exact ⟨h'.sound, h'.throughout, h'.atEnd⟩
      · intro _ d' h'
        exact ⟨h'.sound, h'.throughout, h'.atEnd⟩
  | single command => apply arrives_deed hC hI ⟨command, d⟩ hs h
  | direct time =>
      apply Meets.after
      rw [Call.deeds]
      split
      · rename_i hphase
        rw [meets_insertCut_parsing time hphase]
        exact ⟨hs, trivial, by simpa [logged] using h⟩
      · rename_i hphase
        rw [meets_insertCut time hphase]
        have hdeed := arrives_deed hC hI ⟨⟨.cut time, 0⟩, { d with phase := .parsing }⟩ hs h
        apply (meets_self _ _).mono
        · intro r d' hx
          rw [Deed.left, after, hx] at hdeed
          exact ⟨hdeed.sound, hdeed.throughout, hdeed.atEnd⟩
        · intro f d' hx
          rw [Deed.left, after, hx] at hdeed
          exact ⟨hdeed.sound, hdeed.throughout, hdeed.atEnd⟩

/-- The deeds of a sequence of calls. -/
theorem arrives_calls (calls : List Call) {d : Desk ε} {past : List (Deed ε)}
    (hs : d.store.Sound) (h : I past d.store.timeline) :
  Deed.Arrives host I past (deedsOf host calls d) (leftBy host calls d)
  := by
  induction calls generalizing d past with
  | nil => exact ⟨hs, trivial, by simpa [deedsOf, leftBy] using h⟩
  | cons call rest ih =>
      have hcall := arrives_call hC hI call hs h
      apply hcall.trans (ih hcall.sound hcall.atEnd)

end Desk

end Montage
