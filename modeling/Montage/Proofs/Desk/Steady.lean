import Montage.Proofs.Desk.Turn
import Montage.Proofs.Double.Order

/-!
# Properties that evaluations keep

An operation `Keeps` a property of desks if the property holds of the desk it leaves whenever
it held before, whether the operation succeeds or fails.  A property is `Steady` among given
surroundings if lookups and each single change of the store keep it.  Then all edits and
batches of commands keep it, and so do evaluations of texts if those who follow them keep it:
`Steady.evaluate`.
-/

namespace Montage

namespace Desk

variable {ε α β : Type} {host : Surroundings ε} {I : Desk ε → Prop}

/-- An operation that keeps a property of desks, in success and in failure. -/
def Keeps (I : Desk ε → Prop) (x : Run ε α) : Prop :=
  ∀ d, I d → Meets x d (fun _ => I) (fun _ => I)

theorem Keeps.after {x : Run ε α} (h : Keeps I x) {d : Desk ε} (hd : I d) :
  I (after x d)
  := (h d hd).after

/-! ### Operations put together -/

theorem keeps_pure (a : α) :
  Keeps I (pure a)
  := fun _ hd => (meets_pure a).mpr hd

theorem keeps_throw (f : Fault) :
  Keeps I (throw f : Run ε α)
  := fun _ hd => (meets_throw f).mpr hd

theorem keeps_get :
  Keeps I get
  := fun _ hd => meets_get.mpr hd

theorem keeps_modify {g : Desk ε → Desk ε} (h : ∀ d, I d → I (g d)) :
  Keeps I (modify g)
  := fun d hd => (meets_modify g).mpr (h d hd)

theorem keeps_ofExcept (x : Except Fault α) :
  Keeps I (ofExcept x)
  := by
  cases x with
  | ok a => apply keeps_pure
  | error f => apply keeps_throw

theorem Keeps.bind {x : Run ε α} {k : α → Run ε β} (hx : Keeps I x)
    (hk : ∀ a, Keeps I (k a)) :
  Keeps I (x >>= k)
  := by
  intro d hd
  rw [meets_bind]
  apply (hx d hd).imp
  intro a d' hd'
  apply hk a d' hd'

/-- What is done at the desk as it is found. -/
theorem keeps_get_bind {k : Desk ε → Run ε β}
    (h : ∀ d, I d → Meets (k d) d (fun _ => I) (fun _ => I)) :
  Keeps I (get >>= k)
  := by
  intro d hd
  rw [meets_bind, meets_get]
  apply h d hd

/-- Nothing is done after a failure. -/
theorem keeps_throw_bind (f : Fault) (k : α → Run ε β) :
  Keeps I ((throw f : Run ε α) >>= k)
  := by
  intro d hd
  rw [meets_bind, meets_throw]
  apply hd

/-- What is done with a clip whose times are in order. -/
theorem keeps_checked_bind {c : Clip} {k : Clip → Run ε β} (h : Keeps I (k c)) :
  Keeps I (ofExcept c.checked >>= k)
  := by
  unfold Clip.checked
  split
  · apply keeps_throw_bind
  · split
    · apply keeps_throw_bind
    · intro d hd
      rw [meets_bind, meets_ofExcept_ok]
      apply h d hd

theorem Keeps.map {x : Run ε α} (hx : Keeps I x) (k : α → β) :
  Keeps I (k <$> x)
  := by
  intro d hd
  rw [meets_map]
  apply hx d hd

theorem Keeps.tryCatch {x : Run ε α} {k : Fault → Run ε α} (hx : Keeps I x)
    (hk : ∀ f, Keeps I (k f)) :
  Keeps I (tryCatch x k)
  := by
  intro d hd
  rw [meets_tryCatch]
  apply (hx d hd).mono
  · intro _ _ hd'
    apply hd'
  · intro f d' hd'
    apply hk f d' hd'

theorem Keeps.finally {x : Run ε α} (hx : Keeps I x) {g : Desk ε → Desk ε}
    (h : ∀ d, I d → I (g d)) :
  Keeps I (tryFinally x (modify g : Run ε PUnit))
  := by
  intro d hd
  rw [meets_finally]
  apply (hx d hd).mono
  · intro _ d' hd'
    apply h d' hd'
  · intro _ d' hd'
    apply h d' hd'

theorem keeps_refreshed (record : Held) :
  Keeps I (refreshed record)
  := keeps_get.bind fun _ => keeps_pure _

theorem keeps_tell (h : ∀ listener event, Keeps I (host.onEvent listener event))
    (kind : EventKind) (tag : Option Nat) (listeners : List Nat) :
  Keeps I (tell host kind tag listeners)
  := by
  induction listeners with
  | nil => apply keeps_pure
  | cons listener rest ih =>
      apply keeps_get_bind
      intro d hd
      apply (h listener _).bind (fun _ => ih) d hd

theorem keeps_announce (h : ∀ listener event, Keeps I (host.onEvent listener event))
    (kind : EventKind) (tag : Option Nat) :
  Keeps I (announce host kind tag)
  := by
  apply keeps_get_bind
  intro d hd
  apply keeps_tell h kind tag d.listeners d hd

theorem keeps_publish {pass : Pass} (h : ∀ listener, Keeps I (host.onPass listener pass))
    (listeners : List Nat) :
  Keeps I (publish host pass listeners)
  := by
  induction listeners with
  | nil => apply keeps_pure
  | cons listener rest ih => apply (h listener).bind fun _ => ih

theorem keeps_complain (h : ∀ listener message, Keeps I (host.onError listener message))
    (message : String) (listeners : List Nat) :
  Keeps I (complain host message listeners)
  := by
  induction listeners with
  | nil => apply keeps_pure
  | cons listener rest ih => apply (h listener message).bind fun _ => ih

/-! ### Steady properties -/

/-- A property that is kept by lookups and by every change of the store that commands make. -/
structure Steady (host : Surroundings ε) (I : Desk ε → Prop) : Prop where
  log (line : String) : Keeps I (log host line)
  marks {d : Desk ε} (h : I d) (poll : Poll) (fingerprint : Option String) (last : Option Pass) :
    I { d with poll := poll, fingerprint := fingerprint, last := last }
  lookup (path : String) : Keeps I (host.lookup path)
  clear : Keeps I (clear host)
  add {clip : Clip} (h : clip.start ≠ .nan) : Keeps I (add host clip none)
  remove (id : Int) : Keeps I (remove host id)
  showAll {d : Desk ε} (h : I d) (visible : Bool) (state : PlayState) (start stop : Double) :
    Meets (showAll host visible state (d.store.overlapping start stop)) d (fun _ => I) (fun _ => I)

/-- A property that does not regard the store is steady if listeners and lookups keep it. -/
theorem steady_of_withStore (hstore : ∀ d, I d → ∀ s, I { d with store := s })
    (hmarks : ∀ d, I d → ∀ poll fingerprint last,
      I { d with poll := poll, fingerprint := fingerprint, last := last })
    (hlog : ∀ line, Keeps I (log host line))
    (hevent : ∀ listener event, Keeps I (host.onEvent listener event))
    (hlookup : ∀ path, Keeps I (host.lookup path)) :
  Steady host I
  := by
  have hmodify : ∀ f : Store → Store, Keeps I (modifyStore f) :=
    fun f => keeps_modify fun d hd => hstore d hd (f d.store)
  have hannounce := keeps_announce hevent
  have hput : ∀ record, Keeps I (put host record) := by
    intro record
    apply keeps_get_bind
    intro d hd
    cases d.store.replace record with
    | none => apply keeps_pure _ d hd
    | some s =>
        simp only [meets_bind, meets_set]
        apply hannounce .updated (some record.tag) _ (hstore d hd s)
  have hshowAll : ∀ visible state records, Keeps I (showAll host visible state records) := by
    intro visible state records
    induction records with
    | nil => apply keeps_pure
    | cons record rest ih =>
        apply (hmodify _).bind
        intro _
        apply (keeps_refreshed record).bind
        intro x
        apply (hput _).bind
        intro _
        apply (keeps_refreshed record).bind
        intro y
        apply ih.bind
        intro ids
        apply keeps_pure
  constructor
  · apply hlog
  · intro d hd
    apply hmarks d hd
  · apply hlookup
  · apply (hmodify _).bind
    intro _
    apply hannounce
  · intro clip _
    apply keeps_get_bind
    intro d hd
    apply (keeps_ofExcept _).bind _ d hd
    rintro ⟨s, record⟩ _ _
    simp only [meets_bind, meets_set, meets_pure]
    apply hannounce .added (some record.tag) _ (hstore d hd s)
  · intro id
    apply keeps_get_bind
    intro d hd
    cases d.store.erase id with
    | none => apply keeps_pure _ d hd
    | some erased =>
        simp only [meets_bind, meets_set]
        apply hannounce .removed _ _ (hstore d hd erased.1)
  · intro d hd visible state start stop
    apply hshowAll _ _ _ d hd

namespace Steady

variable (h : Steady host I)

include h

/-! ### Commands -/

theorem playableDuration (path : String) :
  Keeps I (playableDuration host path)
  := by
  have hlookup : Keeps I (tryCatch (host.lookup path) fun f => throw (lookupFault path f)) :=
    (h.lookup path).tryCatch fun f => keeps_throw _
  have hpoll : Keeps I (poll? : Run ε Bool) := by
    intro d hd
    rw [meets_poll?]
    unfold asked
    split
    · apply h.marks hd
    · apply hd
  unfold Desk.playableDuration
  split
  · apply keeps_throw_bind
  · apply hlookup.bind
    intro duration
    split
    · apply keeps_throw_bind
    · apply hpoll.bind
      intro answer
      split
      · apply keeps_throw_bind
      · apply keeps_pure

theorem load (path : String) :
  Keeps I (load host path)
  := by
  apply (h.playableDuration path).bind
  intro duration
  apply h.clear.bind
  intro _
  apply Keeps.bind
  · apply h.add
    apply Double.ne_nan_of_le_right Double.zero_le_zero
  intro record
  apply (h.log _).bind
  intro _
  apply (keeps_refreshed record).bind
  intro x
  apply keeps_pure

theorem cut (time : Double) :
  Keeps I (cut host time)
  := by
  apply keeps_get_bind
  intro d hd
  cases henclosing : d.store.enclosing? time with
  | none =>
      dsimp only
      apply (keeps_ofExcept _).bind _ d hd
      intro stamp
      split <;> apply keeps_throw
  | some target =>
      obtain ⟨hstart, hstop⟩ : target.start < time ∧ time < target.stop := by
        simpa [Clip.encloses] using List.find?_some henclosing
      dsimp only
      apply keeps_checked_bind _ d hd
      apply keeps_checked_bind
      apply (h.remove target.id).bind
      intro _
      apply Keeps.bind
      · apply h.add
        apply Double.ne_nan_of_lt_left hstart
      intro head
      apply Keeps.bind
      · apply h.add
        apply Double.ne_nan_of_lt_left hstop
      intro tail
      apply (keeps_refreshed head).bind
      intro x
      apply (keeps_refreshed tail).bind
      intro y
      apply keeps_pure

theorem removeAll (records : List Held) :
  Keeps I (removeAll host records)
  := by
  induction records with
  | nil => apply keeps_pure
  | cons record rest ih =>
      apply (keeps_refreshed record).bind
      intro x
      apply (h.remove x.id).bind
      intro _
      apply (keeps_refreshed record).bind
      intro y
      apply ih.bind
      intro ids
      apply keeps_pure

theorem applyRange (verb : RangeVerb) (start stop : Double) :
  Keeps I (applyRange host verb start stop)
  := by
  apply keeps_get_bind
  intro d hd
  cases verb with
  | hide => apply h.showAll hd
  | reveal => apply h.showAll hd
  | delete => apply h.removeAll _ d hd

theorem applyEdit (e : Edit) :
  Keeps I (applyEdit host e)
  := by
  cases e with
  | load path => apply h.load
  | cut time => apply h.cut
  | range verb start stop => apply h.applyRange

theorem executeOne (command : Command) :
  Keeps I (executeOne host command)
  := by
  apply Keeps.tryCatch
  · apply (h.applyEdit command.edit).bind
    intro ids
    apply keeps_pure
  · intro f
    cases f with
    | script cause =>
        apply (keeps_ofExcept _).bind
        intro line
        apply (keeps_ofExcept _).bind
        intro text
        apply (h.log _).bind
        intro _
        apply keeps_pure
    | _ => apply keeps_throw

theorem executeAll (commands : List Command) :
  Keeps I (executeAll host commands)
  := by
  induction commands with
  | nil => apply keeps_pure
  | cons command rest ih =>
      apply (h.executeOne command).bind
      intro result
      split
      · apply keeps_pure
      · apply ih.bind
        intro report
        apply keeps_pure

theorem execute (commands : List Command) (poll : Poll) :
  Keeps I (execute host commands poll)
  := by
  have hpoll : ∀ p d, I d → I { d with poll := p } := fun p d hd => h.marks hd p _ _
  apply (keeps_modify (hpoll poll)).bind
  intro _
  apply (h.executeAll commands).finally (hpoll .never)

/-! ### Evaluations -/

theorem remember (fingerprint : Option String) :
  Keeps I (remember fingerprint)
  := keeps_modify fun _ hd => h.marks hd _ fingerprint _

theorem logAll (lines : List String) :
  Keeps I (logAll host lines)
  := by
  induction lines with
  | nil => apply keeps_pure
  | cons line rest ih => apply (h.log line).bind fun _ => ih

theorem rebuild (commands : List Command) (fingerprint : String) (revision : Nat) :
  Keeps I (rebuild host commands fingerprint revision)
  := by
  apply (h.remember none).bind
  intro _
  apply h.clear.bind
  intro _
  apply (h.execute commands _).bind
  intro report
  apply (h.remember _).bind
  intro _
  apply keeps_get.bind
  intro d
  apply (h.log _).bind
  intro _
  apply keeps_pure

/-- Evaluating a text keeps a steady property if those who are told of the result keep it. -/
theorem evaluate {text : String} (hpass : ∀ listener pass, pass.script = Script.ofText text →
    Keeps I (host.onPass listener pass)) :
  Keeps I (evaluate host text)
  := by
  have hpublished : ∀ pass : Pass, pass.script = Script.ofText text → Keeps I (do
      modify fun d => { d with last := some pass }
      let d ← get
      publish host pass d.passListeners
      return pass) := by
    intro pass hscript
    apply (keeps_modify fun _ hd => h.marks hd _ _ (some pass)).bind
    intro _
    apply keeps_get.bind
    intro d
    apply (keeps_publish (fun listener => hpass listener pass hscript) _).bind
    intro _
    apply keeps_pure
  apply keeps_get.bind
  intro d
  apply (keeps_ofExcept _).bind
  intro lines
  apply (h.logAll lines).bind
  intro _
  apply (keeps_ofExcept _).bind
  intro fingerprint
  apply keeps_get.bind
  intro d'
  dsimp only
  split
  · apply (h.log _).bind
    intro _
    apply hpublished _ rfl
  · apply ((h.rebuild _ fingerprint _).map some).bind
    intro report
    apply hpublished _ rfl

theorem evaluationFailed
    (herror : ∀ listener message, Keeps I (host.onError listener message)) (f : Fault) :
  Keeps I (evaluationFailed host f)
  := by
  apply (h.log _).bind
  intro _
  apply keeps_get.bind
  intro d
  apply (keeps_complain herror _ _).bind
  intro _
  apply keeps_pure

end Steady

end Desk

/-- Those who do nothing when called, and media files of a minute and a half. -/
def Surroundings.bystanders (ε : Type) : Surroundings ε where
  log _ e := e
  onEvent _ _ := pure ()
  onPass _ _ := pure ()
  onError _ _ := pure ()
  lookup _ := pure (.ofInt 90)

end Montage
