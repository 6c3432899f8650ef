import Montage.Proofs.Desk.Ledger
import Montage.Proofs.Desk.Request

/-!
# Requests do not nest

Whoever is called while a desk is at work may make a request from within.  Such a request
finds the desk in the phase `parsing`, is answered with nothing, and leaves everything as it
was but for a line that is noted.  A ledger with all calls of the surroundings and all
requests from within shows that the phase is `parsing` from the beginning to the end, however
requests are nested: `requests_never_nest`.
-/

namespace Montage

open Desk

variable {ε : Type}

namespace Request

/-- What is noted of a request from within. -/
inductive Mark where
  | called (r : Request)
  | answered (r : Request) (answer : Option (Pass ⊕ Result))

/-- A request that is entered in the ledger, before and after. -/
def noted (host : Surroundings (Ledger Mark ε)) (r : Request) :
    Run (Ledger Mark ε) (Option (Pass ⊕ Result)) := do
  note (.noted (.called r))
  let answer ← r.send host.noting
  note (.noted (.answered r answer))
  return answer

end Request

open Request (Mark)

/-- What those who are called may do, in any order, failing and recovering as they please: they
act on anything but the phase of the desk, the store included, they announce changes of the
store, they enter moments in the ledger, and they make requests.  Others may be called in their
turn. -/
inductive Reacts : {α : Type} → Run (Ledger Mark ε) α → Prop where
  | act {α : Type} {x : Run (Ledger Mark ε) α}
    (h : ∀ d, Meets x d (fun _ d' => d'.phase = d.phase ∧ d'.moments = d.moments)
      (fun _ d' => d'.phase = d.phase ∧ d'.moments = d.moments)) : Reacts x
  | note (o : Occasion Mark) (h : o.IsCall) : Reacts (Desk.note o)
  | announce (host : Surroundings (Ledger Mark ε)) (kind : EventKind) (tag : Option Nat)
    (h : ∀ listener event, Reacts (host.onEvent listener event)) :
    Reacts (Desk.announce host.noting kind tag)
  | bind {α β : Type} {x : Run (Ledger Mark ε) α} {k : α → Run (Ledger Mark ε) β}
    (hx : Reacts x) (hk : ∀ a, Reacts (k a)) : Reacts (x >>= k)
  | tryCatch {α : Type} {x : Run (Ledger Mark ε) α} {k : Fault → Run (Ledger Mark ε) α}
    (hx : Reacts x) (hk : ∀ f, Reacts (k f)) : Reacts (tryCatch x k)
  | request (host : Surroundings (Ledger Mark ε)) (r : Request) : Reacts (r.noted host)

/-- Surroundings that react. -/
structure Surroundings.Reacts (host : Surroundings (Ledger Mark ε)) : Prop where
  onEvent : ∀ listener event, Montage.Reacts (host.onEvent listener event)
  onPass : ∀ listener pass, Montage.Reacts (host.onPass listener pass)
  onError : ∀ listener message, Montage.Reacts (host.onError listener message)
  lookup : ∀ path, Montage.Reacts (host.lookup path)

/-- Every request that was made, in a ledger with the latest moments first, was answered at once
with nothing and left the desk as it was. -/
def Ignored (moments : List (Moment Mark)) : Prop :=
  ∀ later m earlier r, moments = later ++ m :: earlier → m.occasion = .noted (.called r) →
    ∃ later', later = later' ++ [⟨.noted (.answered r none), m.desk⟩]

/-- A desk at work, whose ledger says that it has been so at all moments. -/
structure AtWork (d : Desk (Ledger Mark ε)) : Prop where
  phase : d.phase = .parsing
  moments : ∀ m ∈ d.moments, m.desk.phase = .parsing
  ignored : Ignored d.moments

/-- A moment that is no request. -/
theorem Ignored.cons {moments : List (Moment Mark)} (h : Ignored moments) {m : Moment Mark}
    (hm : ∀ r, m.occasion ≠ .noted (.called r)) :
  Ignored (m :: moments)
  := by
  intro later m' earlier r hsplit hcalled
  cases later with
  | nil =>
      obtain ⟨rfl, -⟩ := List.cons.inj hsplit
      apply (hm r hcalled).elim
  | cons x later =>
      obtain ⟨rfl, hrest⟩ := List.cons.inj hsplit
      obtain ⟨later', rfl⟩ := h later m' earlier r hrest hcalled
      use m :: later'
      rfl

/-- A request that was answered at once with nothing. -/
theorem Ignored.answered {moments : List (Moment Mark)} (h : Ignored moments) (r : Request)
    (d : Desk Unit) :
  Ignored (⟨.noted (.answered r none), d⟩ :: ⟨.noted (.called r), d⟩ :: moments)
  := by
  intro later m earlier r' hsplit hcalled
  -- `m` is the answer, the request itself, or a moment that was there before.
  rcases later with _ | ⟨x, _ | ⟨y, later⟩⟩
  · obtain ⟨rfl, -⟩ := List.cons.inj hsplit
    cases hcalled
  · obtain ⟨rfl, hrest⟩ := List.cons.inj hsplit
    obtain ⟨rfl, -⟩ := List.cons.inj hrest
    cases hcalled
    use []
    rfl
  · obtain ⟨rfl, hrest⟩ := List.cons.inj hsplit
    obtain ⟨rfl, hrest'⟩ := List.cons.inj hrest
    obtain ⟨later', rfl⟩ := h later m earlier r' hrest' hcalled
    use ⟨.noted (.answered r none), d⟩ :: ⟨.noted (.called r), d⟩ :: later'
    rfl

namespace AtWork

variable {d : Desk (Ledger Mark ε)}

theorem entered (h : AtWork d) {o : Occasion Mark} (ho : o.IsCall) :
  AtWork (d.entered o)
  := by
  constructor
  · apply h.phase
  · rw [moments_entered]
    exact List.forall_mem_cons.mpr ⟨h.phase, h.moments⟩
  · apply h.ignored.cons
    rintro r rfl
    apply ho

theorem note {o : Occasion Mark} (ho : o.IsCall) :
  Keeps AtWork (Desk.note o : Run (Ledger Mark ε) Unit)
  := keeps_modify fun _ hd => hd.entered ho

/-- A request from within is entered, and otherwise nothing is changed. -/
theorem noted (host : Surroundings (Ledger Mark ε)) (r : Request) :
  Keeps AtWork (r.noted host)
  := by
  intro d h
  have hcalled : (d.entered (.noted (.called r))).phase = .parsing := h.phase
  rw [Request.noted, meets_bind, Desk.note, meets_modify, meets_bind,
    Request.meets_send_parsing hcalled, meets_bind, Desk.note, meets_modify, meets_pure]
  constructor
  · apply hcalled
  · rw [moments_entered]
    exact List.forall_mem_cons.mpr ⟨hcalled, List.forall_mem_cons.mpr ⟨hcalled, h.moments⟩⟩
  · apply h.ignored.answered

end AtWork

/-- Those who react keep a desk at work. -/
theorem Reacts.keeps {α : Type} {x : Run (Ledger Mark ε) α} (hx : Reacts x) :
  Keeps AtWork x
  := by
  induction hx with
  | act hact =>
      intro d h
      have hkept : ∀ d' : Desk (Ledger Mark ε),
          d'.phase = d.phase ∧ d'.moments = d.moments → AtWork d' := by
        rintro d' ⟨hphase, hmoments⟩
        exact ⟨hphase.trans h.phase, hmoments ▸ h.moments, hmoments ▸ h.ignored⟩
      apply (hact d).mono
      · intro _
        apply hkept
      · intro _
        apply hkept
  | note o ho => apply AtWork.note ho
  | announce host kind tag h ih =>
      apply keeps_announce
      intro listener event
      apply (AtWork.note (o := .told listener event) trivial).bind
      intro _
      apply ih
  | bind hx hk ihx ihk => apply ihx.bind ihk
  | tryCatch hx hk ihx ihk => apply ihx.tryCatch ihk
  | request host r => apply AtWork.noted

namespace Surroundings.Reacts

variable {host : Surroundings (Ledger Mark ε)} (h : host.Reacts)

include h

/-- Among those who react a desk stays at work. -/
theorem steady :
  Steady host.noting AtWork
  := by
  apply steady_of_withStore
  · intro d hd s
    exact ⟨hd.phase, hd.moments, hd.ignored⟩
  · intro d hd poll fingerprint last
    exact ⟨hd.phase, hd.moments, hd.ignored⟩
  · intro line
    apply keeps_modify
    intro d hd
    exact ⟨hd.phase, hd.moments, hd.ignored⟩
  · intro listener event
    apply (AtWork.note (o := .told listener event) trivial).bind
    intro _
    apply (h.onEvent listener event).keeps
  · intro path
    apply (AtWork.note (o := .looked path) trivial).bind
    intro _
    apply (h.lookup path).keeps

theorem keeps_onPass (listener : Nat) (pass : Pass) :
  Keeps AtWork (host.noting.onPass listener pass)
  := by
  apply (AtWork.note (o := .published listener pass) trivial).bind
  intro _
  apply (h.onPass listener pass).keeps

theorem keeps_onError (listener : Nat) (message : String) :
  Keeps AtWork (host.noting.onError listener message)
  := by
  apply (AtWork.note (o := .complained listener message) trivial).bind
  intro _
  apply (h.onError listener message).keeps

end Surroundings.Reacts

/-- A request leaves a desk idle that it found idle, whatever those around it do. -/
theorem Request.send_idle (host : Surroundings ε) (r : Request) {d : Desk ε}
    (hd : d.phase = .idle) :
  (after (r.send host) d).phase = .idle
  := by
  -- Nothing need be known of what those around do: the phase is reset in the end in any case.
  have htrue : ∀ {α : Type} (x : Run ε α), Keeps (fun _ => True) x :=
    fun x d _ => meets_trivial x d
  have hsteady : Steady host fun _ => True := by
    apply steady_of_withStore
    · intros
      trivial
    · intros
      trivial
    · intro line
      apply htrue
    · intro listener event
      apply htrue
    · intro path
      apply htrue
  have hsend : Meets (r.send host) d (fun _ d' => d'.phase = .idle)
      (fun _ d' => d'.phase = .idle) := by
    apply meets_send hsteady
    · intro listener pass
      apply htrue
    · intro listener message
      apply htrue
    · simp [hd]
    · trivial
    · intro d' _
      rfl
  apply hsend.after

/-- Requests never nest.  A request to a desk at work is answered with nothing, and nothing is
changed but for a line that is noted; an idle desk is idle again after every request, whatever
those who are called do.  In between, at every moment at which one of them is called or acts,
the phase is `parsing`, and every request from within is answered at once with nothing and
leaves the desk as it was. -/
theorem requests_never_nest (r : Request) :
  (∀ {ε : Type} (host : Surroundings ε) (d : Desk ε),
      (d.phase = .parsing → r.send host d = .ok none (logged host r.remark d))
        ∧ (d.phase = .idle → (after (r.send host) d).phase = .idle))
    ∧ ∀ {ε : Type} (host : Surroundings (Ledger Mark ε)), host.Reacts → ∀ d, d.phase = .idle →
      d.moments = [] →
      (∀ m ∈ (after (r.send host.noting) d).moments, m.desk.phase = .parsing)
        ∧ Ignored (after (r.send host.noting) d).moments
  := by
  constructor
  · intro ε host d
    constructor
    · apply Request.send_parsing
    · apply Request.send_idle
  · intro ε host hhost d hd hmoments
    have hwork : Meets (r.send host.noting) d
        (fun _ d' => (∀ m ∈ d'.moments, m.desk.phase = .parsing) ∧ Ignored d'.moments)
        (fun _ d' => (∀ m ∈ d'.moments, m.desk.phase = .parsing) ∧ Ignored d'.moments) := by
      apply Request.meets_send hhost.steady hhost.keeps_onPass hhost.keeps_onError
      · simp [hd]
      · refine ⟨rfl, ?_, ?_⟩
        · change ∀ m ∈ d.moments, _
          simp [hmoments]
        · change Ignored d.moments
          simp [hmoments, Ignored]
      · intro d' h
        exact ⟨h.moments, h.ignored⟩
    apply hwork.after

/-- A listener who submits another text when told of a change and then fails, one who cuts when
an evaluation has failed, and a lookup during which the document changes. -/
def echoes : Surroundings (Ledger Mark Unit) where
  log _ l := l
  onEvent _ _ := do
    let _ ← (Request.submit "LOAD b.mp4").noted (.bystanders _)
    throw (.foreign "RuntimeError" .runtime "boom")
  onPass _ _ := pure ()
  onError _ _ := do
    let _ ← (Request.insertCut (.ofInt 5)).noted (.bystanders _)
    return
  lookup _ := do
    noteChange
    return .ofInt 90

theorem reacts_pure {α : Type} (a : α) :
  Reacts (pure a : Run (Ledger Mark ε) α)
  := by
  apply Reacts.act
  intro d
  rw [meets_pure]
  exact ⟨rfl, rfl⟩

theorem reacts_echoes :
  echoes.Reacts
  := by
  constructor
  · intro listener event
    apply (Reacts.request _ _).bind
    intro _
    apply Reacts.act
    intro d
    rw [meets_throw]
    exact ⟨rfl, rfl⟩
  · intro listener pass
    apply reacts_pure
  · intro listener message
    apply (Reacts.request _ _).bind
    intro _
    apply reacts_pure
  · intro path
    apply Reacts.bind _ fun _ => reacts_pure _
    apply Reacts.act
    intro d
    rw [noteChange, meets_modify]
    exact ⟨rfl, rfl⟩

/-- A desk with these listeners. -/
def echoingDesk : Desk (Ledger Mark Unit) :=
  { listeners := [0], errorListeners := [0], surroundings := { rest := () } }

theorem requests_never_nest_echoes :
  (after ((Request.submit "LOAD a.mp4").send echoes.noting) echoingDesk).phase = .idle
    ∧ (after ((Request.submit "LOAD a.mp4").send echoes.noting) echoingDesk).moments.length = 6
    ∧ (∀ m ∈ (after ((Request.submit "LOAD a.mp4").send echoes.noting) echoingDesk).moments,
      m.desk.phase = .parsing)
    ∧ Ignored (after ((Request.submit "LOAD a.mp4").send echoes.noting) echoingDesk).moments
    ∧ (Request.insertCut (.ofInt 5)).send echoes { echoingDesk with phase := .parsing }
      = .ok none { echoingDesk with phase := .parsing }
  := by
  obtain ⟨hsend, hwithin⟩ := requests_never_nest (.submit "LOAD a.mp4")
  obtain ⟨hsend', -⟩ := requests_never_nest (.insertCut (.ofInt 5))
  obtain ⟨hparsing, hignored⟩ := hwithin echoes reacts_echoes echoingDesk rfl rfl
  refine ⟨(hsend echoes.noting echoingDesk).2 rfl, by decide +kernel, hparsing, hignored, ?_⟩
  apply (hsend' echoes _).1 rfl

end Montage
