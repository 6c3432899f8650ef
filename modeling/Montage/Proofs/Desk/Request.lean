import Montage.Proofs.Desk.Steady

/-!
# Requests

A `Request` is what a desk is asked to do as a whole: to evaluate a text or to make a cut.  A
desk that is at work ignores it.  Any other desk is in the phase `parsing` while it is at
work, and `idle` afterwards.
-/

namespace Montage

open Desk

variable {ε : Type}

/-- What is steady and kept by those who learn of the script of a text holds until the desk at
which the text is submitted is idle again. -/
theorem Desk.Steady.submit {host : Surroundings ε} {d : Desk ε} {text : String}
    {I J : Desk ε → Prop} (h : Steady host I)
    (hpass : ∀ listener pass, pass.script = Script.ofText text →
      Keeps I (host.onPass listener pass))
    (herror : ∀ listener message, Keeps I (host.onError listener message))
    (hd : d.phase ≠ .parsing) (hstart : I { d with phase := .parsing })
    (hend : ∀ d, I d → J { d with phase := .idle }) :
  Meets (Desk.submit host text) d (fun _ => J) (fun _ => J)
  := by
  rw [meets_submit text hd]
  apply (h.evaluate hpass _ hstart).mono
  · intro pass d₁ h₁
    apply hend d₁ h₁
  · intro f d₁ h₁
    apply (h.evaluationFailed herror f d₁ h₁).mono
    · intro _ d₂ h₂
      apply hend d₂ h₂
    · intro _ d₂ h₂
      apply hend d₂ h₂

/-- A request to an editing desk. -/
inductive Request where
  | submit (text : String)
  | insertCut (time : Double)

namespace Request

/-- What is done with a request; the pass or the result it brings, if any. -/
def send (host : Surroundings ε) : Request → Run ε (Option (Pass ⊕ Result))
  | submit text => Option.map Sum.inl <$> Desk.submit host text
  | insertCut time => Option.map Sum.inr <$> Desk.insertCut host time

/-- The line noted for a request that is ignored. -/
def remark : Request → String
  | submit _ => "[pipeline] Pass already running, snapshot ignored"
  | insertCut _ => "[pipeline] Pass running, cut ignored"

variable {host : Surroundings ε} {d : Desk ε} {r : Request}

/-- A request to a desk that is at work is ignored. -/
theorem meets_send_parsing {Q : Option (Pass ⊕ Result) → Desk ε → Prop}
    {E : Fault → Desk ε → Prop} (h : d.phase = .parsing) :
  Meets (r.send host) d Q E ↔ Q none (logged host r.remark d)
  := by
  cases r with
  | submit text =>
      rw [send, meets_map, meets_submit_parsing text h]
      rfl
  | insertCut time =>
      rw [send, meets_map, meets_insertCut_parsing time h]
      rfl

theorem send_parsing (h : d.phase = .parsing) :
  r.send host d = .ok none (logged host r.remark d)
  := ((meets_send_parsing h).mpr ⟨rfl, rfl⟩).eq_ok

/-- What is steady and kept by those who follow evaluations holds until a desk is idle again. -/
theorem meets_send {I J : Desk ε → Prop} (h : Steady host I)
    (hpass : ∀ listener pass, Keeps I (host.onPass listener pass))
    (herror : ∀ listener message, Keeps I (host.onError listener message))
    (hd : d.phase ≠ .parsing) (hstart : I { d with phase := .parsing })
    (hend : ∀ d, I d → J { d with phase := .idle }) :
  Meets (r.send host) d (fun _ => J) (fun _ => J)
  := by
  cases r with
  | submit text =>
      rw [send, meets_map]
      apply h.submit (fun listener pass _ => hpass listener pass) herror hd hstart hend
  | insertCut time =>
      rw [send, meets_map, meets_insertCut time hd]
      apply (h.executeOne _ _ hstart).mono
      · intro result d₁ h₁
        exact hend _ (h.marks h₁ d₁.poll (if result.success then none else d₁.fingerprint)
          d₁.last)
      · intro f d₁ h₁
        apply hend d₁ h₁

end Request

end Montage
