import Montage.Proofs.Desk.Steady

/-!
# Ledgers

Much of what happens around a desk has passed when an operation is over.  A `Ledger` keeps
it: surroundings that are `noting` enter each moment at which one of them is called, with the
desk as it was at that moment, before they do what they do.
-/

namespace Montage

/-- What happens at a moment: one of the surroundings of a desk is called, or something is
noted for its own sake. -/
inductive Occasion (κ : Type) where
  | told (listener : Nat) (event : Event)
  | published (listener : Nat) (pass : Pass)
  | complained (listener : Nat) (message : String)
  | looked (path : String)
  | noted (k : κ)

/-- An occasion at which one of the surroundings is called. -/
def Occasion.IsCall {κ : Type} : Occasion κ → Prop
  | noted _ => False
  | _ => True

/-- A moment, with the desk as it was. -/
structure Moment (κ : Type) where
  occasion : Occasion κ
  desk : Desk Unit

/-- Surroundings with a ledger. -/
structure Ledger (κ ε : Type) where
  /-- The moments entered, the latest first. -/
  moments : List (Moment κ) := []
  rest : ε

variable {κ ε : Type}

namespace Desk

/-- A desk without its surroundings. -/
def bare (d : Desk ε) : Desk Unit :=
  { d with surroundings := () }

/-- The moments in the ledger of a desk. -/
def moments (d : Desk (Ledger κ ε)) : List (Moment κ) :=
  d.surroundings.moments

/-- A desk with a moment entered. -/
def entered (o : Occasion κ) (d : Desk (Ledger κ ε)) : Desk (Ledger κ ε) :=
  { d with surroundings := ⟨⟨o, d.bare⟩ :: d.moments, d.surroundings.rest⟩ }

/-- Enters a moment. -/
def note (o : Occasion κ) : Run (Ledger κ ε) Unit :=
  modify (entered o)

@[simp]
theorem moments_entered (o : Occasion κ) (d : Desk (Ledger κ ε)) :
  (d.entered o).moments = ⟨o, d.bare⟩ :: d.moments
  := rfl

end Desk

/-- Surroundings that enter each moment at which they are called.  Taking note of a line is no
such moment. -/
def Surroundings.noting (host : Surroundings (Ledger κ ε)) : Surroundings (Ledger κ ε) where
  log line l := ⟨l.moments, (host.log line l).rest⟩
  onEvent listener event := do
    Desk.note (.told listener event)
    host.onEvent listener event
  onPass listener pass := do
    Desk.note (.published listener pass)
    host.onPass listener pass
  onError listener message := do
    Desk.note (.complained listener message)
    host.onError listener message
  lookup path := do
    Desk.note (.looked path)
    host.lookup path

end Montage
