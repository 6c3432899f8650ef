/-!
# Double-precision numbers

`Double` is the type of IEEE double-precision values.  A finite value is a sign and a
whole number of *units* of 2⁻¹⁰⁷⁴, the distance from zero to its nearest neighbours, so
that comparing, adding and rounding doubles is comparing, adding and rounding integers.
The magnitudes that occur are those that satisfy `Double.Fits`: at most 53 significant
bits, and below 2¹⁰²⁴.  Zero has two signs, and there is one value that is not a number.
-/

namespace Montage

namespace Double

/-- The power of two of an exponent. -/
def twoPow (e : Nat) : Nat := Nat.pow 2 e

theorem twoPow_pos (e : Nat) :
  0 < twoPow e
  := Nat.two_pow_pos e

/-- One unit is 2⁻¹⁰⁷⁴. -/
def unitExponent : Nat := 1074

/-- The number of units that make up 1. -/
def unitsPerOne : Nat := twoPow unitExponent

theorem unitsPerOne_pos :
  0 < unitsPerOne
  := twoPow_pos unitExponent

/-- Finite values are below 2²⁰⁹⁸ units. -/
def overflowExponent : Nat := 2098

/-- The least number of units that is too large for a finite value: 2¹⁰²⁴. -/
def overflowUnits : Nat := twoPow overflowExponent

theorem overflowUnits_pos :
  0 < overflowUnits
  := twoPow_pos overflowExponent

/-- A number of units is the magnitude of a finite value exactly if it is below the
overflow threshold and its significant bits are at most 53. -/
def Fits (n : Nat) : Prop :=
  n < overflowUnits ∧ twoPow (n.log2 - 52) ∣ n

instance (n : Nat) : Decidable (Fits n) :=
  inferInstanceAs (Decidable (_ ∧ _))

end Double

/-- A double-precision number. -/
inductive Double where
  /-- The result of an operation without a meaningful value. -/
  | nan
  /-- Positive infinity, or negative infinity if `neg`. -/
  | inf (neg : Bool)
  /-- A finite value of `units` units, negated if `neg`. -/
  | fin (neg : Bool) (units : Nat) (fits : Double.Fits units)
  deriving DecidableEq

namespace Double

theorem fits_zero :
  Fits 0
  := ⟨overflowUnits_pos, Nat.dvd_zero _⟩

/-- The zero of positive sign. -/
def zero : Double :=
  fin false 0 fits_zero

instance : Inhabited Double := ⟨zero⟩

/-- The integer `units` or its negative. -/
def signed (neg : Bool) (units : Nat) : Int :=
  if neg then -units else units

/-- The place of a number in the order of all numbers, as a count of units; infinities
stand at the overflow threshold.  What is not a number has no place. -/
def place? : Double → Option Int
  | nan => none
  | inf neg => some (signed neg overflowUnits)
  | fin neg units _ => some (signed neg units)

/-- Whether both are numbers and their places are related by `r`. -/
def related (r : Int → Int → Bool) (a b : Double) : Bool :=
  match a.place?, b.place? with
  | some x, some y => r x y
  | _, _ => false

/-- Numerical equality: the two zeros are equal, and what is not a number differs from
everything, itself included. -/
def equals (a b : Double) : Bool :=
  related (fun x y => x == y) a b

/-- The relation `a < b` holds if both are numbers and `a` comes first. -/
instance : LT Double :=
  ⟨fun a b => related (fun x y => x < y) a b = true⟩

/-- The relation `a ≤ b` holds if both are numbers and `b` does not come before `a`. -/
instance : LE Double :=
  ⟨fun a b => related (fun x y => x ≤ y) a b = true⟩

instance (a b : Double) : Decidable (a < b) :=
  inferInstanceAs (Decidable (_ = true))

instance (a b : Double) : Decidable (a ≤ b) :=
  inferInstanceAs (Decidable (_ = true))

/-- Neither infinite nor `nan`. -/
def isFinite : Double → Bool
  | fin .. => true
  | _ => false

/-- The first of the two unless the second is smaller. -/
def least (a b : Double) : Double :=
  if b < a then b else a

/-- The first of the two unless the second is larger. -/
def greatest (a b : Double) : Double :=
  if a < b then b else a

end Double

end Montage
