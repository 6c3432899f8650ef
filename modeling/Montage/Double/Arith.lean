import Montage.Double.Rounding

/-!
# Arithmetic on doubles

Each operation is the exact result rounded once: `add`, `sub` and `mul` on doubles,
`ofInt` from the integers, `quotient` for the quotient of two integers, and `round?` back
to the nearest integer.  An exact sum of zero has negative sign only if both summands do.

The sum of a list is added up from the left.  Runtimes differ in whether what is rounded off
on the way is made up for in the end, `Summation`.
-/

namespace Montage.Double

/-- The same magnitude with the other sign. -/
def neg : Double → Double
  | nan => nan
  | inf s => inf !s
  | fin s n h => fin (!s) n h

/-- The double nearest to an integer number of units, where `zeroSign` is the sign of
zero. -/
def ofSignedUnits (zeroSign : Bool) (n : Int) : Double :=
  if n = 0 then fin zeroSign 0 fits_zero
  else ofUnits (n < 0) n.natAbs 1 Nat.one_pos

/-- The same magnitude with positive sign. -/
def magnitude : Double → Double
  | nan => nan
  | inf _ => inf false
  | fin _ n h => fin false n h

/-- The sum, rounded to nearest. -/
def add : Double → Double → Double
  | nan, _ => nan
  | _, nan => nan
  | inf s, inf t => if s = t then inf s else nan
  | inf s, fin .. => inf s
  | fin .., inf t => inf t
  | fin s m _, fin t n _ => ofSignedUnits (s && t) (signed s m + signed t n)

/-- The difference, rounded to nearest. -/
def sub (a b : Double) : Double :=
  add a b.neg

/-- The product, rounded to nearest. -/
def mul : Double → Double → Double
  | nan, _ => nan
  | _, nan => nan
  | inf s, inf t => inf (s != t)
  | inf s, fin t n _ => if n = 0 then nan else inf (s != t)
  | fin s m _, inf t => if m = 0 then nan else inf (s != t)
  | fin s m _, fin t n _ => ofUnits (s != t) (m * n) unitsPerOne unitsPerOne_pos

instance : Add Double := ⟨add⟩
instance : Sub Double := ⟨sub⟩
instance : Mul Double := ⟨mul⟩
instance : Neg Double := ⟨neg⟩

/-- The double nearest to an integer; infinite if it is too large. -/
def ofInt (n : Int) : Double :=
  ofQuotient (n < 0) n.natAbs 1 Nat.one_pos

/-- The double nearest to the quotient of an integer by a natural number; not a number if
the latter is zero. -/
def quotient (n : Int) (d : Nat) : Double :=
  if h : 0 < d then ofQuotient (n < 0) n.natAbs d h else nan

/-- The integer nearest to a finite value; of two equally near ones the even one. -/
def round? : Double → Option Int
  | fin s n _ => some (signed s (divNearest n unitsPerOne))
  | _ => none

/-! ### Sums of lists -/

/-- How a runtime adds up a list of doubles. -/
inductive Summation where
  /-- Each number is added to the sum of those before it.  Runtimes up to version 3.11 do so. -/
  | plain
  /-- What is rounded off on the way is added up as well, and added to the sum in the end.
  Runtimes from version 3.12 on do so. -/
  | compensated
  deriving DecidableEq

/-- What is rounded off a sum of two numbers: the summands less their sum, the one of greater
magnitude first. -/
def roundedOff (a b : Double) : Double :=
  if b.magnitude ≤ a.magnitude then (a - (a + b)) + b else (b - (a + b)) + a

/-- A sum, and what was rounded off on the way to it. -/
structure Tally where
  total : Double := zero
  lost : Double := zero

/-- A number is added. -/
def Tally.add (t : Tally) (x : Double) : Tally :=
  ⟨t.total + x, t.lost + roundedOff t.total x⟩

/-- The sum with what was rounded off, unless that is nothing or has no finite value. -/
def Tally.settled (t : Tally) : Double :=
  if t.lost.isFinite && !t.lost.equals zero then t.total + t.lost else t.total

/-- Numbers added up from the left, starting at zero. -/
def tally (l : List Double) : Tally :=
  l.foldl Tally.add {}

/-- The sum of a list, added up from the left, starting at zero. -/
def sum : Summation → List Double → Double
  | .plain, l => l.foldl (· + ·) zero
  | .compensated, l => (tally l).settled

end Montage.Double
