import Montage.Double.Arith

/-!
# Doubles as text

A double is written in two ways.  `toFixed` rounds its exact value to a given number of
decimal places.  `toText` writes the fewest significant digits that read back to the same
double, nearest to its value among those; `style` says how such digits are laid out.
`ofDecimal` reads: it is the double nearest to a decimal number.
-/

namespace Montage.Double

/-- The number `n` in decimal, with zeros in front up to `width` digits. -/
def padded (width n : Nat) : String :=
  let digits := (toString n).toList
  String.ofList (List.replicate (width - digits.length) '0' ++ digits)

/-! ### A fixed number of places -/

/-- The value rounded to `places` decimal places, a tie going to the even neighbour. -/
def toFixed (places : Nat) : Double → String
  | nan => "nan"
  | inf s => (if s then "-" else "") ++ "inf"
  | fin s n _ =>
    let scaled := divNearest (n * Nat.pow 10 places) unitsPerOne
    let whole := toString (scaled / Nat.pow 10 places)
    let fraction := if places = 0 then "" else "." ++ padded places (scaled % Nat.pow 10 places)
    (if s then "-" else "") ++ whole ++ fraction

/-! ### Decimal numbers -/

/-- The decimal number `coefficient · 10 ^ exponent`. -/
structure Decimal where
  /-- The digits, as a number. -/
  coefficient : Nat
  /-- The power of ten of the last digit. -/
  exponent : Int

namespace Decimal

/-- The numerator of a decimal as a fraction. -/
def num (d : Decimal) : Nat :=
  d.coefficient * Nat.pow 10 d.exponent.toNat

/-- The denominator of a decimal as a fraction. -/
def den (d : Decimal) : Nat :=
  Nat.pow 10 (-d.exponent).toNat

theorem den_pos (d : Decimal) :
  0 < d.den
  := Nat.pow_pos (by decide)

/-- The number of digits of the coefficient. -/
def length (d : Decimal) : Nat :=
  (Nat.toDigits 10 d.coefficient).length

/-- The power of ten of the first digit. -/
def magnitude (d : Decimal) : Int :=
  d.exponent + d.length - 1

/-- The same number without zeros at the end of the coefficient; `fuel` bounds how many
are removed. -/
def trim : Nat → Decimal → Decimal
  | 0, d => d
  | fuel + 1, d =>
    if d.coefficient % 10 = 0 then trim fuel ⟨d.coefficient / 10, d.exponent + 1⟩ else d

end Decimal

/-- The double nearest to a decimal number, negated if `neg`.  A number of at least 10³¹⁰ is
beyond all finite values and one below 10⁻³³⁰ is nearer to zero than to any other, so
neither needs its power of ten. -/
def ofDecimal (neg : Bool) (d : Decimal) : Double :=
  if d.coefficient = 0 then fin neg 0 fits_zero
  else if 310 < d.magnitude then inf neg
  else if d.magnitude < -330 then fin neg 0 fits_zero
  else ofQuotient neg d.num d.den d.den_pos

/-! ### The fewest digits that read back -/

/-- The greatest power of ten that is at most `n` units, for `n` not zero.  A unit is more
than 10⁻³²⁴, so 10³²⁴ · `n` units are at least 1. -/
def leadingPower (n : Nat) : Int :=
  (Nat.toDigits 10 (n * Nat.pow 10 324 / unitsPerOne)).length - 325

/-- The largest multiple of `10 ^ e` that is at most `n` units. -/
def floorOn (e : Int) (n : Nat) : Decimal :=
  ⟨n * Nat.pow 10 (-e).toNat / (unitsPerOne * Nat.pow 10 e.toNat), e⟩

/-- The magnitude to which a decimal number reads. -/
def Decimal.units (d : Decimal) : Nat :=
  roundUnits (d.num * unitsPerOne) d.den

/-- The multiple of `10 ^ e` that reads back to `n` units, if there is one: a neighbour of
`n` units, the nearer one if both read back, and the even one if both are equally near. -/
def readingBack? (e : Int) (n : Nat) : Option Decimal :=
  let below := floorOn e n
  let above : Decimal := ⟨below.coefficient + 1, e⟩
  match below.units == n, above.units == n with
  | true, false => some below
  | false, true => some above
  | false, false => none
  | true, true =>
    let middle := below.num * above.den + above.num * below.den
    let twice := 2 * n * below.den * above.den
    if twice < middle * unitsPerOne then some below
    else if middle * unitsPerOne < twice then some above
    else if below.coefficient % 2 = 0 then some below
    else some above

/-- The decimal with the fewest digits that reads back to `n` units, for `n` not zero.
Seventeen digits always do. -/
def shortest (n : Nat) : Decimal :=
  let lead := leadingPower n
  let found := (List.range 17).findSome? fun (k : Nat) => readingBack? (lead - k) n
  (found.getD (floorOn (lead - 16) n)).trim 17

/-- How the digits of a number are laid out. -/
structure Style where
  /-- The least power of ten of the first digit that is written without an exponent. -/
  lowest : Int
  /-- The greatest one. -/
  highest : Int
  /-- The least number of digits of an exponent. -/
  exponentDigits : Nat

/-- Numbers from 10⁻⁴ up to 10¹⁶ are written without an exponent, whole ones among them
with one decimal place; an exponent has a sign and at least two digits. -/
def style : Style :=
  ⟨-4, 15, 2⟩

/-- The text of a decimal number, laid out in a style. -/
def Style.layout (st : Style) (d : Decimal) : String :=
  let digits := Nat.toDigits 10 d.coefficient
  let lead := d.magnitude
  if lead < st.lowest || st.highest < lead then
    let tail := digits.drop 1
    let mantissa := digits.take 1 ++ (if tail.isEmpty then [] else '.' :: tail)
    let sign := if lead < 0 then "e-" else "e+"
    String.ofList mantissa ++ sign ++ padded st.exponentDigits lead.natAbs
  else if lead < 0 then
    "0." ++ String.ofList (List.replicate (lead.natAbs - 1) '0' ++ digits)
  else
    let whole := digits.take (lead.natAbs + 1) ++ List.replicate d.exponent.toNat '0'
    let fraction := digits.drop (lead.natAbs + 1)
    String.ofList whole ++ "." ++ (if fraction.isEmpty then "0" else String.ofList fraction)

/-- The shortest text that reads back to the same double. -/
def toText : Double → String
  | nan => "nan"
  | inf s => (if s then "-" else "") ++ "inf"
  | fin s n _ =>
    (if s then "-" else "") ++ (if n = 0 then "0.0" else style.layout (shortest n))

end Montage.Double
