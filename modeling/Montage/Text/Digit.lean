/-!
# Decimal digits

The decimal digits of all scripts come in runs of ten, in ascending order of value.  A
digit is known by the run that holds it.  The runs are listed as the Unicode standard 14.0
assigns them.
-/

namespace Montage.Text

/-- The code points of the digits zero. -/
def zeroDigits : List Nat :=
  [
    0x30, 0x660, 0x6f0, 0x7c0, 0x966, 0x9e6, 0xa66, 0xae6, 0xb66, 0xbe6, 0xc66, 0xce6, 0xd66,
    0xde6, 0xe50, 0xed0, 0xf20, 0x1040, 0x1090, 0x17e0, 0x1810, 0x1946, 0x19d0, 0x1a80, 0x1a90,
    0x1b50, 0x1bb0, 0x1c40, 0x1c50, 0xa620, 0xa8d0, 0xa900, 0xa9d0, 0xa9f0, 0xaa50, 0xabf0,
    0xff10, 0x104a0, 0x10d30, 0x11066, 0x110f0, 0x11136, 0x111d0, 0x112f0, 0x11450, 0x114d0,
    0x11650, 0x116c0, 0x11730, 0x118e0, 0x11950, 0x11c50, 0x11d50, 0x11da0, 0x16a60, 0x16ac0,
    0x16b50, 0x1d7ce, 0x1d7d8, 0x1d7e2, 0x1d7ec, 0x1d7f6, 0x1e140, 0x1e2f0, 0x1e950, 0x1fbf0
  ]

/-- The value of a decimal digit of any script. -/
def digitValue? (c : Char) : Option Nat :=
  (zeroDigits.find? fun z => z ≤ c.toNat && c.toNat < z + 10).map (c.toNat - ·)

/-- Whether a character is a decimal digit of some script. -/
def isDigit (c : Char) : Bool :=
  (digitValue? c).isSome

theorem digitValue?_lt {c : Char} {v : Nat} (h : digitValue? c = some v) :
  v < 10
  := by
  obtain ⟨z, hz, rfl⟩ := Option.map_eq_some_iff.1 h
  have := List.find?_some hz
  simp only [Bool.and_eq_true, decide_eq_true_eq] at this
  omega

/-- The number that digits denote, continuing from a number already read; a character that
is no digit counts as zero. -/
def valueFrom : Nat → List Char → Nat
  | n, [] => n
  | n, c :: cs => valueFrom (10 * n + (digitValue? c).getD 0) cs

/-- The number that digits denote. -/
def digitsValue (cs : List Char) : Nat :=
  valueFrom 0 cs

/-- A number of exactly `count` digits at the front, and what follows it. -/
def scanDigits? (count : Nat) (cs : List Char) : Option (Nat × List Char) :=
  let front := cs.take count
  if front.length = count && front.all isDigit then some (digitsValue front, cs.drop count)
  else none

end Montage.Text
