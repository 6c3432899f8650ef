import Montage.Text.Keyword
import Montage.Text.Number

/-!
# Timecodes

A timecode is written `HH:MM:SS.mmm`, with two digits each for hours, minutes and seconds
and three for milliseconds; any decimal digits do, and minutes and seconds go up to 99.  It
denotes a time in seconds, `Timecode.seconds`.  In the other direction `Timecode.stamp`
writes any finite time, rounded to milliseconds, with minutes and seconds below 60 and as
many digits for the hours as they need.
-/

namespace Montage

/-- The fields of a timecode. -/
structure Timecode where
  hours : Nat
  minutes : Nat
  seconds : Nat
  millis : Nat
  deriving DecidableEq, Repr

namespace Timecode

/-- The time in seconds of given fields: whole seconds and thousandths, each as a double,
added. -/
def secondsOf (hours minutes seconds millis : Int) : Double :=
  Double.ofInt (hours * 3600 + minutes * 60 + seconds) + Double.quotient millis 1000

/-- The time in seconds that a timecode denotes. -/
def time (t : Timecode) : Double :=
  secondsOf t.hours t.minutes t.seconds t.millis

/-! ### Reading -/

/-- A timecode at the front, and what follows it. -/
def scan? (cs : List Char) : Option (Timecode × List Char) := do
  let (hours, cs) ← Text.scanDigits? 2 cs
  let cs ← Text.keyword? [':'] cs
  let (minutes, cs) ← Text.scanDigits? 2 cs
  let cs ← Text.keyword? [':'] cs
  let (seconds, cs) ← Text.scanDigits? 2 cs
  let cs ← Text.keyword? ['.'] cs
  let (millis, cs) ← Text.scanDigits? 3 cs
  return (⟨hours, minutes, seconds, millis⟩, cs)

/-- The time that a text denotes: a timecode with nothing but blanks around it. -/
def parse (text : String) : Except Fault Double :=
  match scan? (Text.trim text.toList) with
  | some (t, []) => .ok t.time
  | _ => .error (.notATimecode text)

/-- The time of four fields given as text, in which any integers may stand. -/
def ofFields (hours minutes seconds millis : String) : Except Fault Double := do
  let h ← Text.readInteger hours
  let m ← Text.readInteger minutes
  let s ← Text.readInteger seconds
  let ms ← Text.readInteger millis
  if !(Double.quotient ms 1000).isFinite then .error .quotientTooLarge
  else if !(Double.ofInt (h * 3600 + m * 60 + s)).isFinite then .error .integerTooLarge
  else .ok (secondsOf h m s ms)

/-! ### Writing -/

/-- An integer of at least `width` characters, with zeros after the sign as needed. -/
def field (width : Nat) (n : Int) : String :=
  if n < 0 then "-" ++ Double.padded (width - 1) n.natAbs else Double.padded width n.natAbs

/-- The text of a whole number of milliseconds.  Before zero the hours are negative and the
other fields count forward from them. -/
def ofMillis (total : Int) : String :=
  field 2 (total / 3600000) ++ ":" ++ field 2 (total % 3600000 / 60000) ++ ":"
    ++ field 2 (total % 60000 / 1000) ++ "." ++ field 3 (total % 1000)

/-- The nearest whole number of milliseconds to a time. -/
def millisOf (time : Double) : Except Fault Int :=
  let scaled := time * Double.ofInt 1000
  match scaled.round? with
  | some n => .ok n
  | none => .error (if scaled = .nan then .roundedNaN else .roundedInfinity)

/-- The text of a time, rounded to milliseconds. -/
def stamp (time : Double) : Except Fault String :=
  ofMillis <$> millisOf time

end Timecode

end Montage
