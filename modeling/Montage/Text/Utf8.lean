import Montage.Fault

/-!
# Reading text from bytes

A file is text in UTF-8.  `decode` reads it, or finds the first bytes that are no character:
a byte that starts none, a start that is not continued, or the start of a character at the
end of the file.  `unifyLineEnds` then turns every carriage return, alone or before a line
feed, into a line feed.
-/

namespace Montage.Text.Utf8

/-- The number of bytes of a character that starts with a byte; zero if none does. -/
def lengthFrom (b : UInt8) : Nat :=
  if b < 0x80 then 1
  else if b < 0xc2 then 0
  else if b < 0xe0 then 2
  else if b < 0xf0 then 3
  else if b < 0xf5 then 4
  else 0

/-- Whether a byte can be the second one of a character. -/
def continuesFirst (first b : UInt8) : Bool :=
  let low := if first = 0xe0 then 0xa0 else if first = 0xf0 then 0x90 else 0x80
  let high := if first = 0xed then 0x9f else if first = 0xf4 then 0x8f else 0xbf
  low ≤ b && b ≤ high

/-- Whether a byte can be a later one. -/
def continues (b : UInt8) : Bool :=
  0x80 ≤ b && b ≤ 0xbf

/-- How many of the bytes after the first one continue the character. -/
def continuation (first : UInt8) : List UInt8 → Nat
  | [] => 0
  | b :: rest =>
    if continuesFirst first b then 1 + (rest.takeWhile continues).length else 0

/-- The code point of a character from its first byte and the others. -/
def codePoint (first : UInt8) (others : List UInt8) : Nat :=
  let mask := if others.isEmpty then 0x80 else Nat.pow 2 (6 - others.length)
  others.foldl (fun n b => 64 * n + b.toNat % 64) (first.toNat % mask)

/-- The text of bytes from a position on; `fuel` is their number. -/
def decodeFrom : Nat → Nat → List UInt8 → Except Fault (List Char)
  | 0, _, _ => .ok []
  | _, _, [] => .ok []
  | fuel + 1, position, first :: rest =>
    let length := lengthFrom first
    if length = 0 then .error (.notAText [first] position "invalid start byte")
    else
      let others := rest.take (length - 1)
      let good := continuation first others
      if good + 1 = length then do
        let cs ← decodeFrom fuel (position + length) (rest.drop (length - 1))
        return Char.ofNat (codePoint first others) :: cs
      else
        let bad := first :: others.take good
        let reason :=
          if good = others.length then "unexpected end of data"
          else "invalid continuation byte"
        .error (.notAText bad position reason)

/-- The text that bytes stand for. -/
def decode (bytes : List UInt8) : Except Fault (List Char) :=
  decodeFrom bytes.length 0 bytes

/-- Every line end turned into a line feed. -/
def unifyLineEnds : List Char → List Char
  | [] => []
  | '\r' :: '\n' :: cs => '\n' :: unifyLineEnds cs
  | '\r' :: cs => '\n' :: unifyLineEnds cs
  | c :: cs => c :: unifyLineEnds cs

/-- The text of a file. -/
def readFile (bytes : List UInt8) : Except Fault String :=
  (decode bytes).map fun cs => String.ofList (unifyLineEnds cs)

end Montage.Text.Utf8
