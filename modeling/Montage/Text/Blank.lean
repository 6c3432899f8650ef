/-!
# Blank characters

`isBlank` holds of the characters that separate words: tabs, line ends, the four
information separators and the spaces of all widths.  `trim` removes blanks from both ends
of a text; a text is blank if nothing remains.
-/

namespace Montage.Text

/-- The blank characters below U+2000. -/
def smallBlanks : List Char :=
  ['\t', '\n', '\x0b', '\x0c', '\r', '\x1c', '\x1d', '\x1e', '\x1f', ' ', '\u0085', '\u00a0',
    '\u1680']

/-- The blank characters from U+200B on. -/
def wideBlanks : List Char :=
  ['\u2028', '\u2029', '\u202f', '\u205f', '\u3000']

/-- Whether a character separates words. -/
def isBlank (c : Char) : Bool :=
  smallBlanks.contains c || ('\u2000' ≤ c && c ≤ '\u200a') || wideBlanks.contains c

/-- The characters without the blanks in front. -/
def trimStart (cs : List Char) : List Char :=
  cs.dropWhile isBlank

/-- The characters without the blanks at the end. -/
def trimEnd (cs : List Char) : List Char :=
  (cs.reverse.dropWhile isBlank).reverse

/-- The characters without the blanks at both ends. -/
def trim (cs : List Char) : List Char :=
  trimEnd (trimStart cs)

/-- A text without the blanks at both ends. -/
def trimmed (s : String) : String :=
  String.ofList (trim s.toList)

/-- Whether a text holds nothing but blanks. -/
def isBlankText (s : String) : Bool :=
  s.toList.all isBlank

/-- What follows one or more blanks and all the blanks after them. -/
def afterBlanks? : List Char → Option (List Char)
  | [] => none
  | c :: cs => if isBlank c then some (trimStart cs) else none

end Montage.Text
