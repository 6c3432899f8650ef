import Montage.Fault
import Montage.Text.Blank
import Montage.Text.Digit

/-!
# Reading and writing numbers

Integers and doubles are read from text that may have blanks around it, a sign, decimal
digits of any script, and single underscores between digits.  A double is a decimal number
with an optional point and exponent, or the name of an infinity or of what is not a number;
`Double.ofDecimal` decides its value.  Integers with very many digits are neither read nor
written.
-/

namespace Montage.Text

/-- The blanks that may stand around a number: all but the information separators. -/
def isNumberBlank (c : Char) : Bool :=
  isBlank c && !('\x1c' ≤ c && c ≤ '\x1f')

/-- The characters without the blanks around a number. -/
def trimNumber (cs : List Char) : List Char :=
  ((cs.dropWhile isNumberBlank).reverse.dropWhile isNumberBlank).reverse

/-- The sign in front, and what follows it. -/
def splitSign : List Char → Bool × List Char
  | '-' :: cs => (true, cs)
  | '+' :: cs => (false, cs)
  | cs => (false, cs)

/-- Whether a digit comes next. -/
def startsWithDigit (cs : List Char) : Bool :=
  cs.head?.any isDigit

/-- The digits that continue a number, where an underscore is passed over if a digit comes
next, and what follows them. -/
def moreDigits : List Char → List Char × List Char
  | [] => ([], [])
  | c :: cs =>
    if isDigit c then
      let (digits, rest) := moreDigits cs
      (c :: digits, rest)
    else if c = '_' && startsWithDigit cs then moreDigits cs
    else ([], c :: cs)

/-- The digits at the front, with single underscores between digits, and what follows. -/
def splitDigits (cs : List Char) : List Char × List Char :=
  if startsWithDigit cs then moreDigits cs else ([], cs)

/-- How far the characters at the front look like the digits of an integer, well placed
or not. -/
def isDigitOrMark (c : Char) : Bool :=
  isDigit c || c == '_'

/-- Whether every underscore among digits stands between two of them. -/
def marksWellPlaced : List Char → Bool
  | [] => true
  | ['_'] => false
  | '_' :: '_' :: _ => false
  | _ :: cs => marksWellPlaced cs

/-- An integer as text.  The number of digits is checked before what follows them. -/
def readInteger (text : String) : Except Fault Int :=
  let (negative, body) := splitSign (trimNumber text.toList)
  let digits := body.takeWhile isDigitOrMark
  if digits.isEmpty || digits.head? == some '_' || !marksWellPlaced digits then
    .error (.notAnInteger text)
  else
    let plain := digits.filter isDigit
    if Fault.maxDigits < plain.length then .error (.tooManyDigits plain.length)
    else if body.length ≠ digits.length then .error (.notAnInteger text)
    else
      let n := digitsValue plain
      .ok (if negative then -n else n)

/-- Whether an integer has few enough digits to be written. -/
def isWritable (n : Int) : Bool :=
  n.natAbs < Nat.pow 10 Fault.maxDigits

/-- The text of an integer. -/
def writeInteger (n : Int) : Except Fault String :=
  if isWritable n then .ok (toString n) else .error .tooLongToWrite

/-- The names of infinity. -/
def infinityNames : List (List Char) :=
  ["inf".toList, "infinity".toList]

/-- The digits of an exponent with its sign, the whole of a text. -/
def readExponent? : List Char → Option Int
  | [] => some 0
  | c :: cs =>
    if c = 'e' || c = 'E' then
      let (negative, body) := splitSign cs
      let (digits, rest) := splitDigits body
      if digits.isEmpty || !rest.isEmpty then none
      else some (if negative then -digitsValue digits else digitsValue digits)
    else none

/-- An unsigned decimal number: digits, an optional point with more digits, an optional
exponent. -/
def readDecimal? (cs : List Char) : Option Double.Decimal :=
  let (whole, rest) := splitDigits cs
  let (fraction, rest) :=
    match rest with
    | '.' :: rest' => splitDigits rest'
    | _ => ([], rest)
  if whole.isEmpty && fraction.isEmpty then none
  else
    (readExponent? rest).map fun e =>
      ⟨digitsValue (whole ++ fraction), e - fraction.length⟩

/-- A double as text. -/
def readDouble? (text : String) : Option Double :=
  let (negative, body) := splitSign (trimNumber text.toList)
  let word := body.map Char.toLower
  if infinityNames.contains word then some (.inf negative)
  else if word = "nan".toList then some .nan
  else (readDecimal? body).map (Double.ofDecimal negative)

end Montage.Text
