import Montage.Config
import Montage.Text.Keyword
import Montage.Text.Number

/-!
# Header directives

A directive is a line of the header that sets one setting, or the two sides of the frame.
It is a keyword in any letter case, blanks, and a value of the form that its kind
prescribes.  A value of the right form can still be inadmissible: numbers must be positive
and short enough to be read.
-/

namespace Montage

/-- The directives. -/
inductive Directive where
  | project
  | resolution
  | frameRate
  | font
  | fontSize
  | titleColor
  | subtitleColor
  | backgroundAlpha
  | titleX
  | titleY
  | subtitleY
  | titleFontSize
  | subtitleFontSize
  | freeTextColor
  deriving DecidableEq, Repr

namespace Directive

/-- The forms of values. -/
inductive Kind where
  /-- Text in double quotes. -/
  | name
  /-- Two numbers with an x between them. -/
  | sides
  /-- A number. -/
  | count
  /-- A number sign and six hexadecimal digits. -/
  | color
  /-- A number from 0 to 1 in a restricted notation. -/
  | fraction
  deriving DecidableEq, Repr

/-- An admissible value. -/
inductive Value where
  | text (s : String)
  | sides (width height : Int)
  | count (n : Int)
  | fraction (x : Double)
  deriving DecidableEq

/-- All directives. -/
def all : List Directive :=
  [project, resolution, frameRate, font, fontSize, titleColor, subtitleColor,
    backgroundAlpha, titleX, titleY, subtitleY, titleFontSize, subtitleFontSize,
    freeTextColor]

/-- The keyword of a directive. -/
def keyword : Directive → String
  | project => "PROJECT"
  | resolution => "RESOLUTION"
  | frameRate => "FRAMERATE"
  | font => "DEFAULT_FONT"
  | fontSize => "DEFAULT_FONT_SIZE"
  | titleColor => "DEFAULT_TITLE_COLOR"
  | subtitleColor => "DEFAULT_SUBTITLE_COLOR"
  | backgroundAlpha => "DEFAULT_BACKGROUND_ALPHA"
  | titleX => "TITLE_POSITION_X"
  | titleY => "TITLE_POSITION_Y"
  | subtitleY => "SUBTITLE_POSITION_Y"
  | titleFontSize => "TITLE_FONT_SIZE"
  | subtitleFontSize => "SUBTITLE_FONT_SIZE"
  | freeTextColor => "DEFAULT_FREETEXT_COLOR"

/-- The form of the value of a directive. -/
def kind : Directive → Kind
  | project | font => .name
  | resolution => .sides
  | frameRate | fontSize | titleFontSize | subtitleFontSize => .count
  | titleColor | subtitleColor | freeTextColor => .color
  | backgroundAlpha | titleX | titleY | subtitleY => .fraction

/-- The configuration with the settings of a directive changed.  A value of another form
than that of the directive changes nothing. -/
def set : Directive → Value → Config → Config
  | project, .text s, c => { c with projectName := s }
  | resolution, .sides w h, c => { c with width := w, height := h }
  | frameRate, .count n, c => { c with frameRate := n }
  | font, .text s, c => { c with font := s }
  | fontSize, .count n, c => { c with fontSize := n }
  | titleColor, .text s, c => { c with titleColor := s }
  | subtitleColor, .text s, c => { c with subtitleColor := s }
  | backgroundAlpha, .fraction x, c => { c with backgroundAlpha := x }
  | titleX, .fraction x, c => { c with titleX := x }
  | titleY, .fraction x, c => { c with titleY := x }
  | subtitleY, .fraction x, c => { c with subtitleY := x }
  | titleFontSize, .count n, c => { c with titleFontSize := n }
  | subtitleFontSize, .count n, c => { c with subtitleFontSize := n }
  | freeTextColor, .text s, c => { c with freeTextColor := s }
  | _, _, c => c

/-! ### Values

Each reader takes what follows the keyword and its blanks, without the blanks at the end,
and gives `none` if it does not have the form.  The readers of numbers give `some none` for
a number that is not admissible. -/

/-- The text between the first and the last character, both of which are double quotes. -/
def readName? (cs : List Char) : Option String :=
  match cs with
  | '"' :: rest =>
    if rest.getLast? = some '"' && rest.length ≠ 1 then some (String.ofList rest.dropLast)
    else none
  | _ => none

/-- Whether characters are digits, at least one. -/
def areDigits (cs : List Char) : Bool :=
  !cs.isEmpty && cs.all Text.isDigit

/-- The number of given digits, if it is positive and can be read. -/
def positive? (digits : List Char) : Option Int :=
  match Text.readInteger (String.ofList digits) with
  | .ok n => if 0 < n then some n else none
  | .error _ => none

/-- A number. -/
def readCount? (cs : List Char) : Option (Option Int) :=
  if areDigits cs then some (positive? cs) else none

/-- Two numbers with an x of either case between them. -/
def readSides? (cs : List Char) : Option (Option (Int × Int)) :=
  let width := cs.takeWhile Text.isDigit
  match cs.dropWhile Text.isDigit with
  | x :: height =>
    if Text.isLetter 'X' x && areDigits width && areDigits height then
      some do return (← positive? width, ← positive? height)
    else none
  | [] => none

/-- Whether a character is a hexadecimal digit. -/
def isHexDigit (c : Char) : Bool :=
  c.isDigit || ('a' ≤ c && c ≤ 'f') || ('A' ≤ c && c ≤ 'F')

/-- A colour, with its letters turned into capitals. -/
def readColor? (cs : List Char) : Option String :=
  match cs with
  | '#' :: digits =>
    if digits.length = 6 && digits.all isHexDigit then
      some (String.ofList ('#' :: digits.map Char.toUpper))
    else none
  | _ => none

/-- Whether characters are a point and digits. -/
def isPointed (cs : List Char) : Bool :=
  match cs with
  | '.' :: digits => areDigits digits
  | _ => false

/-- Whether characters are the notation of a fraction: 0, 1, 1.0, or digits after a point
with or without a zero before it. -/
def isFraction (cs : List Char) : Bool :=
  cs == ['0'] || cs == ['1'] || cs == ['1', '.', '0'] || isPointed cs
    || (cs.head? == some '0' && isPointed (cs.drop 1))

/-- A fraction. -/
def readFraction? (cs : List Char) : Option Double :=
  if isFraction cs then Text.readDouble? (String.ofList cs) else none

/-- A value of a kind, `some none` if it has the form but is not admissible. -/
def Kind.read? (k : Kind) (cs : List Char) : Option (Option Value) :=
  match k with
  | name => (readName? cs).map fun s => some (.text s)
  | sides => (readSides? cs).map fun v => v.map fun (w, h) => .sides w h
  | count => (readCount? cs).map fun v => v.map .count
  | color => (readColor? cs).map fun s => some (.text s)
  | fraction => (readFraction? cs).map fun x => some (.fraction x)

/-! ### Lines -/

/-- The value that a line gives to a directive: `none` if the line does not have the form of
the directive, and `some none` if its value is not admissible. -/
def scan? (d : Directive) (line : List Char) : Option (Option Value) := do
  let rest ← Text.looseKeyword? d.keyword.toList (Text.trimStart line)
  let rest ← Text.afterBlanks? rest
  d.kind.read? (Text.trimEnd rest)

/-- The change that a line makes to a configuration, by the first directive whose form it
has. -/
def apply (line : List Char) (c : Config) : Config :=
  match all.findSome? fun d => (d.scan? line).map (d, ·) with
  | some (d, some v) => d.set v c
  | _ => c

end Directive

end Montage
