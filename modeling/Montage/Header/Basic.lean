import Montage.Header.Directive
import Montage.Text.Lines

/-!
# Headers

The lines of a script up to the first separator, a line of three or more equals signs, are
its header; the lines after it are its body.  The configuration of a script results from
the directives of its header in order.  A script without a separator has no header and the
default configuration.  `Header.render` writes a configuration as a header.
-/

namespace Montage.Header

/-- Whether a line separates header and body. -/
def isSeparator (line : List Char) : Bool :=
  3 ≤ line.length && line.all (· == '=')

/-- The configuration that the lines up to the first separator lead to, and the number of
lines up to and including it, given those before; `none` without a separator. -/
def splitFrom (c : Config) (before : Nat) : List (List Char) → Option (Config × Nat)
  | [] => none
  | line :: rest =>
    if isSeparator line then some (c, before + 1)
    else splitFrom (Directive.apply line c) (before + 1) rest

/-- The configuration of a script and the index of the first line of its body. -/
def split (text : String) : Config × Nat :=
  (splitFrom {} 0 (Text.splitLines text.toList)).getD ({}, 0)

/-- The lines of a text from an index on, joined by line feeds; a negative index counts from
the end. -/
def bodyText (text : String) (start : Int) : String :=
  let ls := Text.splitLines text.toList
  let skipped := if start < 0 then ls.length - start.natAbs else start.toNat
  String.ofList (Text.joinLines (ls.drop skipped))

/-! ### Rendering -/

/-- Zeros at the end removed. -/
def dropZeros (cs : List Char) : List Char :=
  (cs.reverse.dropWhile (· == '0')).reverse

/-- A fraction in the notation of the directives, rounded to four places. -/
def renderFraction (x : Double) : String :=
  if Double.ofInt 1 ≤ x then "1.0"
  else if x ≤ Double.zero then "0"
  else
    let digits := dropZeros (x.toFixed 4).toList
    if digits.getLast? = some '.' then "0" else String.ofList digits

/-- The value of a directive in a configuration, as its line shows it. -/
def renderValue (c : Config) : Directive → String
  | .project => "\"" ++ c.projectName ++ "\""
  | .resolution => c.resolution
  | .frameRate => toString c.frameRate
  | .font => "\"" ++ c.font ++ "\""
  | .fontSize => toString c.fontSize
  | .titleColor => c.titleColor
  | .subtitleColor => c.subtitleColor
  | .backgroundAlpha => renderFraction c.backgroundAlpha
  | .titleX => renderFraction c.titleX
  | .titleY => renderFraction c.titleY
  | .subtitleY => renderFraction c.subtitleY
  | .titleFontSize => toString c.titleFontSize
  | .subtitleFontSize => toString c.subtitleFontSize
  | .freeTextColor => c.freeTextColor

/-- The line of a directive for a configuration. -/
def renderLine (c : Config) (d : Directive) : String :=
  d.keyword ++ " " ++ renderValue c d

/-- A configuration as a header: a line for each directive and a separator. -/
def render (c : Config) : String :=
  Text.unlines (Directive.all.map (renderLine c) ++ ["===", ""])

end Montage.Header
