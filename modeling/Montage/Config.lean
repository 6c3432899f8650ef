import Montage.Double.Text

/-!
# Project settings

`Config` holds the settings that the header of a script can change: the name of the project,
the size and rate of its frames, and the fonts, colours and positions of its captions.
Positions and the background opacity are fractions of 1.  The default value of a `Config` is
the configuration of a script without a header.
-/

namespace Montage

/-- The double nearest to a number of hundredths. -/
def hundredths (n : Nat) : Double :=
  Double.ofDecimal false ⟨n, -2⟩

/-- The settings of a project. -/
structure Config where
  projectName : String := "Untitled Project"
  width : Int := 1920
  height : Int := 1080
  frameRate : Int := 30
  font : String := "Meiryo"
  fontSize : Int := 24
  titleColor : String := "#FFFFFF"
  subtitleColor : String := "#FFFFFF"
  backgroundAlpha : Double := hundredths 80
  titleX : Double := hundredths 5
  titleY : Double := hundredths 5
  subtitleY : Double := hundredths 85
  titleFontSize : Int := 32
  subtitleFontSize : Int := 24
  freeTextColor : String := "#FFFFFF"
  deriving DecidableEq

namespace Config

/-- Width and height in one word. -/
def resolution (c : Config) : String :=
  toString c.width ++ "x" ++ toString c.height

/-- Whether all settings agree, fractions as numbers. -/
def agrees (c d : Config) : Bool :=
  c.projectName == d.projectName && c.width == d.width && c.height == d.height
    && c.frameRate == d.frameRate && c.font == d.font && c.fontSize == d.fontSize
    && c.titleColor == d.titleColor && c.subtitleColor == d.subtitleColor
    && c.backgroundAlpha.equals d.backgroundAlpha && c.titleX.equals d.titleX
    && c.titleY.equals d.titleY && c.subtitleY.equals d.subtitleY
    && c.titleFontSize == d.titleFontSize && c.subtitleFontSize == d.subtitleFontSize
    && c.freeTextColor == d.freeTextColor

end Config

end Montage
