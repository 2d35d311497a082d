import ColorTheme.Number.Power
import ColorTheme.Color.Basic

/-!
# Contrast

The relative luminance of a color, the contrast ratio of two colors, and the overlay that reads
better on a background.
-/

namespace ColorTheme

/-- The share of light of a channel on the scale from zero to one. -/
def linearLight (c : Binary64) : Binary64 :=
  if c ≤ 0.03928 then c / 12.92 else ((c + 0.055) / 1.055).power 2.4

namespace Channel

/-- The share of light of the rounded channel. -/
def light (c : Channel) : Binary64 := linearLight (Binary64.ofByte c.byte / 255)

end Channel

/-- The contrast ratio of two luminances, in either order. -/
def luminanceRatio (a b : Binary64) : Binary64 :=
  (a.larger b + 0.05) / (a.smaller b + 0.05)

namespace Color

/-- The relative luminance of the rounded channels, from zero to one. -/
def luminance (c : Color) : Binary64 :=
  0.2126 * c.red.light + 0.7152 * c.green.light + 0.0722 * c.blue.light

/-- The contrast ratio of two colors, from 1 to 21. -/
def contrastRatio (a b : Color) : Binary64 := luminanceRatio a.luminance b.luminance

end Color

/-- What is drawn on a background. -/
inductive Overlay where
  /-- Black at 87%. -/
  | nearBlack
  | white
  deriving DecidableEq, Repr

namespace Overlay

def css : Overlay → String
  | .nearBlack => "hsla(0,0%,0%,0.87)"
  | .white => "#ffffff"

/-- The overlay without its transparency. -/
def color : Overlay → Color
  | .nearBlack => .black
  | .white => .white

/-- The overlay with the greater contrast; of two equal ones white. -/
def on (background : Color) : Overlay :=
  let l := background.luminance
  if luminanceRatio Color.white.luminance l < luminanceRatio Color.black.luminance l then .nearBlack
  else .white

end Overlay

end ColorTheme
