import ColorTheme.Color.Basic

/-!
# Hue, saturation and lightness

The conversion between channels and HSL, and the derivations that work on HSL: lightening, darkening
and saturating by percentage points.
-/

namespace ColorTheme

/-- Hue, saturation and lightness, each on the scale from zero to one. -/
structure Hsl where
  hue : Binary64
  saturation : Binary64
  lightness : Binary64
  deriving DecidableEq

namespace Hsl

/-- The hue on its circle, the other two moved into their range. -/
def normalized (x : Hsl) : Hsl :=
  ⟨x.hue.fraction, x.saturation.clamp 0 1, x.lightness.clamp 0 1⟩

/-- The spread of the channels up to which a color is gray. -/
def grayTolerance : Binary64 := 2.220446049250313e-16

end Hsl

namespace Color

/-- The hue of channels with the largest `high` and the spread `d`, on the scale from zero to
six. -/
def hueOf (r g b high d : Binary64) : Binary64 :=
  if high.sameAs r then (g - b) / d + (if g < b then 6 else 0)
  else if high.sameAs g then (b - r) / d + 2
  else (r - g) / d + 4

/-- A color as hue, saturation and lightness; a gray one has hue and saturation zero. -/
def toHsl (c : Color) : Hsl :=
  let r := c.red.number / 255
  let g := c.green.number / 255
  let b := c.blue.number / 255
  let high := (r.larger g).larger b
  let low := (r.smaller g).smaller b
  let l := (high + low) / 2
  let d := high - low
  if d ≤ Hsl.grayTolerance then ⟨0, 0, l⟩
  else
    let s := if 0.5 < l then d / (2 - high - low) else d / (high + low)
    ⟨hueOf r g b high d / 6, s, l⟩

/-- A channel on the scale from zero to one: `p` and `q` are its bounds and `t` is its place on the
circle of hues, which may be up to a turn off. -/
def channelOfHue (p q t : Binary64) : Binary64 :=
  let t := if t < 0 then t + 1 else if 1 < t then t - 1 else t
  if t < 1 / 6 then p + (q - p) * 6 * t
  else if t < 0.5 then q
  else if t < 2 / 3 then p + (q - p) * (2 / 3 - t) * 6
  else p

/-- The color of hue, saturation and lightness. -/
def ofHsl (x : Hsl) (alpha : Binary64) : Color :=
  let x := x.normalized
  let h := x.hue
  let s := x.saturation
  let l := x.lightness
  if s ≤ 0 then ofNumbers (l * 255) (l * 255) (l * 255) alpha
  else
    let q := if l < 0.5 then l * (1 + s) else l + s - l * s
    let p := 2 * l - q
    ofNumbers (channelOfHue p q (h + 1 / 3) * 255) (channelOfHue p q h * 255)
      (channelOfHue p q (h - 1 / 3) * 255) alpha

/-! ### Derivations -/

/-- The color after a change to its HSL form; the alpha is kept. -/
def mapHsl (f : Hsl → Hsl) (c : Color) : Color := ofHsl (f c.toHsl) c.alpha.number

/-- The lightness raised by percentage points. -/
def lighten (c : Color) (points : Binary64) : Color :=
  c.mapHsl fun x => { x with lightness := x.lightness + points / 100 }

/-- The lightness lowered by percentage points. -/
def darken (c : Color) (points : Binary64) : Color :=
  c.mapHsl fun x => { x with lightness := x.lightness - points / 100 }

/-- The saturation raised by percentage points. -/
def saturate (c : Color) (points : Binary64) : Color :=
  c.mapHsl fun x => { x with saturation := x.saturation + points / 100 }

end Color

end ColorTheme
