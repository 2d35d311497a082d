import ColorTheme.Number.Binary64
import ColorTheme.Theme

/-!
# Colors

A color has three channels in `[0, 255]` and an alpha in `[0, 1]`.  They are floating-point numbers,
so that a chain of derivations rounds to whole channels only when the color is written.  The ranges
are part of the type: every amount that is computed goes through `Amount.clamp`.
-/

namespace ColorTheme

open Binary64 (nan)

/-! ### Amounts -/

/-- A number from zero to `high`, the ends included. -/
structure Amount (high : Binary64) where
  number : Binary64
  zero_le : 0 ≤ number
  le_high : number ≤ high
  deriving DecidableEq

/-- The number moved into the range, and `default` in place of `nan`. -/
def Amount.clamp {high : Binary64} (default : Amount high) (x : Binary64) : Amount high :=
  if h : x = nan then default
  else
    have zero_le_high : 0 ≤ high := Binary64.le_trans default.zero_le default.le_high
    have ne := Binary64.ne_nan_of_le zero_le_high
    ⟨x.clamp 0 high, Binary64.le_clamp h zero_le_high ne.1,
      Binary64.clamp_le h ne.2 ne.1⟩

abbrev Channel := Amount 255

/-- How much a color covers what is behind it. -/
abbrev Alpha := Amount 1

namespace Channel

def off : Channel := ⟨0, by decide +kernel, by decide +kernel⟩

/-- The channel nearest to a number, and no light for `nan`. -/
def ofNumber (x : Binary64) : Channel := Amount.clamp off x

def ofByte (b : UInt8) : Channel := ofNumber (Binary64.ofByte b)

/-- The channel rounded to a whole number, a half upward. -/
def byte (c : Channel) : UInt8 := c.number.roundHalfAway.toByte

end Channel

namespace Alpha

def full : Alpha := ⟨1, by decide +kernel, by decide +kernel⟩

/-- The alpha nearest to a number, and full for `nan`. -/
def ofNumber (x : Binary64) : Alpha := Amount.clamp full x

/-- The alpha on the scale of a byte, rounded to a whole number, a half upward. -/
def byte (a : Alpha) : UInt8 := (a.number * 255).roundHalfAway.toByte

end Alpha

/-! ### Colors -/

structure Color where
  red : Channel
  green : Channel
  blue : Channel
  alpha : Alpha
  deriving DecidableEq

namespace Color

/-- The color with the given numbers, each moved into its range. -/
def ofNumbers (r g b a : Binary64) : Color :=
  ⟨.ofNumber r, .ofNumber g, .ofNumber b, .ofNumber a⟩

/-- The opaque color of three bytes. -/
def rgb (r g b : UInt8) : Color := ⟨.ofByte r, .ofByte g, .ofByte b, .full⟩

def withAlpha (c : Color) (a : Binary64) : Color := { c with alpha := .ofNumber a }

def rgba (r g b : UInt8) (a : Binary64) : Color := (rgb r g b).withAlpha a

def black : Color := rgb 0 0 0

def white : Color := rgb 255 255 255

def isOpaque (c : Color) : Bool := 1 ≤ c.alpha.number

def solid (c : Color) : Color := rgb c.red.byte c.green.byte c.blue.byte

/-! ### Brightness and tone -/

/-- The perceived brightness of the rounded channels, from 0 to 255. -/
def brightness (c : Color) : Binary64 :=
  let r := Binary64.ofByte c.red.byte
  let g := Binary64.ofByte c.green.byte
  let b := Binary64.ofByte c.blue.byte
  (r * 299 + g * 587 + b * 114) / 1000

/-- The brightness below which a color is dark. -/
def darkThreshold : Binary64 := 128

def isDark (c : Color) : Bool := c.brightness < darkThreshold

def isLight (c : Color) : Bool := !c.isDark

def tone (c : Color) : Tone := if c.isDark then .dark else .light

end Color

end ColorTheme
