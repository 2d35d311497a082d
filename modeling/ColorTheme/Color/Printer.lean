import ColorTheme.Number.Decimal
import ColorTheme.Color.Basic

/-!
# Writing colors

Hexadecimal forms without and with the alpha, the functional form, and the form a color is shown
in: the short one if nothing shows through.
-/

namespace ColorTheme

/-- A byte in two lowercase hexadecimal digits. -/
def hexByte (b : UInt8) : List Char := [Nat.digitChar (b.toNat / 16), Nat.digitChar (b.toNat % 16)]

namespace Color

def hexDigits (c : Color) : List Char :=
  hexByte c.red.byte ++ hexByte c.green.byte ++ hexByte c.blue.byte

/-- `#rrggbb`. -/
def hex (c : Color) : String := String.ofList ('#' :: c.hexDigits)

/-- `#rrggbbaa`. -/
def hex8 (c : Color) : String := String.ofList ('#' :: (c.hexDigits ++ hexByte c.alpha.byte))

/-- The digits of the alpha come last. -/
theorem hex8_eq (c : Color) : c.hex8 = c.hex ++ String.ofList (hexByte c.alpha.byte) := by
  rw [hex8, hex, ← String.ofList_append, List.cons_append]

/-- The hexadecimal form, with the alpha if something shows through. -/
def text (c : Color) : String := if c.isOpaque then c.hex else c.hex8

def channelList (c : Color) : String :=
  toString c.red.byte.toNat ++ ", " ++ toString c.green.byte.toNat ++ ", " ++
    toString c.blue.byte.toNat

def roundedAlpha (c : Color) : Binary64 := (c.alpha.number * 100).roundHalfAway / 100

/-- The functional form: `rgb(r, g, b)`, or `rgba(r, g, b, a)` if something shows through. -/
def css (c : Color) : String :=
  if c.isOpaque then "rgb(" ++ c.channelList ++ ")"
  else
    "rgba(" ++ c.channelList ++ ", " ++
      String.ofList (c.roundedAlpha.write Binary64.plainLayout) ++ ")"

end Color

end ColorTheme
