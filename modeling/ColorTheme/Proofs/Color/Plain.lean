import ColorTheme.Color.Hsl
import ColorTheme.Color.Parser

/-!
# Colors as plain numbers

Making, changing and reading colors once more, on four numbers that no type keeps in their ranges, and
with every step at which a program can stop: a range with its ends in the wrong order, an index outside
a text, a product too large for a byte, a cast that would change the number.
-/

namespace ColorTheme

/-! ### Attempts -/

/-- How a computation ends. -/
inductive Attempt (α : Type) where
  | answer (a : α)
  /-- The input has no answer. -/
  | refused
  /-- A step cannot be done. -/
  | stopped
  deriving DecidableEq

namespace Attempt

instance : Monad Attempt where
  pure := .answer
  bind
    | .answer a, f => f a
    | .refused, _ => .refused
    | .stopped, _ => .stopped

/-- No answer is a refusal. -/
def ofOption {α : Type} : Option α → Attempt α
  | some a => .answer a
  | none => .refused

/-- The number moved into a range, whose ends have to be in order. -/
def clamp (x low high : Binary64) : Attempt Binary64 :=
  if low ≤ high then .answer (x.clamp low high) else .stopped

/-- The byte of a whole number, which has to be in range. -/
def cast (x : Binary64) : Attempt UInt8 :=
  if 0 ≤ x ∧ x ≤ 255 then .answer x.toByte else .stopped

/-- An entry of a list, which has to be there. -/
def entry (values : List Nat) (i : Nat) : Attempt Nat :=
  match values[i]? with
  | some n => .answer n
  | none => .stopped

/-- The byte of a digit that stands for itself twice; the product has to be a byte. -/
def doubled (values : List Nat) (i : Nat) : Attempt UInt8 := do
  let n ← entry values i
  if 17 * n < 256 then .answer (.ofNat (17 * n)) else .stopped

def paired (values : List Nat) (i : Nat) : Attempt UInt8 := do
  let m ← entry values i
  let n ← entry values (i + 1)
  if 16 * m + n < 256 then .answer (.ofNat (16 * m + n)) else .refused

end Attempt

open Attempt (entry)

/-! ### Making colors -/

/-- Four numbers. -/
structure Plain where
  red : Binary64
  green : Binary64
  blue : Binary64
  alpha : Binary64
  deriving DecidableEq

namespace Plain

def channel (x : Binary64) : Attempt Binary64 :=
  if x.isNan then .answer 0 else .clamp x 0 255

def opacity (x : Binary64) : Attempt Binary64 :=
  if x.isNan then .answer 1 else .clamp x 0 1

def ofNumbers (r g b a : Binary64) : Attempt Plain := do
  return ⟨← channel r, ← channel g, ← channel b, ← opacity a⟩

def rgb (r g b : UInt8) : Plain := ⟨.ofByte r, .ofByte g, .ofByte b, 1⟩

def withAlpha (c : Plain) (a : Binary64) : Attempt Plain := do
  return { c with alpha := ← opacity a }

def rgba (r g b : UInt8) (a : Binary64) : Attempt Plain := (rgb r g b).withAlpha a

/-! ### Changing colors -/

def toHsl (c : Plain) : Hsl :=
  let r := c.red / 255
  let g := c.green / 255
  let b := c.blue / 255
  let high := (r.larger g).larger b
  let low := (r.smaller g).smaller b
  let l := (high + low) / 2
  let d := high - low
  if d ≤ Hsl.grayTolerance then ⟨0, 0, l⟩
  else
    let s := if 0.5 < l then d / (2 - high - low) else d / (high + low)
    ⟨Color.hueOf r g b high d / 6, s, l⟩

def ofHsl (x : Hsl) (alpha : Binary64) : Attempt Plain := do
  let h := x.hue.fraction
  let s ← .clamp x.saturation 0 1
  let l ← .clamp x.lightness 0 1
  if s ≤ 0 then ofNumbers (l * 255) (l * 255) (l * 255) alpha
  else
    let q := if l < 0.5 then l * (1 + s) else l + s - l * s
    let p := 2 * l - q
    ofNumbers (Color.channelOfHue p q (h + 1 / 3) * 255) (Color.channelOfHue p q h * 255)
      (Color.channelOfHue p q (h - 1 / 3) * 255) alpha

def mapHsl (f : Hsl → Hsl) (c : Plain) : Attempt Plain := ofHsl (f c.toHsl) c.alpha

def lighten (c : Plain) (points : Binary64) : Attempt Plain :=
  c.mapHsl fun x => { x with lightness := x.lightness + points / 100 }

def darken (c : Plain) (points : Binary64) : Attempt Plain :=
  c.mapHsl fun x => { x with lightness := x.lightness - points / 100 }

def saturate (c : Plain) (points : Binary64) : Attempt Plain :=
  c.mapHsl fun x => { x with saturation := x.saturation + points / 100 }

/-! ### Reading colors -/

/-- The color of the values of its digits, which are looked up one by one. -/
def ofHexValues (values : List Nat) : Attempt Plain :=
  match values.length with
  | 3 => do return rgb (← .doubled values 0) (← .doubled values 1) (← .doubled values 2)
  | 4 => do
    rgba (← .doubled values 0) (← .doubled values 1) (← .doubled values 2)
      (Color.alphaOfByte (← .doubled values 3))
  | 6 => do return rgb (← .paired values 0) (← .paired values 2) (← .paired values 4)
  | 8 => do
    rgba (← .paired values 0) (← .paired values 2) (← .paired values 4)
      (Color.alphaOfByte (← .paired values 6))
  | _ => .refused

def ofHex (cs : List Char) : Attempt Plain := do
  ofHexValues (← .ofOption (cs.mapM Color.hexValue?))

def channelNumber (cs : List Char) : Attempt Binary64 :=
  match Color.dropLast? '%' cs with
  | some percent => do
    let p ← .ofOption (Color.finiteNumber? percent)
    return (← .clamp p 0 100) * 2.55
  | none => .ofOption (Color.finiteNumber? cs)

def ofArguments (cs : List Char) : Attempt Plain :=
  match Color.pieces cs with
  | [r, g, b] => do
    ofNumbers (← channelNumber r) (← channelNumber g) (← channelNumber b) 1
  | [r, g, b, a] => do
    ofNumbers (← channelNumber r) (← channelNumber g) (← channelNumber b)
      (← .ofOption (Color.alphaNumber? a))
  | _ => .refused

def parse (text : String) : Attempt Plain :=
  let cs := Text.trim text.toList
  if cs.isEmpty then .refused
  else match Color.functional? (Text.lower cs) with
    | some arguments => ofArguments arguments
    | none => ofHex ((Color.dropFront? ['#'] (Text.lower cs)).getD (Text.lower cs))

/-! ### Bytes -/

/-- The byte of a channel, moved into its range once more before it is rounded. -/
def channelByte (x : Binary64) : Attempt UInt8 := do .cast (← channel x).roundHalfAway

def alphaByte (x : Binary64) : Attempt UInt8 := .cast (x * 255).roundHalfAway

end Plain

/-! ### Constructions -/

/-- How a color is made: from a text, bytes or HSL, and by derivations one after the other. -/
inductive Construction where
  | parse (text : String)
  | rgb (red green blue : UInt8)
  | rgba (red green blue : UInt8) (alpha : Binary64)
  | ofHsl (x : Hsl) (alpha : Binary64)
  | lighten (c : Construction) (points : Binary64)
  | darken (c : Construction) (points : Binary64)
  | saturate (c : Construction) (points : Binary64)
  | withAlpha (c : Construction) (alpha : Binary64)

namespace Construction

def text? : Construction → Option String
  | .parse text => some text
  | .rgb .. | .rgba .. | .ofHsl .. => none
  | .lighten c _ | .darken c _ | .saturate c _ | .withAlpha c _ => c.text?

/-- The color that is made, unless it starts with a text that is no color. -/
def color? : Construction → Option Color
  | .parse text => (Color.parse text).toOption
  | .rgb r g b => some (.rgb r g b)
  | .rgba r g b a => some (.rgba r g b a)
  | .ofHsl x a => some (.ofHsl x a)
  | .lighten c points => c.color?.map (·.lighten points)
  | .darken c points => c.color?.map (·.darken points)
  | .saturate c points => c.color?.map (·.saturate points)
  | .withAlpha c a => c.color?.map (·.withAlpha a)

def plain : Construction → Attempt Plain
  | .parse text => Plain.parse text
  | .rgb r g b => .answer (Plain.rgb r g b)
  | .rgba r g b a => Plain.rgba r g b a
  | .ofHsl x a => Plain.ofHsl x a
  | .lighten c points => do (← c.plain).lighten points
  | .darken c points => do (← c.plain).darken points
  | .saturate c points => do (← c.plain).saturate points
  | .withAlpha c a => do (← c.plain).withAlpha a

end Construction

end ColorTheme
