import ColorTheme.Number.Decimal
import ColorTheme.Color.Basic
import ColorTheme.Text.Split

/-!
# Reading colors

A color is written in hexadecimal, with 3, 4, 6 or 8 digits and a `#` or not, or in the functional
form `rgb(...)` or `rgba(...)` with three or four numbers, each of which may be a percentage.  Blanks
around it and the case of its letters do not matter.
-/

namespace ColorTheme

/-! ### What can be wrong -/

/-- Why a text is no color. -/
inductive ColorError where
  | empty
  /-- The trimmed text in its own letter case. -/
  | malformed (text : String)
  deriving DecidableEq, Repr

def ColorError.message : ColorError → String
  | .empty => "empty color string"
  | .malformed text => "invalid color format: " ++ Text.quoted text

namespace Color

/-! ### Hexadecimal form -/

def hexValue? (c : Char) : Option Nat :=
  if '0' ≤ c ∧ c ≤ '9' then some (c.toNat - '0'.toNat)
  else if 'a' ≤ c ∧ c ≤ 'f' then some (c.toNat - 'a'.toNat + 10)
  else none

/-- The byte of a digit that stands for itself twice. -/
def doubled (n : Nat) : UInt8 := UInt8.ofNat (17 * n)

def paired (m n : Nat) : UInt8 := UInt8.ofNat (16 * m + n)

def alphaOfByte (b : UInt8) : Binary64 := Binary64.ofByte b / 255

/-- The color of the values of its digits. -/
def ofHexValues : List Nat → Option Color
  | [r, g, b] => some (rgb (doubled r) (doubled g) (doubled b))
  | [r, g, b, a] => some (rgba (doubled r) (doubled g) (doubled b) (alphaOfByte (doubled a)))
  | [r, r', g, g', b, b'] => some (rgb (paired r r') (paired g g') (paired b b'))
  | [r, r', g, g', b, b', a, a'] =>
    some (rgba (paired r r') (paired g g') (paired b b') (alphaOfByte (paired a a')))
  | _ => none

/-- Reads lowercase hexadecimal digits. -/
def ofHex? (cs : List Char) : Option Color := (cs.mapM hexValue?).bind ofHexValues

/-! ### Functional form -/

/-- The list without `front`, if it starts with it. -/
def dropFront? (front cs : List Char) : Option (List Char) :=
  if front.isPrefixOf cs then some (cs.drop front.length) else none

/-- The list without its last character, if that is `last`. -/
def dropLast? (last : Char) (cs : List Char) : Option (List Char) :=
  if cs.getLast? = some last then some cs.dropLast else none

/-- What stands between the parentheses after `name`; blanks may stand before the first one. -/
def arguments? (name cs : List Char) : Option (List Char) := do
  let rest ← dropFront? name cs
  let rest ← dropFront? ['('] (Text.trimStart rest)
  dropLast? ')' rest

/-- Commas and blanks stand between arguments. -/
def isSeparator (c : Char) : Bool := c = ',' || Text.isBlank c

/-- The arguments: the pieces that are not empty. -/
def pieces (cs : List Char) : List (List Char) := (Text.split isSeparator cs).filter (!·.isEmpty)

/-- Reads a finite number. -/
def finiteNumber? (cs : List Char) : Option Binary64 :=
  (Binary64.parse? cs).filter Binary64.isFinite

/-- Reads a channel: a number, or a percentage of the full channel. -/
def channelNumber? (cs : List Char) : Option Binary64 :=
  match dropLast? '%' cs with
  | some percent => (finiteNumber? percent).map fun p => p.clamp 0 100 * 2.55
  | none => finiteNumber? cs

/-- Reads an alpha: a number, or a percentage. -/
def alphaNumber? (cs : List Char) : Option Binary64 :=
  match dropLast? '%' cs with
  | some percent => (finiteNumber? percent).map fun p => p / 100
  | none => finiteNumber? cs

/-- Reads the arguments of a functional form; a missing alpha is full. -/
def ofArguments? (cs : List Char) : Option Color :=
  match pieces cs with
  | [r, g, b] => do
    return ofNumbers (← channelNumber? r) (← channelNumber? g) (← channelNumber? b) 1
  | [r, g, b, a] => do
    return ofNumbers (← channelNumber? r) (← channelNumber? g) (← channelNumber? b)
      (← alphaNumber? a)
  | _ => none

/-! ### Colors -/

/-- The arguments of either functional form; the two names mean the same. -/
def functional? (cs : List Char) : Option (List Char) :=
  arguments? ['r', 'g', 'b', 'a'] cs <|> arguments? ['r', 'g', 'b'] cs

/-- Reads a color in lower case and without blanks around it. -/
def ofLower? (cs : List Char) : Option Color :=
  match functional? cs with
  | some arguments => ofArguments? arguments
  | none => ofHex? ((dropFront? ['#'] cs).getD cs)

def parse (text : String) : Except ColorError Color :=
  let cs := Text.trim text.toList
  if cs.isEmpty then .error .empty
  else match ofLower? (Text.lower cs) with
    | some c => .ok c
    | none => .error (.malformed (String.ofList cs))

end Color

end ColorTheme
