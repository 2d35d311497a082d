import ColorTheme.Palette
import ColorTheme.Policy
import ColorTheme.Settings
import ColorTheme.Style.Name
import ColorTheme.Style.Properties

/-!
# The sheet of a theme

The properties that were written, and beside them the palettes and text colors that they came from.
Colors reach the sheet in two ways: a role with a palette is written as its shades, and text as one
color with a paler variant.
-/

namespace ColorTheme

/-- What was written so far. -/
structure Sheet where
  properties : Style.Properties
  palettes : Slots (Option Palette)
  texts : Modes (Option Color)

namespace Sheet

def empty : Sheet := ⟨.empty, .fill none, ⟨none, none⟩⟩

/-- The palette that was written last for a role in a mode. -/
def palette? (s : Sheet) (role : Role) (mode : Mode) : Option Palette := s.palettes.get role mode

/-- The text color that was written last for a mode. -/
def textColor? (s : Sheet) (mode : Mode) : Option Color := s.texts.get mode

/-! ### Writing -/

def secondaryAlpha : Binary64 := 0.78

def secondaryText (color : Color) : String := (color.withAlpha secondaryAlpha).hex8

/-- The properties with the two of a shade. -/
def setEntry (mode : Mode) (role : Role) (p : Style.Properties) (e : PaletteEntry) :
    Style.Properties :=
  (p.insert (Style.shadeName mode role e.shade) e.hex).insert
    (Style.overlayName mode role e.shade) e.overlay.css

def setPalette (s : Sheet) (role : Role) (mode : Mode) (palette : Palette) : Sheet :=
  { s with
    properties := palette.toList.foldl (setEntry mode role) s.properties
    palettes := s.palettes.set role mode (some palette) }

def setText (s : Sheet) (mode : Mode) (color : Color) : Sheet :=
  { s with
    properties := (s.properties.insert (Style.textName mode) color.text).insert
      (Style.secondaryTextName mode) (secondaryText color)
    texts := s.texts.set mode (some color) }

def writePalette (s : Sheet) (role : Role) (mode : Mode) (base : Color) : Noted Sheet :=
  let palette := Palette.generate base
  ⟨[.applying role mode, .paletteGenerated base, .paletteWritten palette.base.hex],
    s.setPalette role mode palette⟩

def writeText (s : Sheet) (mode : Mode) (color : Color) : Noted Sheet :=
  ⟨[.applying .text mode, .textWritten color (secondaryText color)], s.setText mode color⟩

/-- Writes a color for a role. -/
def write (s : Sheet) (role : Role) (mode : Mode) (color : Color) : Noted Sheet :=
  if role.hasPalette then s.writePalette role mode color else s.writeText mode color

/-! ### Applying -/

/-- The color for a role in a mode: the supplied one if it passes the screening, and the default
with the rejection if it does not. -/
def choose (defaults : Defaults) (role : Role) (supplied : Option String) (mode : Mode) :
    Noted (Color × Option Rejection) :=
  match screen role supplied mode with
  | .ok color => return (color, none)
  | .error rejection => do
    let fallback := defaults.get role mode
    if rejection.isDiagnostic then
      Noted.note (.colorRejected role mode (supplied.getD "") fallback rejection)
    return (fallback, some rejection)

/-- Reads a color for a role whose tone does not matter, and writes it. -/
def applyPlain (s : Sheet) (role : Role) (color : String) (mode : Mode) :
    Except ColorError (Noted Sheet) :=
  (Color.parse color).map (s.writePalette role mode)

/-- Writes the color that is chosen for a role, and tells which it is. -/
def applyChosen (s : Sheet) (defaults : Defaults) (role : Role) (supplied : Option String)
    (mode : Mode) : Noted (Sheet × Color × Option Rejection) := do
  let (color, rejection) ← choose defaults role supplied mode
  return (← s.write role mode color, color, rejection)

/-- The slots in the order in which the defaults are written. -/
def defaultOrder : List (Role × Mode) :=
  Mode.all.flatMap fun mode => Role.all.map fun role => (role, mode)

/-- Writes the default of every role in both modes. -/
def applyDefaults (s : Sheet) (defaults : Defaults) : Noted Sheet :=
  defaultOrder.foldlM (fun s (role, mode) => s.write role mode (defaults.get role mode)) s

/-- The slots in the order in which a policy is applied. -/
def policyOrder : List (Role × Mode) :=
  Role.all.flatMap fun role => Mode.all.map fun mode => (role, mode)

/-- The report on a supplied color: nothing if it was used or left blank. -/
def fallback? (role : Role) (mode : Mode) (supplied : Option String) (color : Color)
    (rejection : Option Rejection) : Option Fallback :=
  match supplied, rejection with
  | some supplied, some rejection =>
    if rejection.isDiagnostic then some ⟨role, mode, supplied, rejection, color.hex⟩ else none
  | _, _ => none

def applySlot (defaults : Defaults) (policy : Policy) (done : Sheet × List Fallback)
    (slot : Role × Mode) : Noted (Sheet × List Fallback) := do
  let (role, mode) := slot
  let supplied := policy.supplied role mode
  let (sheet, color, rejection) ← done.1.applyChosen defaults role supplied mode
  return (sheet, done.2 ++ (fallback? role mode supplied color rejection).toList)

/-- Applies a policy to every role in both modes, and reports the colors that were replaced. -/
def applyPolicy (s : Sheet) (defaults : Defaults) (policy : Policy) :
    Noted (Sheet × List Fallback) := do
  let (sheet, fallbacks) ← policyOrder.foldlM (applySlot defaults policy) (s, [])
  Noted.note (.policyApplied fallbacks.length)
  return (sheet, fallbacks)

end Sheet

end ColorTheme
