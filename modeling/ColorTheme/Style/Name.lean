import ColorTheme.Shade

/-!
# Property names

The custom properties that a theme is written to: for each mode, a color and an overlay for every
shade of every role with a palette, and the two text colors.
-/

namespace ColorTheme.Style

/-- What the names of a mode start with. -/
def modeStart (mode : Mode) : String := "--theme-" ++ mode.name ++ "-"

def shadeName (mode : Mode) (role : Role) (shade : Shade) : String :=
  modeStart mode ++ role.name ++ "-" ++ shade.label

def overlayName (mode : Mode) (role : Role) (shade : Shade) : String :=
  modeStart mode ++ role.name ++ "-contrast-" ++ shade.label

def textName (mode : Mode) : String := modeStart mode ++ "text"

def secondaryTextName (mode : Mode) : String := modeStart mode ++ "secondary-text"

end ColorTheme.Style
