import ColorTheme.Color.Parser

/-!
# Screening

Whether a color suits a role in a mode.  A background must have the tone of its mode, and text the
other tone, because it stands on the background.  Primary and warning colors may have any tone.
-/

namespace ColorTheme

/-- The tone that a role needs in a mode, if it needs one. -/
def requiredTone (role : Role) (mode : Mode) : Option Tone :=
  match role, mode with
  | .background, .dark | .text, .light => some .dark
  | .background, .light | .text, .dark => some .light
  | .primary, _ | .warn, _ => none

/-- A color that may serve a role in a mode. -/
def isSuitable (role : Role) (color : Color) (mode : Mode) : Bool :=
  match role, mode with
  | .background, .dark | .text, .light => color.isDark
  | .background, .light | .text, .dark => color.isLight
  | .primary, _ | .warn, _ => true

/-! ### Rejections -/

/-- Why a supplied color is not used. -/
inductive Rejection where
  /-- Nothing was supplied, or nothing but blanks. -/
  | missing
  | malformed (error : ColorError)
  | wrongTone (found required : Tone)
  deriving DecidableEq, Repr

namespace Rejection

/-- A missing color is the usual case and not worth reporting. -/
def isDiagnostic : Rejection → Bool
  | .missing => false
  | _ => true

def message : Rejection → String
  | .missing => "no color supplied"
  | .malformed error => error.message
  | .wrongTone found required => "color is " ++ found.name ++ ", expected " ++ required.name

end Rejection

/-! ### Screening -/

/-- Checks the tone of a color. -/
def screenTone (role : Role) (color : Color) (mode : Mode) : Except Rejection Color :=
  match requiredTone role mode with
  | none => .ok color
  | some required =>
    if isSuitable role color mode then .ok color else .error (.wrongTone color.tone required)

/-- Reads a color that was supplied for a role in a mode, and checks its tone. -/
def screen (role : Role) (supplied : Option String) (mode : Mode) : Except Rejection Color :=
  match supplied.map trimmed with
  | none | some "" => .error .missing
  | some text =>
    match Color.parse text with
    | .error error => .error (.malformed error)
    | .ok color => screenTone role color mode

end ColorTheme
