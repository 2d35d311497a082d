import ColorTheme.Notice
import ColorTheme.Slots

/-!
# Settings

The colors that are used where none is supplied, and what the environment says about them and about
the preference file.
-/

namespace ColorTheme

/-! ### Default colors -/

/-- The color of every role in every mode that is used where none is supplied. -/
abbrev Defaults := Slots Color

namespace Defaults

/-- The colors that come with the program. -/
def builtin : Defaults :=
  ⟨⟨⟨.rgb 0xbb 0xba 0xfa, .rgb 0xff 0x3b 0x5b, .rgb 0x11 0x18 0x27, .white⟩,
    ⟨.rgb 0x54 0x69 0xd4, .rgb 0xcd 0x3d 0x56, .rgb 0xfa 0xfa 0xfa, .black⟩⟩⟩

/-- The slots whose tone matters, in the order in which they are looked at. -/
def toned : List (Role × Mode) :=
  Mode.all.flatMap fun mode => [(.background, mode), (.text, mode)]

/-- The defaults with the color of one slot checked: the built-in one takes the place of a color
that does not suit it. -/
def validateSlot (d : Defaults) (role : Role) (mode : Mode) : Noted Defaults :=
  let color := d.get role mode
  if isSuitable role color mode then return d
  else do
    Noted.note (.defaultReplaced role mode color (builtin.get role mode))
    return d.set role mode (builtin.get role mode)

/-- The defaults with every color checked. -/
def validated (d : Defaults) : Noted Defaults :=
  toned.foldlM (fun d (role, mode) => validateSlot d role mode) d

end Defaults

/-! ### The environment -/

/-- What the program is told by its environment. -/
structure Settings where
  /-- The preference file, if there is one. -/
  storePath : Option String
  defaults : Defaults
  deriving DecidableEq

namespace Settings

def storeVariable : String := "TINT_THEME_STORE"

/-- A text with its ASCII letters in upper case. -/
def capitals (s : String) : String := String.ofList (s.toList.map Char.toUpper)

def colorVariable (role : Role) (mode : Mode) : String :=
  "TINT_" ++ capitals mode.name ++ "_" ++ capitals role.name

/-- The slots in the order in which their variables are looked up. -/
def slots : List (Role × Mode) := Mode.all.flatMap fun mode => Role.all.map fun role => (role, mode)

/-- The path of the preference file; a blank one counts as none. -/
def storePathOf (lookup : String → Option String) : Option String :=
  ((lookup storeVariable).map trimmed).filter (· ≠ "")

/-- The defaults with the color of one variable, if it is set to a color. -/
def readSlot (lookup : String → Option String) (d : Defaults) (role : Role) (mode : Mode) :
    Noted Defaults :=
  match lookup (colorVariable role mode) with
  | none => return d
  | some text =>
    match Color.parse text with
    | .ok color => return d.set role mode color
    | .error error => do
      Noted.note (.variableIgnored (colorVariable role mode) error)
      return d

/-- The settings of an environment.  A variable that is no color is ignored, and a color that does
not suit its slot gives way to the built-in one. -/
def ofLookup (lookup : String → Option String) : Noted Settings := do
  let d ← slots.foldlM (fun d (role, mode) => readSlot lookup d role mode) Defaults.builtin
  return ⟨storePathOf lookup, ← d.validated⟩

end Settings

end ColorTheme
