import ColorTheme.Text.Quoted

/-!
# Modes and roles

The two modes of a theme, the four roles a color can serve, and the words for them.
-/

namespace ColorTheme

/-! ### Tones -/

/-- How a color reads. -/
inductive Tone where
  | light
  | dark
  deriving DecidableEq, Repr, Inhabited

def Tone.name : Tone → String
  | .light => "light"
  | .dark => "dark"

/-! ### Modes -/

/-- Which of its two looks a theme shows. -/
inductive Mode where
  | dark
  | light
  deriving DecidableEq, Repr, Inhabited

namespace Mode

/-- The modes, dark first. -/
def all : List Mode := [.dark, .light]

def ofDark (isDark : Bool) : Mode := if isDark then .dark else .light

def isDark : Mode → Bool
  | .dark => true
  | .light => false

/-- The word for a mode, which is also its part of a property name. -/
def name : Mode → String
  | .dark => "dark"
  | .light => "light"

/-- The text that stands for a mode in a preference store. -/
def storedText : Mode → String
  | .dark => "dark-theme"
  | .light => "light-theme"

/-- The mode that a stored text selects: light if it says so, and dark for every other text. -/
def ofStored (text : String) : Mode := if text = storedText .light then .light else .dark

def toggled : Mode → Mode
  | .dark => .light
  | .light => .dark

/-- The mode that a word names, and the word as it was compared if it names none. -/
def parse (text : String) : Except String Mode :=
  let word := lowered (trimmed text)
  match all.find? fun mode => word = mode.name ∨ word = mode.storedText with
  | some mode => .ok mode
  | none => .error word

def unknownMessage (word : String) : String :=
  "unknown theme mode " ++ Text.quoted word ++ " (expected dark or light)"

theorem mem_all (m : Mode) : m ∈ all := by cases m <;> decide

theorem ofStored_storedText (m : Mode) : ofStored m.storedText = m := by cases m <;> decide

end Mode

/-! ### Roles -/

/-- What a color is for. -/
inductive Role where
  | primary
  | warn
  | background
  | text
  deriving DecidableEq, Repr, Inhabited

namespace Role

/-- The roles in their order. -/
def all : List Role := [.primary, .warn, .background, .text]

def name : Role → String
  | .primary => "primary"
  | .warn => "warn"
  | .background => "background"
  | .text => "text"

/-- Text is one color; every other role has a palette. -/
def hasPalette : Role → Bool
  | .text => false
  | _ => true

/-- The role that a word names, and the word as it was compared if it names none. -/
def parse (text : String) : Except String Role :=
  let word := lowered (trimmed text)
  match all.find? fun role => role.name = word with
  | some role => .ok role
  | none => .error word

def unknownMessage (word : String) : String :=
  "unknown role " ++ Text.quoted word ++ " (expected primary, warn, background or text)"

theorem mem_all (r : Role) : r ∈ all := by cases r <;> decide

end Role

end ColorTheme
