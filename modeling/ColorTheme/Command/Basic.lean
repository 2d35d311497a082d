import ColorTheme.Command.Arguments
import ColorTheme.Theme

/-!
# Commands

What the program can be asked to do, and how it is asked: the palette of a color, a report on a
color, the properties of a theme, and the mode in a preference file.
-/

namespace ColorTheme

/-- How the properties of a theme are written. -/
inductive SheetFormat where
  | css
  | json
  deriving DecidableEq, Repr

/-- What is done with the mode in a preference file. -/
inductive ModeAction where
  | showMode
  | setMode (mode : Mode)
  | toggle
  deriving DecidableEq, Repr

namespace ModeAction

/-- The action changes the preference file. -/
def writes : ModeAction → Bool
  | .showMode => false
  | .setMode _ | .toggle => true

end ModeAction

namespace Command

/-- What a report on a color takes. -/
structure CheckArguments where
  color : String
  /-- The color has to suit this role in this mode, if both are given. -/
  role : Option Role
  mode : Option Mode
  json : Bool
  deriving DecidableEq, Repr

structure ApplyArguments where
  /-- The file with the policy; a dash stands for the input. -/
  policy : Option String
  /-- The modes whose properties are written. -/
  modes : List Mode
  format : SheetFormat
  selector : String
  deriving DecidableEq, Repr

/-- What the mode of a preference file takes. -/
structure ModeArguments where
  action : ModeAction
  /-- The preference file, in place of the one of the environment. -/
  store : Option String
  json : Bool
  deriving DecidableEq, Repr

end Command

inductive Command where
  | showPalette (color : String) (json : Bool)
  | checkColor (arguments : Command.CheckArguments)
  | writeTheme (arguments : Command.ApplyArguments)
  | accessMode (arguments : Command.ModeArguments)
  deriving DecidableEq, Repr

namespace Command

/-! ### Palette -/

structure PaletteValues where
  color : Option String
  json : Bool

def paletteGrammar : Grammar PaletteValues where
  start := ⟨none, false⟩
  flags := [("json", fun v => { v with json := true })]
  options := []
  operand := some (ValueReader.anyText.into fun color v => { v with color := some color })
  commands := []
  hasVersion := false

/-- The color has to be given. -/
def PaletteValues.command (v : PaletteValues) : Except UsageError Command :=
  match v.color with
  | some color => .ok (.showPalette color v.json)
  | none => .error .argumentMissing

/-! ### Check -/

structure CheckValues where
  color : Option String
  role : Option Role
  mode : Option Mode
  json : Bool

def checkGrammar : Grammar CheckValues where
  start := ⟨none, none, none, false⟩
  flags := [("json", fun v => { v with json := true })]
  options :=
    [("role", (ValueReader.accepted Role.parse).into fun role v => { v with role := some role }),
      ("mode", (ValueReader.accepted Mode.parse).into fun mode v => { v with mode := some mode })]
  operand := some (ValueReader.anyText.into fun color v => { v with color := some color })
  commands := []
  hasVersion := false

/-- The color has to be given, and a role needs a mode. -/
def CheckValues.command (v : CheckValues) : Except UsageError Command :=
  match v.color with
  | some color =>
    if v.role.isSome ∧ v.mode.isNone then .error .argumentMissing
    else .ok (.checkColor ⟨color, v.role, v.mode, v.json⟩)
  | none => .error .argumentMissing

/-! ### Apply -/

def modeWords : List (String × List Mode) :=
  [("dark", [.dark]), ("light", [.light]), ("both", Mode.all)]

def formatWords : List (String × SheetFormat) := [("css", .css), ("json", .json)]

def applyGrammar : Grammar ApplyArguments where
  start := ⟨none, Mode.all, .css, ":root"⟩
  flags := []
  options :=
    [("policy", ValueReader.path.into fun path v => { v with policy := some path }),
      ("mode", (ValueReader.word modeWords).into fun modes v => { v with modes := modes }),
      ("format", (ValueReader.word formatWords).into fun format v => { v with format := format }),
      ("selector", ValueReader.anyText.into fun selector v => { v with selector := selector })]
  operand := none
  commands := []
  hasVersion := false

/-! ### Mode -/

/-- What can be given on every level of the mode command. -/
structure ModeValues where
  action : Option ModeAction
  /-- A mode to set. -/
  mode : Option Mode
  store : Option String
  json : Bool

/-- The grammar of an action, without the commands of the level. -/
def actionGrammar (operand : Option (Setter ModeValues)) : Grammar ModeValues where
  start := ⟨none, none, none, false⟩
  flags := [("json", fun v => { v with json := true })]
  options := [("store", ValueReader.path.into fun path v => { v with store := some path })]
  operand := operand
  commands := []
  hasVersion := false

def modeOperand : Setter ModeValues :=
  (ValueReader.accepted Mode.parse).into fun mode v => { v with mode := some mode }

/-- What an action says goes before what was said above it. -/
def ModeValues.within (inner : ModeValues) (action : ModeAction) (outer : ModeValues) :
    ModeValues :=
  { outer with
    action := some action
    store := inner.store.or outer.store
    json := inner.json || outer.json }

def plainAction (name : String) (action : ModeAction) : Subcommand ModeValues where
  name := name
  leadsTo := List.isEmpty
  parse := fun arguments => do
    return ModeValues.within (← (actionGrammar none).parse arguments) action

/-- The action that sets a mode, which has to be given. -/
def setAction : Subcommand ModeValues where
  name := "set"
  leadsTo := List.isEmpty
  parse := fun arguments => do
    let inner ← (actionGrammar (some modeOperand)).parse arguments
    match inner.mode with
    | some target => return inner.within (.setMode target)
    | none => .error .argumentMissing

def actions : List (Subcommand ModeValues) :=
  [plainAction "show" .showMode, setAction, plainAction "toggle" .toggle]

def modeGrammar : Grammar ModeValues := { actionGrammar none with commands := actions }

/-- Without an action the mode is shown. -/
def ModeValues.command (v : ModeValues) : Command :=
  .accessMode ⟨v.action.getD .showMode, v.store, v.json⟩

/-! ### The program -/

def programCommand (name : String) (inner : List String → Bool)
    (parse : List String → Except UsageError Command) : Subcommand (Option Command) where
  name := name
  leadsTo := inner
  parse := fun arguments => do
    let command ← parse arguments
    return fun _ => some command

def programCommands : List (Subcommand (Option Command)) :=
  [programCommand "palette" List.isEmpty fun arguments => do
      (← paletteGrammar.parse arguments).command,
    programCommand "check" List.isEmpty fun arguments => do
      (← checkGrammar.parse arguments).command,
    programCommand "apply" List.isEmpty fun arguments => do
      return .writeTheme (← applyGrammar.parse arguments),
    programCommand "mode" (leadsTo actions) fun arguments => do
      return (← modeGrammar.parse arguments).command]

def programGrammar : Grammar (Option Command) where
  start := none
  flags := []
  options := []
  operand := none
  commands := programCommands
  hasVersion := true

/-- The command that arguments ask for. -/
def ofArguments (arguments : List String) : Except UsageError Command := do
  match ← programGrammar.parse arguments with
  | some command => return command
  | none => .error .commandMissing

end Command

end ColorTheme
