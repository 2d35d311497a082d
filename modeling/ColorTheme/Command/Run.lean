import ColorTheme.Command.Failure
import ColorTheme.Command.Report
import ColorTheme.Command.Selection

/-!
# Running commands

What each command does, as a plan that ends well or in a failure.  A command prints all of its
output at once; a check that fails has printed its report before.
-/

namespace ColorTheme.Command

/-! ### Palette -/

def runPalette (color : String) (json : Bool) : Plan (Except Failure Unit) :=
  match Color.parse color with
  | .error e => return .error (.color e)
  | .ok base => do
    let palette := Palette.generate base
    Plan.report [.paletteGenerated base, .paletteRequested color]
    Plan.say (if json then jsonLines palette.toJson else paletteTable palette)
    return .ok ()

/-! ### Check -/

/-- A color suits a role in a mode, if both are given. -/
def verify (a : CheckArguments) (color : Color) : Except Failure Unit :=
  match a.role, a.mode with
  | some role, some mode =>
    match screen role (some a.color) mode with
    | .ok _ => .ok ()
    | .error rejection => .error (.unsuitable color role mode rejection)
  | _, _ => .ok ()

/-- Prints the report on a color, and fails if the color does not suit. -/
def runCheck (a : CheckArguments) : Plan (Except Failure Unit) :=
  match Color.parse a.color with
  | .error e => return .error (.color e)
  | .ok color => do
    let report := Report.ofColor color
    Plan.say (if a.json then jsonLines report.toJson else report.text)
    return verify a color

/-! ### Apply -/

/-- The text of a policy: the input for a dash, and a file for all else. -/
def readPolicyText (path : String) : Plan (Except Failure String) :=
  if path = "-" then .readInput fun
    | .ok text => .done (.ok text)
    | .error cause => .done (.error (.input cause))
  else .readText path fun
    | .ok text => .done (.ok text)
    | .error cause => .done (.error (.policyFile path cause))

/-- The policy of a path; without a path there is none. -/
def readPolicy : Option String → Plan (Except Failure (Option Policy))
  | none => return .ok none
  | some path => do
    match ← readPolicyText path with
    | .error f => return .error f
    | .ok text =>
      match Policy.ofJson text with
      | .error fault => return .error (.policyText fault)
      | .ok policy => return .ok (some policy)

def runApply (a : ApplyArguments) (settings : Settings) : Plan (Except Failure Unit) := do
  match ← readPolicy a.policy with
  | .error f => return .error f
  | .ok policy => do
    let (sheet, fallbacks) ← Plan.ofNoted (themed settings.defaults policy)
    Plan.report (fallbacks.map fallbackNotice)
    Plan.say
      (writeSelection a.format a.selector (selection sheet.properties a.modes) fallbacks)
    return .ok ()

/-! ### Mode -/

/-- The context after an action, in the mode that the action reports. -/
def perform (c : Context) : ModeAction → Plan Context
  | .showMode => return c
  | .setMode target => do return (← c.setMode target).1
  | .toggle => do return (← c.toggle).1

def modeJson (mode : Mode) (stored : Option String) (path : String) : Json :=
  .record [("mode", .text mode.name), ("stored", .text (stored.getD "")), ("store", .text path)]

/-- What an action prints. -/
def modeOutput (json : Bool) (mode : Mode) (stored : Option String) (path : String) : String :=
  if json then jsonLines (modeJson mode stored path) else mode.name ++ "\n"

/-- Performs an action on the preference file of a path.  What the file holds in the end is read
again, so that a mode that could not be stored is a failure. -/
def runModeOn (a : ModeArguments) (path : String) : Plan (Except Failure Unit) := do
  let (resumed, _) ← (Context.new (.file path) .builtin).resume
  let c ← perform resumed a.action
  match ← c.store.get themeKey with
  | .error e => return .error (.store e)
  | .ok stored =>
    if a.action.writes ∧ stored ≠ some c.mode.storedText then
      return .error (.notPersisted c.mode path)
    else do
      Plan.say (modeOutput a.json c.mode stored path)
      return .ok ()

/-- Shows or changes the mode of the preference file. -/
def runMode (a : ModeArguments) (settings : Settings) : Plan (Except Failure Unit) :=
  match a.store.or settings.storePath with
  | some path => runModeOn a path
  | none => return .error .storeUnknown

/-! ### All commands -/

def run (settings : Settings) : Command → Plan (Except Failure Unit)
  | .showPalette color json => runPalette color json
  | .checkColor a => runCheck a
  | .writeTheme a => runApply a settings
  | .accessMode a => runMode a settings

end ColorTheme.Command
