import ColorTheme.Context.Sheet
import ColorTheme.Observable.Basic
import ColorTheme.Store.Basic

/-!
# Theme contexts

A context owns the mode of a theme, the sheet that its colors are written to, and the store that
remembers the mode.  Listeners hear of every change of the mode, also of one to the same mode.  A
store that fails is reported and never stops a change.
-/

namespace ColorTheme

/-! ### Listeners -/

/-- What a listener does when it hears of a mode. -/
inductive Reaction where
  /-- Ends the subscription under a name. -/
  | drop (name : String)
  | panic
  deriving DecidableEq, Repr

/-- Someone who wants to hear of the mode. -/
structure Listener where
  name : String
  react : Mode → List Reaction

def Reaction.act : Reaction → Observable.Act Listener Mode
  | .drop name => .drop name
  | .panic => .panic

/-- A listener reacts to the mode alone. -/
def Listener.behavior : Observable.Behavior Listener Mode := fun listener _ mode =>
  (listener.react mode).map Reaction.act

/-- How a call to the outside ended. -/
inductive Outcome where
  | returned
  | panicked
  deriving DecidableEq, Repr

/-- The mode with its listeners. -/
abbrev ModeCell := Observable Listener Mode

namespace ModeCell

/-- The steps that tell every entry of a mode: three for the round, one for each entry and one for
each of its reactions. -/
def deliverySteps (cell : ModeCell) (mode : Mode) : Nat :=
  3 + cell.entries.foldr (fun e n => 1 + (e.callback.react mode).length + n) 0

/-- Tells every listener of a mode. -/
def announce (cell : ModeCell) (mode : Mode) : ModeCell × Outcome :=
  let cell := Observable.run Listener.behavior (deliverySteps cell mode) (cell.publish mode)
  (cell, if cell.isUnwound then .panicked else .returned)

/-- Reactions outside of a delivery, up to the first that gives up. -/
def react (cell : ModeCell) : List Reaction → ModeCell × Outcome
  | [] => (cell, .returned)
  | .drop name :: rest => react (cell.drop name) rest
  | .panic :: _ => (cell, .panicked)

/-- Tells a new listener of the mode at once, and registers it if it does not give up. -/
def welcome (cell : ModeCell) (listener : Listener) : ModeCell × Outcome :=
  let told := cell.record (.called listener cell.value cell.value)
  match react told (listener.react cell.value) with
  | (cell, .panicked) => (cell, .panicked)
  | (cell, .returned) => (cell.subscribe listener.name listener, .returned)

/-- The notices of the rounds since the journal had the given length. -/
def roundNotices (cell : ModeCell) (length : Nat) : List Notice :=
  (cell.since length).filterMap fun
    | .round _ [] => none
    | .round _ entries => some (.delivering entries.length)
    | _ => none

end ModeCell

/-! ### Contexts -/

/-- The owner of a theme. -/
structure Context where
  sheet : Sheet
  store : Store
  cell : ModeCell
  defaults : Defaults

namespace Context

/-- A context in dark mode with nothing written. -/
def new (store : Store) (defaults : Defaults) : Context :=
  ⟨.empty, store, .new .dark, defaults⟩

def mode (c : Context) : Mode := c.cell.value

def announce (c : Context) (mode : Mode) : Plan (Context × Outcome) :=
  let (cell, outcome) := c.cell.announce mode
  (Plan.report (cell.roundNotices c.cell.journal.length)).andThen fun () =>
    .done ({ c with cell := cell }, outcome)

/-- Stores a mode and tells the listeners. -/
def setMode (c : Context) (mode : Mode) : Plan (Context × Outcome) := do
  let (store, r) ← c.store.set themeKey mode.storedText
  match r with
  | .ok () => pure ()
  | .error e => Plan.report [.modeNotStored e mode]
  Plan.report [.modeSet mode]
  { c with store := store }.announce mode

def toggle (c : Context) : Plan (Context × Outcome) := c.setMode c.mode.toggled

/-- The mode that the store remembers: dark if it remembers none or cannot be read. -/
def storedMode (stored : Option String) : Mode := stored.elim .dark Mode.ofStored

/-- Takes the mode from the store, which is not written, and tells the listeners. -/
def resume (c : Context) : Plan (Context × Outcome) := do
  let stored ← match ← c.store.get themeKey with
    | .ok stored => pure stored
    | .error e => do
      Plan.report [.modeNotRead e]
      pure none
  Plan.report [.modeResumed stored (storedMode stored)]
  c.announce (storedMode stored)

/-- Tells a listener of the mode now and from now on. -/
def subscribe (c : Context) (listener : Listener) : Context × Outcome :=
  let (cell, outcome) := c.cell.welcome listener
  ({ c with cell := cell }, outcome)

def unsubscribe (c : Context) (name : String) : Context := { c with cell := c.cell.drop name }

/-- A context with what was done to its sheet. -/
def withSheet (c : Context) (sheet : Noted Sheet) : Noted Context :=
  ⟨sheet.notices, { c with sheet := sheet.value }⟩

def applyPlain (c : Context) (role : Role) (color : String) (mode : Mode) :
    Except ColorError (Noted Context) :=
  (c.sheet.applyPlain role color mode).map c.withSheet

/-- What became of a color that was screened. -/
structure Applied where
  role : Role
  mode : Mode
  /-- The color that was written. -/
  color : Color
  /-- Why it is not the supplied one. -/
  rejection : Option Rejection
  deriving DecidableEq

/-- Screens a color for a role and writes it, or the default in its place. -/
def applyScreened (c : Context) (role : Role) (supplied : Option String) (mode : Mode) :
    Noted (Context × Applied) := do
  let (sheet, color, rejection) ← c.sheet.applyChosen c.defaults role supplied mode
  return ({ c with sheet := sheet }, ⟨role, mode, color, rejection⟩)

def applyDefaults (c : Context) : Noted Context := c.withSheet (c.sheet.applyDefaults c.defaults)

def applyPolicy (c : Context) (policy : Policy) : Noted (Context × List Fallback) := do
  let (sheet, fallbacks) ← c.sheet.applyPolicy c.defaults policy
  return ({ c with sheet := sheet }, fallbacks)

end Context

end ColorTheme
