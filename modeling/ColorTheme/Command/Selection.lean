import ColorTheme.Command.Basic
import ColorTheme.Context.Basic

/-!
# Selections

The properties of a theme that are written out: those of the selected modes, of a sheet with the
defaults and then a policy on it.
-/

namespace ColorTheme.Command

/-- The sheet with the defaults and, if there is one, a policy on them, and the report on the
policy. -/
def themed (defaults : Defaults) (policy : Option Policy) : Noted (Sheet × List Fallback) := do
  let sheet ← Sheet.empty.applyDefaults defaults
  match policy with
  | none => return (sheet, [])
  | some policy => sheet.applyPolicy defaults policy

def ofMode (properties : Style.Properties) (mode : Mode) : Style.Properties :=
  properties.withStart (Style.modeStart mode)

/-- The properties of some modes. -/
def selection (properties : Style.Properties) (modes : List Mode) : Style.Properties :=
  modes.foldl (fun selected mode =>
    (ofMode properties mode).toList.foldl (fun selected (name, value) => selected.insert name value)
      selected) .empty

def fallbackNotice (f : Fallback) : Notice :=
  .policyColorReplaced f.role f.mode f.supplied f.used f.rejection

def fallbackJson (f : Fallback) : Json :=
  .record [("role", .text f.role.name), ("mode", .text f.mode.name), ("supplied", .text f.supplied),
    ("reason", .text f.rejection.message), ("used", .text f.used)]

/-- A value as lines of JSON. -/
def jsonLines (value : Json) : String := value.pretty ++ "\n"

/-- Properties and the report on the policy, as an object. -/
def selectionJson (selected : Style.Properties) (fallbacks : List Fallback) : Json :=
  .record [("properties", .record (selected.toList.map fun (name, value) => (name, .text value))),
    ("fallbacks", .list (fallbacks.map fallbackJson))]

def writeSelection (format : SheetFormat) (selector : String) (selected : Style.Properties)
    (fallbacks : List Fallback) : String :=
  match format with
  | .css => selected.css selector
  | .json => jsonLines (selectionJson selected fallbacks)

end ColorTheme.Command
