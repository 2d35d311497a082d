import ColorTheme.SortedMap

/-!
# Custom properties

The properties that were set, by name, and their form as a rule of a style sheet.
-/

namespace ColorTheme.Style

/-- The values of the properties that were set. -/
abbrev Properties := SortedMap String

namespace Properties

/-- The properties whose name starts with a text. -/
def withStart (start : String) (p : Properties) : Properties :=
  p.filterKeys fun name => start.toList.isPrefixOf name.toList

def cssLine (e : String × String) : String := "  " ++ e.1 ++ ": " ++ e.2 ++ ";\n"

/-- One rule with the properties in the order of their names. -/
def css (selector : String) (p : Properties) : String :=
  selector ++ " \x7b\n" ++ String.join (p.toList.map cssLine) ++ "\x7d\n"

end Properties

end ColorTheme.Style
