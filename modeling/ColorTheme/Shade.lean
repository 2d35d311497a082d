import ColorTheme.Color.Hsl

/-!
# Shades

The fourteen shades of a palette, their labels, and the recipe that derives each from the base
color.
-/

namespace ColorTheme

/-! ### Recipes -/

/-- How a shade comes from the base color; the amounts are percentage points. -/
inductive Recipe where
  | base
  | lighten (points : Binary64)
  | darken (points : Binary64)
  /-- Lightened first, then saturated. -/
  | accent (lighter richer : Binary64)
  deriving DecidableEq

def Recipe.apply : Recipe → Color → Color
  | .base, c => c
  | .lighten points, c => c.lighten points
  | .darken points, c => c.darken points
  | .accent lighter richer, c => (c.lighten lighter).saturate richer

/-! ### Shades -/

/-- A shade: ten numbered ones from light to dark, and four accents. -/
inductive Shade where
  | s50 | s100 | s200 | s300 | s400 | s500 | s600 | s700 | s800 | s900
  | a100 | a200 | a400 | a700
  deriving DecidableEq, Repr, Inhabited

namespace Shade

/-- The shades in the order of a palette. -/
def all : Vector Shade 14 :=
  #v[s50, s100, s200, s300, s400, s500, s600, s700, s800, s900, a100, a200, a400, a700]

def index : Shade → Fin 14
  | s50 => 0 | s100 => 1 | s200 => 2 | s300 => 3 | s400 => 4
  | s500 => 5 | s600 => 6 | s700 => 7 | s800 => 8 | s900 => 9
  | a100 => 10 | a200 => 11 | a400 => 12 | a700 => 13

/-- The label of a shade, which is also its part of a property name. -/
def label : Shade → String
  | s50 => "50" | s100 => "100" | s200 => "200" | s300 => "300" | s400 => "400"
  | s500 => "500" | s600 => "600" | s700 => "700" | s800 => "800" | s900 => "900"
  | a100 => "A100" | a200 => "A200" | a400 => "A400" | a700 => "A700"

def isAccent : Shade → Bool
  | a100 | a200 | a400 | a700 => true
  | _ => false

def recipe : Shade → Recipe
  | s50 => .lighten 52
  | s100 => .lighten 37
  | s200 => .lighten 26
  | s300 => .lighten 12
  | s400 => .lighten 6
  | s500 => .base
  | s600 => .darken 6
  | s700 => .darken 12
  | s800 => .darken 18
  | s900 => .darken 24
  | a100 => .accent 50 30
  | a200 => .accent 30 30
  | a400 => .accent 10 15
  | a700 => .accent 5 5

/-- The shade that a label names in any letter case, and the trimmed label if it names none. -/
def parse (text : String) : Except String Shade :=
  let wanted := trimmed text
  match all.toList.find? fun shade => lowered shade.label = lowered wanted with
  | some shade => .ok shade
  | none => .error wanted

def unknownMessage (label : String) : String := "unknown shade label " ++ Text.quoted label

theorem getElem_all (s : Shade) : getElem all s.index.val s.index.isLt = s := by cases s <;> rfl

theorem mem_all (s : Shade) : s ∈ all.toList := by cases s <;> decide

end Shade

end ColorTheme
