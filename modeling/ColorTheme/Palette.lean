import ColorTheme.Shade
import ColorTheme.Color.Contrast
import ColorTheme.Color.Printer
import ColorTheme.Json.Printer

/-!
# Palettes

The fourteen shades of one base color, each with its written forms and its overlay.
-/

namespace ColorTheme

/-- A shade of a base color. -/
structure PaletteEntry where
  shade : Shade
  color : Color
  hex : String
  css : String
  overlay : Overlay
  deriving DecidableEq

/-- The entry of a shade.  The overlay is chosen for the color that `hex` writes, which has no
alpha. -/
def PaletteEntry.derive (base : Color) (shade : Shade) : PaletteEntry :=
  let color := shade.recipe.apply base
  ⟨shade, color, color.hex, color.css, .on color.solid⟩

theorem PaletteEntry.hex_derive_base (base : Color) : (derive base .s500).hex = base.hex := by
  simp only [derive, Shade.recipe, Recipe.apply]

def PaletteEntry.toJson (e : PaletteEntry) : Json :=
  .record [("name", .text e.shade.label), ("hex", .text e.hex), ("rgb", .text e.css),
    ("contrastColor", .text e.overlay.css)]

/-- The entries of one base color, in the order of the shades. -/
structure Palette where
  entries : Vector PaletteEntry 14
  deriving DecidableEq

namespace Palette

def generate (base : Color) : Palette := ⟨Shade.all.map (PaletteEntry.derive base)⟩

def get (p : Palette) (s : Shade) : PaletteEntry := getElem p.entries s.index.val s.index.isLt

def base (p : Palette) : PaletteEntry := p.get .s500

def toList (p : Palette) : List PaletteEntry := p.entries.toList

@[simp]
theorem get_generate (c : Color) (s : Shade) : (generate c).get s = PaletteEntry.derive c s := by
  have h : Shade.all[s.index.val] = s := Shade.getElem_all s
  simp [get, generate, h]

def toJson (p : Palette) : Json := .list (p.toList.map PaletteEntry.toJson)

end Palette

end ColorTheme
