import ColorTheme.Palette
import ColorTheme.Screening

/-!
# Reports on colors

The palette of a color as a table, and what is known of a single color: as lines of text and as an
object.
-/

namespace ColorTheme.Command

/-- A text with blanks after it, up to a width. -/
def padded (width : Nat) (s : String) : String :=
  s ++ String.ofList (List.replicate (width - s.length) ' ')

/-! ### Palettes -/

/-- The row of an entry: the name of its shade, its two forms, and its overlay. -/
def paletteRow (e : PaletteEntry) : String :=
  padded 5 e.shade.label ++ " " ++ e.hex ++ "  " ++ padded 20 e.css ++ " " ++ e.overlay.css ++ "\n"

def paletteTable (p : Palette) : String := String.join (p.toList.map paletteRow)

/-! ### Single colors -/

/-- The slots that a report gives its verdict on. -/
def reportSlots : List (Role × Mode) :=
  [Role.background, Role.text].flatMap fun role => Mode.all.map fun mode => (role, mode)

/-- What is known of a color. -/
structure Report where
  color : String
  brightness : Binary64
  luminance : Binary64
  tone : Tone
  contrastVsBlack : Binary64
  contrastVsWhite : Binary64
  overlay : Overlay
  /-- The verdict on each slot. -/
  suitability : List ((Role × Mode) × Bool)

namespace Report

def ofColor (c : Color) : Report where
  color := c.text
  brightness := c.brightness
  luminance := c.luminance
  tone := c.tone
  contrastVsBlack := c.contrastRatio .black
  contrastVsWhite := c.contrastRatio .white
  overlay := .on c
  suitability := reportSlots.map fun slot => (slot, isSuitable slot.1 c slot.2)

/-- A number with the given count of places. -/
def places (count : Nat) (x : Binary64) : String := String.ofList (x.writeFixed count)

def verdictLine (entry : (Role × Mode) × Bool) : String :=
  padded 11 (entry.1.2.name ++ "-" ++ entry.1.1.name) ++ " " ++ (if entry.2 then "yes" else "no") ++
    "\n"

def text (r : Report) : String :=
  "color       " ++ r.color ++ "\n" ++
  "brightness  " ++ places 1 r.brightness ++ "\n" ++
  "luminance   " ++ places 4 r.luminance ++ "\n" ++
  "tone        " ++ r.tone.name ++ "\n" ++
  "contrast    " ++ places 2 r.contrastVsBlack ++ ":1 vs black, " ++
    places 2 r.contrastVsWhite ++ ":1 vs white\n" ++
  "overlay     " ++ r.overlay.css ++ "\n" ++
  String.join (r.suitability.map verdictLine)

def verdictJson (entry : (Role × Mode) × Bool) : Json :=
  .record [("role", .text entry.1.1.name), ("mode", .text entry.1.2.name),
    ("suitable", .bool entry.2)]

def toJson (r : Report) : Json :=
  .record [("color", .text r.color), ("brightness", .number r.brightness),
    ("luminance", .number r.luminance), ("tone", .text r.tone.name),
    ("contrastVsBlack", .number r.contrastVsBlack),
    ("contrastVsWhite", .number r.contrastVsWhite), ("overlay", .text r.overlay.css),
    ("suitability", .list (r.suitability.map verdictJson))]

end Report

end ColorTheme.Command
