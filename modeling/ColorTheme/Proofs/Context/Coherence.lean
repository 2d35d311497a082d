import ColorTheme.Proofs.Context.Calls
import ColorTheme.Proofs.SortedMap

/-!
# The properties and the record of a sheet

A sheet keeps what it wrote twice: as properties, and as the palettes and text colors that they came
from.  The record alone tells every property and its value, and it keeps doing so through any run of
calls on a context that started with nothing written.
-/

namespace ColorTheme

open Style (Property)

/-! ### Every property -/

namespace Style.Property

def ofRole (mode : Mode) (role : Role) : List Property :=
  Shade.all.toList.flatMap fun shade => [.shade mode role shade, .overlay mode role shade]

def ofMode (mode : Mode) : List Property :=
  Role.all.flatMap (ofRole mode) ++ [.text mode, .secondaryText mode]

def all : List Property := Mode.all.flatMap ofMode

theorem mem_all (q : Property) : q ∈ all := by
  have hmode (m : Mode) : m ∈ Mode.all := Mode.mem_all m
  have hrole (r : Role) : r ∈ Role.all := Role.mem_all r
  have hshade (s : Shade) : s ∈ Shade.all := Vector.mem_toList_iff.1 (Shade.mem_all s)
  cases q <;> simp [all, ofMode, ofRole, hmode, hrole, hshade]

/-- The place of a property among all. -/
def place : Property → Nat
  | .shade m r s => 114 * Mode.all.idxOf m + 28 * Role.all.idxOf r + 2 * s.index
  | .overlay m r s => 114 * Mode.all.idxOf m + 28 * Role.all.idxOf r + 2 * s.index + 1
  | .text m => 114 * Mode.all.idxOf m + 112
  | .secondaryText m => 114 * Mode.all.idxOf m + 113

theorem map_place : all.map place = List.range 228 := by decide +kernel

/-- No property stands twice in the list, since each stands at its place. -/
theorem nodup_all : all.Nodup := by
  have hplaces : (all.map place).Nodup := by
    rw [map_place]
    exact List.nodup_range
  exact List.Nodup.of_map place hplaces

end Style.Property

namespace Sheet

/-! ### What the record asks for -/

/-- The value of a property according to the record. -/
def expected (s : Sheet) : Property → Option String
  | .shade m r shade => (s.palette? r m).map fun palette => (palette.get shade).hex
  | .overlay m r shade => (s.palette? r m).map fun palette => (palette.get shade).overlay.css
  | .text m => (s.textColor? m).map Color.text
  | .secondaryText m => (s.textColor? m).map secondaryText

theorem expected_put (s : Sheet) (w : Write) (q : Property) :
    (s.put w).expected q = (w.value? q).or (s.expected q) := by
  cases q <;> simp only [expected, Write.value?, palette?_put, textColor?_put] <;> split <;>
    simp only [Option.map_some, Option.some_or, Option.none_or, Palette.get_generate]

/-- The properties are those of the record. -/
structure Coherent (s : Sheet) : Prop where
  get?_name : ∀ q : Property, s.properties.get? q.name = s.expected q
  named : ∀ k v, s.properties.get? k = some v → ∃ q : Property, k = q.name
  plain_text : ∀ mode, s.palette? .text mode = none

namespace Coherent

theorem empty : Coherent Sheet.empty where
  get?_name q := by
    cases q with
    | shade m r shade => simp [Sheet.empty, expected, palette?]
    | overlay m r shade => simp [Sheet.empty, expected, palette?]
    | text m => cases m <;> rfl
    | secondaryText m => cases m <;> rfl
  named k v h := by cases h
  plain_text mode := by simp [Sheet.empty, palette?]

variable {s : Sheet}

/-- **A write keeps the properties those of the record.** -/
theorem put (h : Coherent s) (w : Write) : Coherent (s.put w) where
  get?_name q := by rw [get?_put, expected_put, h.get?_name]
  named k v hk := by
    -- A name of no property is not written, so it was there before.
    by_contra hq
    have hne : ∀ q : Property, q.name ≠ k := fun q hname => hq ⟨q, hname.symm⟩
    rw [get?_put_of_unnamed s w hne] at hk
    exact hq (h.named k v hk)
  plain_text mode := by
    rw [palette?_put, if_neg, h.plain_text]
    rintro ⟨hpalette, hrole, -⟩
    rw [← hrole] at hpalette
    cases hpalette

theorem putAll (h : Coherent s) (writes : List Write) : Coherent (s.putAll writes) := by
  induction writes generalizing s with
  | nil => exact h
  | cons w rest ih => exact ih (h.put w)

end Coherent

/-! ### Counting -/

/-- How many palettes are recorded. -/
def paletteCount (s : Sheet) : Nat :=
  defaultOrder.countP fun slot => (s.palette? slot.1 slot.2).isSome

/-- How many text colors are recorded. -/
def textCount (s : Sheet) : Nat := Mode.all.countP fun mode => (s.textColor? mode).isSome

variable (s : Sheet)

theorem countP_ofRole (mode : Mode) (role : Role) :
    (Property.ofRole mode role).countP (fun q => (s.expected q).isSome) =
      if (s.palette? role mode).isSome then 28 else 0 := by
  have hshades : Shade.all.toList.length = 14 := rfl
  rw [Property.ofRole, List.countP_flatMap]
  cases hpalette : s.palette? role mode <;>
    simp [Function.comp_def, expected, hpalette, hshades]

theorem countP_ofText (mode : Mode) :
    [Property.text mode, .secondaryText mode].countP (fun q => (s.expected q).isSome) =
      if (s.textColor? mode).isSome then 2 else 0 := by
  cases htext : s.textColor? mode <;> simp [expected, htext]

theorem countP_all :
    Property.all.countP (fun q => (s.expected q).isSome) =
      28 * s.paletteCount + 2 * s.textCount := by
  have hslot (mode : Mode) (role : Role) := s.countP_ofRole mode role
  have htext (mode : Mode) := s.countP_ofText mode
  -- Each slot counts 28 or nothing, and each mode 2 or nothing.
  have hscale (n : Nat) (b : Bool) : (if b then n else 0) = n * (if b then 1 else 0) := by
    cases b <;> simp
  simp only [Property.all, Property.ofMode, paletteCount, textCount, defaultOrder, Mode.all,
    Role.all, List.flatMap_cons, List.flatMap_nil, List.countP_append, List.map_cons, List.map_nil,
    List.cons_append, List.nil_append, List.append_nil, hslot, htext, List.countP_cons,
    List.countP_nil]
  simp only [hscale 28, hscale 2]
  omega

/-- **There are as many properties as the record asks for.** -/
theorem Coherent.size_eq (h : Coherent s) :
    s.properties.size = 28 * s.paletteCount + 2 * s.textCount := by
  -- The entries are the properties that have an expected value, each under its own name.
  have hnodup : (Property.all.filterMap fun q =>
      (s.expected q).map fun v => (q.name, v)).Nodup := by
    refine Property.nodup_all.filterMap ?_
    intro q q' e he he'
    obtain ⟨v, -, rfl⟩ := Option.map_eq_some_iff.1 he
    obtain ⟨v', -, hname⟩ := Option.map_eq_some_iff.1 he'
    exact Property.name_injective (congrArg Prod.fst hname).symm
  rw [SortedMap.size_eq_length hnodup, List.length_filterMap_eq_countP, ← countP_all]
  · simp only [Option.isSome_map]
  · intro e
    rw [List.mem_filterMap]
    constructor
    · rintro ⟨q, -, hq⟩
      obtain ⟨v, hv, rfl⟩ := Option.map_eq_some_iff.1 hq
      rw [h.get?_name, hv]
    · intro he
      obtain ⟨q, hq⟩ := h.named e.1 e.2 he
      rw [hq, h.get?_name] at he
      exact ⟨q, Property.mem_all q, by rw [he, Option.map_some, ← hq]⟩

/-! ### Agreement -/

/-- The secondary text color is written with the alpha `c7`. -/
theorem secondaryText_eq (color : Color) : secondaryText color = color.hex ++ "c7" := by
  have halpha : (Alpha.ofNumber secondaryAlpha).byte = 199 := by decide +kernel
  have hbyte : String.ofList (hexByte 199) = "c7" := by decide
  have hhex : (color.withAlpha secondaryAlpha).hex = color.hex := by
    simp only [Color.hex, Color.hexDigits, Color.withAlpha]
  rw [secondaryText, Color.hex8_eq, hhex, Color.withAlpha, halpha, hbyte]

/-- The properties and the record of a sheet, each told by the other. -/
structure Agreement (s : Sheet) : Prop where
  /-- A palette is recorded if and only if the properties of all shades are there. -/
  palette_iff : ∀ role mode, role.hasPalette = true →
    ((s.palette? role mode).isSome ↔
      ∀ shade, (s.properties.get? (Style.shadeName mode role shade)).isSome ∧
        (s.properties.get? (Style.overlayName mode role shade)).isSome)
  /-- They have the values of the recorded palette. -/
  palette_values : ∀ role mode palette, s.palette? role mode = some palette → ∀ shade,
    s.properties.get? (Style.shadeName mode role shade) = some (palette.get shade).hex ∧
      s.properties.get? (Style.overlayName mode role shade) =
        some (palette.get shade).overlay.css
  /-- A text color is recorded if and only if both of its properties are there. -/
  text_iff : ∀ mode, (s.textColor? mode).isSome ↔
    (s.properties.get? (Style.textName mode)).isSome ∧
      (s.properties.get? (Style.secondaryTextName mode)).isSome
  /-- They have the values of the recorded color. -/
  text_values : ∀ mode color, s.textColor? mode = some color →
    s.properties.get? (Style.textName mode) = some color.text ∧
      s.properties.get? (Style.secondaryTextName mode) = some (color.hex ++ "c7")
  /-- Text has no palette. -/
  no_text_palette : ∀ mode, s.palette? .text mode = none
  /-- There is no property that is not asked for. -/
  only_recorded : ∀ name value, s.properties.get? name = some value →
    (∃ role mode shade, role.hasPalette = true ∧ (s.palette? role mode).isSome ∧
      (name = Style.shadeName mode role shade ∨ name = Style.overlayName mode role shade)) ∨
    ∃ mode, (s.textColor? mode).isSome ∧
      (name = Style.textName mode ∨ name = Style.secondaryTextName mode)
  size_eq : s.properties.size = 28 * s.paletteCount + 2 * s.textCount

namespace Coherent

variable {s : Sheet}

/-- A role with a recorded palette is not the text. -/
theorem hasPalette_of_recorded (h : Coherent s) {role : Role} {mode : Mode}
    (hpalette : (s.palette? role mode).isSome) : role.hasPalette = true := by
  by_contra hrole
  rw [Bool.not_eq_true, ← Role.eq_text_iff] at hrole
  rw [hrole, h.plain_text] at hpalette
  cases hpalette

/-- A property that is there belongs to a recorded palette or text color. -/
theorem recorded_of_property (h : Coherent s) {name value : String}
    (hname : s.properties.get? name = some value) :
    (∃ role mode shade, role.hasPalette = true ∧ (s.palette? role mode).isSome ∧
      (name = Style.shadeName mode role shade ∨ name = Style.overlayName mode role shade)) ∨
    ∃ mode, (s.textColor? mode).isSome ∧
      (name = Style.textName mode ∨ name = Style.secondaryTextName mode) := by
  obtain ⟨q, rfl⟩ := h.named name value hname
  have hsome : (s.expected q).isSome := by rw [← h.get?_name, hname, Option.isSome_some]
  cases q with
  | shade m r shade =>
    rw [expected, Option.isSome_map] at hsome
    exact .inl ⟨r, m, shade, h.hasPalette_of_recorded hsome, hsome, .inl rfl⟩
  | overlay m r shade =>
    rw [expected, Option.isSome_map] at hsome
    exact .inl ⟨r, m, shade, h.hasPalette_of_recorded hsome, hsome, .inr rfl⟩
  | text m =>
    rw [expected, Option.isSome_map] at hsome
    exact .inr ⟨m, hsome, .inl rfl⟩
  | secondaryText m =>
    rw [expected, Option.isSome_map] at hsome
    exact .inr ⟨m, hsome, .inr rfl⟩

theorem agreement (h : Coherent s) : Agreement s where
  palette_iff role mode _ := by
    have hshade (shade : Shade) := h.get?_name (.shade mode role shade)
    have hoverlay (shade : Shade) := h.get?_name (.overlay mode role shade)
    simp only [Property.name, expected] at hshade hoverlay
    simp only [hshade, hoverlay, Option.isSome_map, and_self]
    exact ⟨fun hpalette _ => hpalette, fun hall => hall .s500⟩
  palette_values role mode palette hpalette shade := by
    have hshade := h.get?_name (.shade mode role shade)
    have hoverlay := h.get?_name (.overlay mode role shade)
    simp only [Property.name, expected, hpalette, Option.map_some] at hshade hoverlay
    exact ⟨hshade, hoverlay⟩
  text_iff mode := by
    have htext := h.get?_name (.text mode)
    have hsecondary := h.get?_name (.secondaryText mode)
    simp only [Property.name, expected] at htext hsecondary
    simp only [htext, hsecondary, Option.isSome_map, and_self]
  text_values mode color hcolor := by
    have htext := h.get?_name (.text mode)
    have hsecondary := h.get?_name (.secondaryText mode)
    simp only [Property.name, expected, hcolor, Option.map_some] at htext hsecondary
    rw [secondaryText_eq] at hsecondary
    exact ⟨htext, hsecondary⟩
  no_text_palette := h.plain_text
  only_recorded _ _ hname := h.recorded_of_property hname
  size_eq := h.size_eq s

end Coherent

end Sheet

namespace Context

theorem coherent_afterAll (store : Store) (defaults : Defaults) (calls : List Call) :
    ((new store defaults).afterAll calls).sheet.Coherent := by
  obtain ⟨hsheet, -⟩ := theme_afterAll (new store defaults) calls
  rw [hsheet]
  exact Sheet.Coherent.empty.putAll _

/-- **The properties and the record agree after every run of calls**, with any store, any defaults,
any arguments and whatever the surroundings do in between. -/
theorem agreement_afterAll (store : Store) (defaults : Defaults) (calls : List Call) :
    ((new store defaults).afterAll calls).sheet.Agreement :=
  (coherent_afterAll store defaults calls).agreement

end Context

end ColorTheme
