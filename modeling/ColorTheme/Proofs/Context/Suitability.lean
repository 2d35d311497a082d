import ColorTheme.Proofs.Context.Coherence
import ColorTheme.Proofs.Defaults

/-!
# Suitable colors on a sheet

With defaults that suit their slots every write is of a suitable color, whatever was supplied.  The
record then holds suitable colors only, and so do the properties, which are read back as colors of
the same tone.
-/

namespace ColorTheme

/-! ### What is written -/

/-- The color suits the slot that it is written for. -/
def Write.Suits (w : Write) : Prop := isSuitable w.role w.color w.mode = true

namespace Context

section writes
variable {defaults : Defaults} (hdefaults : defaults.Suits)
include hdefaults

/-- The screening lets only suitable colors through, and a default takes the place of the rest. -/
theorem chosen_suits (role : Role) (supplied : Option String) (mode : Mode) :
    isSuitable role (chosen defaults role supplied mode) mode = true := by
  cases hscreen : screen role supplied mode with
  | ok color =>
    rw [chosen_of_ok hscreen]
    exact isSuitable_of_screen hscreen
  | error rejection =>
    rw [chosen_of_error hscreen]
    exact hdefaults role mode

/-- **Every operation writes suitable colors only.** -/
theorem writes_suit (operation : Operation) : ∀ w ∈ writes defaults operation, w.Suits := by
  intro w hw
  have hplain {role : Role} (hrole : ∀ mode, requiredTone role mode = none) {color : String}
      {mode : Mode} (hw : w ∈ plainWrites role color mode) : w.Suits := by
    unfold plainWrites at hw
    split at hw
    · rw [List.mem_singleton] at hw
      rw [hw]
      exact isSuitable_of_no_tone (hrole mode) _
    · cases hw
  cases operation with
  | applyPrimary color mode => exact hplain (fun _ => rfl) hw
  | applyWarn color mode => exact hplain (fun _ => rfl) hw
  | applyBackground supplied mode =>
    rw [writes, List.mem_singleton] at hw
    rw [hw]
    exact chosen_suits hdefaults .background supplied mode
  | applyText supplied mode =>
    rw [writes, List.mem_singleton] at hw
    rw [hw]
    exact chosen_suits hdefaults .text supplied mode
  | applyDefaults =>
    obtain ⟨slot, -, rfl⟩ := List.mem_map.1 hw
    exact hdefaults slot.1 slot.2
  | applyPolicy policy =>
    obtain ⟨slot, -, rfl⟩ := List.mem_map.1 hw
    exact chosen_suits hdefaults slot.1 _ slot.2
  | setMode | toggle | resume | subscribe | unsubscribe => cases hw

end writes

end Context

/-! ### What is recorded -/

namespace Sheet

structure Suits (s : Sheet) : Prop where
  palette : ∀ role mode palette, s.palette? role mode = some palette →
    ∃ base, palette = .generate base ∧ isSuitable role base mode = true
  text : ∀ mode color, s.textColor? mode = some color → isSuitable .text color mode = true

namespace Suits

theorem empty : Suits Sheet.empty where
  palette role mode palette h := by
    rw [Sheet.empty, palette?, Slots.get_fill] at h
    cases h
  text mode color h := by cases mode <;> cases h

variable {s : Sheet}

theorem put (h : Suits s) {w : Write} (hw : w.Suits) : Suits (s.put w) where
  palette role mode palette hpalette := by
    rw [palette?_put] at hpalette
    split at hpalette
    · next hslot =>
      obtain ⟨-, rfl, rfl⟩ := hslot
      exact ⟨w.color, (Option.some.inj hpalette).symm, hw⟩
    · exact h.palette role mode palette hpalette
  text mode color hcolor := by
    rw [textColor?_put] at hcolor
    split at hcolor
    · next hslot =>
      obtain ⟨hrole, rfl⟩ := hslot
      rw [← Option.some.inj hcolor, ← hrole]
      exact hw
    · exact h.text mode color hcolor

theorem putAll (h : Suits s) {writes : List Write} (hw : ∀ w ∈ writes, w.Suits) :
    Suits (s.putAll writes) := by
  induction writes generalizing s with
  | nil => exact h
  | cons w rest ih =>
    rw [putAll_cons]
    exact ih (h.put (hw w List.mem_cons_self)) fun v hv => hw v (List.mem_cons_of_mem _ hv)

/-! ### What is read back -/

/-- The base of a recorded palette is read back as a color that suits the slot. -/
theorem parse_base (h : Suits s) {role : Role} {mode : Mode} {palette : Palette}
    (hpalette : s.palette? role mode = some palette) :
    ∃ color, Color.parse (palette.get .s500).hex = .ok color ∧
      isSuitable role color mode = true := by
  obtain ⟨base, rfl, hbase⟩ := h.palette role mode palette hpalette
  refine ⟨base.solid, ?_, ?_⟩
  · rw [Palette.get_generate, PaletteEntry.hex_derive_base, Color.parse_hex]
  · rw [isSuitable_congr base.alike_solid, hbase]

theorem parse_text (h : Suits s) {mode : Mode} {color : Color}
    (hcolor : s.textColor? mode = some color) :
    ∃ read, Color.parse color.text = .ok read ∧ isSuitable .text read mode = true := by
  obtain ⟨read, hread, halike⟩ := color.parse_text
  refine ⟨read, hread, ?_⟩
  rw [isSuitable_congr halike, h.text mode color hcolor]

end Suits

end Sheet

namespace Context

theorem suits_afterAll (store : Store) {defaults : Defaults} (hdefaults : defaults.Suits)
    (calls : List Call) : ((new store defaults).afterAll calls).sheet.Suits := by
  obtain ⟨hsheet, -⟩ := theme_afterAll (new store defaults) calls
  rw [hsheet]
  refine Sheet.Suits.empty.putAll ?_
  intro w hw
  obtain ⟨call, -, hw⟩ := List.mem_flatMap.1 hw
  exact writes_suit hdefaults call.operation w hw

/-- **No unsuitable color is ever written.**  With the default colors of any environment and after
any run of calls, what is written as the background and as the text of a mode is read as a color
that suits it. -/
theorem suitable_afterAll (lookup : String → Option String) (store : Store) (calls : List Call)
    (mode : Mode) :
    let defaults := (Settings.ofLookup lookup).value.defaults
    let properties := ((new store defaults).afterAll calls).sheet.properties
    (∀ value, properties.get? (Style.shadeName mode .background .s500) = some value →
      ∃ color, Color.parse value = .ok color ∧ isSuitable .background color mode = true) ∧
    (∀ value, properties.get? (Style.textName mode) = some value →
      ∃ color, Color.parse value = .ok color ∧ isSuitable .text color mode = true) := by
  intro defaults properties
  have hsuits := suits_afterAll store (Settings.ofLookup_suits lookup) calls
  have hcoherent := coherent_afterAll store defaults calls
  constructor
  · intro value hvalue
    have hname := hcoherent.get?_name (.shade mode .background .s500)
    rw [Style.Property.name, hvalue, Sheet.expected] at hname
    obtain ⟨palette, hpalette, rfl⟩ := Option.map_eq_some_iff.1 hname.symm
    exact hsuits.parse_base hpalette
  · intro value hvalue
    have hname := hcoherent.get?_name (.text mode)
    rw [Style.Property.name, hvalue, Sheet.expected] at hname
    obtain ⟨color, hcolor, rfl⟩ := Option.map_eq_some_iff.1 hname.symm
    exact hsuits.parse_text hcolor

end Context

end ColorTheme
