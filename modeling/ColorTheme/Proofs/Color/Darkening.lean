import ColorTheme.Palette
import ColorTheme.Proofs.Color.Dimming
import ColorTheme.Proofs.Color.Lossless

/-!
# Shades from light to dark

Every numbered shade shows the form of the base color at another lightness.  Two of them are at least five
points of lightness apart.  Where neither is cut off at black or at white a channel grows by more between
them than rounding could take away, and where one is, its byte is 0 or 255.
-/

namespace ColorTheme

open Binary64 Wheel

/-! ### The lightness of a shade -/

/-- By how many points of lightness a recipe raises a color. -/
def Recipe.rise : Recipe → Rat
  | .base => 0
  | .lighten points => points.value
  | .darken points => -points.value
  | .accent lighter _ => lighter.value

/-- A recipe that changes the lightness alone, by a hundred points at most. -/
def Recipe.isPlain : Recipe → Bool
  | .base => true
  | .lighten points => points.isFinite && decide (|points.value| ≤ 100)
  | .darken points => points.isFinite && decide (|points.value| ≤ 100)
  | .accent .. => false

def Shade.numbered : List Shade := Shade.all.toList.filter fun s => !s.isAccent

theorem Shade.isPlain_recipe : ∀ s ∈ Shade.numbered, s.recipe.isPlain = true := by decide +kernel

theorem Shade.rise_add_le :
    Shade.numbered.Pairwise fun s t => t.recipe.rise + 5 ≤ s.recipe.rise := by decide +kernel

theorem near_hundredth {points : Binary64} (hfinite : points.isFinite = true)
    (hbound : |points.value| ≤ 100) :
    Near (points / 100) (points.value / 100) slip ∧ |points.value / 100| ≤ 1 := by
  have hquotient : |points.value / 100| ≤ 1 := by
    rw [abs_le] at hbound ⊢
    constructor <;> linarith
  exact ⟨((hasValue_value hfinite).div (hasValue_ofNat (n := 100) (by decide))
    (by norm_num)).near (hquotient.trans (by norm_num)), hquotient⟩

theorem Hsl.Has.exists_moved {x : Hsl} {f : Form} (h : x.Has f) {d : Binary64} {v : Rat}
    (hd : Near d v slip) (hv : |v| ≤ 1) (a : Binary64) :
    ∃ l, (Color.ofHsl { x with lightness := x.lightness + d } a).Shows (f.withLightness l) ∧
      |l - (f.lightness + v)| ≤ 1 / 1000 := by
  have hsmall := slip_le
  have hlightness := f.lightness_mem
  have hsum : |f.lightness + v| ≤ 2 := by
    rw [abs_le] at hv ⊢
    constructor <;> linarith
  obtain ⟨l, hl, herror⟩ := h.lightness.near.add hd (by linarith)
  exact ⟨l, h.shows_withLightness hl a, herror.trans (by linarith)⟩

/-- **A plain recipe moves the lightness** and keeps the hue and the saturation. -/
theorem Recipe.exists_lightness {base : Color} {f : Form} (hf : base.toHsl.Has f)
    (hbase : base.Shows f) {r : Recipe} (hr : r.isPlain = true) :
    ∃ l, (r.apply base).Shows (f.withLightness l) ∧
      |l - (f.lightness + r.rise / 100)| ≤ 1 / 1000 := by
  cases r with
  | base =>
    refine ⟨f.lightness, ?_, ?_⟩
    · rw [f.withLightness_self]
      exact hbase
    · rw [rise, zero_div, add_zero, sub_self, abs_zero]
      norm_num
  | lighten points =>
    rw [isPlain, Bool.and_eq_true, decide_eq_true_iff] at hr
    obtain ⟨hnear, hbound⟩ := near_hundredth hr.1 hr.2
    rw [apply, Color.lighten_eq, rise]
    exact hf.exists_moved hnear hbound _
  | darken points =>
    rw [isPlain, Bool.and_eq_true, decide_eq_true_iff] at hr
    obtain ⟨hnear, hbound⟩ := near_hundredth hr.1 hr.2
    rw [apply, Color.darken_eq, sub_eq_add, rise, neg_div]
    exact hf.exists_moved hnear.neg (by rwa [abs_neg]) _
  | accent => cases hr

/-! ### The channels of two shades -/

/-- With more lightness a part is black before, white after, or greater by more than the errors. -/
theorem Wheel.Form.growth_cases (f : Form) {l l' : Rat} (h : l + 1 / 25 ≤ l') (p : Primary) :
    255 * (f.withLightness l).part p < 2 / 5 ∨ 255 - 2 / 5 < 255 * (f.withLightness l').part p ∨
      255 * (f.withLightness l).part p + 1 / 50 ≤ 255 * (f.withLightness l').part p := by
  by_contra hnot
  simp only [not_or, not_lt, not_le] at hnot
  obtain ⟨hlow, hhigh, hlt⟩ := hnot
  have hpart (y : Rat) :
      (f.withLightness y).part p = tint f.saturation (unit y) (share p (6 * f.hue)) := rfl
  rw [hpart] at hlow hhigh hlt
  rw [hpart] at hlt
  have hpositive : 0 < l := by
    by_contra hneg
    rw [unit_of_nonpos (not_lt.1 hneg), tint_black] at hlow
    linarith
  have hsmall : l' < 1 := by
    by_contra hlarge
    rw [unit_of_one_le (not_lt.1 hlarge), tint_white] at hhigh
    linarith
  rw [unit_of_mem hpositive.le (by linarith)] at hlow hlt
  rw [unit_of_mem (by linarith) hsmall.le] at hhigh hlt
  rw [tint] at hlow hhigh
  rw [tint, tint] at hlt
  have hshare := share_mem p (6 * f.hue)
  have hweight := abs_weight_le f.saturation_mem.1 f.saturation_mem.2 hshare.1 hshare.2
  have hle : l ≤ l' := by linarith
  have hgrown := level_add_le (m := 2 / 1275) hweight hle (by linarith) (by linarith)
  linarith

namespace Color

theorem exists_near_byte {c : Channel} {v : Rat} (h : Near c.number v (1 / 1000)) :
    ∃ u, |u - v| ≤ 1 / 1000 ∧ 0 ≤ u ∧ u ≤ 255 ∧ c.byte.toNat = ⌊u + 1 / 2⌋₊ := by
  obtain ⟨u, hu, hnear⟩ := h
  obtain ⟨u', hu', h0, h1, -, hbyte⟩ := Plain.isChannel_number c
  rw [← hu'.value_eq, hu.value_eq] at h0 h1 hbyte
  exact ⟨u, hnear, h0, h1, hbyte⟩

/-- **With less lightness no channel is greater.** -/
theorem byte_le_of_lightness {c d : Color} {f : Form} {l l' : Rat}
    (hc : c.Shows (f.withLightness l)) (hd : d.Shows (f.withLightness l')) (h : l + 1 / 25 ≤ l')
    (p : Primary) : (c.channel p).byte ≤ (d.channel p).byte := by
  obtain ⟨u, hu, hu0, hu1, hbyte⟩ := exists_near_byte (hc p)
  obtain ⟨u', hu', hu0', hu1', hbyte'⟩ := exists_near_byte (hd p)
  rw [UInt8.le_iff_toNat_le, hbyte, hbyte']
  rw [abs_le] at hu hu'
  rcases f.growth_cases h p with hblack | hwhite | hgrown
  · have hzero : ⌊u + 1 / 2⌋₊ = 0 := Nat.floor_eq_zero.2 (by linarith)
    rw [hzero]
    exact Nat.zero_le _
  · exact (floor_le_of_le (n := 255) (by exact_mod_cast hu1)).trans
      (Nat.le_floor (by push_cast; linarith))
  · exact Nat.floor_le_floor (by linarith)

theorem noLighter_of_lightness {c d : Color} {f : Form} {l l' : Rat}
    (hc : c.Shows (f.withLightness l)) (hd : d.Shows (f.withLightness l')) (h : l + 1 / 25 ≤ l') :
    NoLighter c d :=
  ⟨byte_le_of_lightness hc hd h .red, byte_le_of_lightness hc hd h .green,
    byte_le_of_lightness hc hd h .blue⟩

end Color

/-- Of two plain recipes the one that raises the lightness by less gives no lighter color. -/
theorem Recipe.noLighter {r r' : Recipe} (hr : r.isPlain = true) (hr' : r'.isPlain = true)
    (h : r.rise + 5 ≤ r'.rise) (base : Color) : (r.apply base).NoLighter (r'.apply base) := by
  obtain ⟨f, hf, hbase⟩ := base.exists_form
  obtain ⟨l, hshows, hnear⟩ := exists_lightness hf hbase hr
  obtain ⟨l', hshows', hnear'⟩ := exists_lightness hf hbase hr'
  refine Color.noLighter_of_lightness hshows hshows' ?_
  rw [abs_le] at hnear hnear'
  linarith

/-! ### Palettes -/

theorem PaletteEntry.shade_derive (base : Color) (s : Shade) : (derive base s).shade = s := by
  rw [derive]

namespace Palette

def numbered (p : Palette) : List PaletteEntry := p.toList.filter fun e => !e.shade.isAccent

theorem numbered_generate (base : Color) :
    (generate base).numbered = Shade.numbered.map (PaletteEntry.derive base) := by
  rw [numbered, toList, generate, Vector.toList_map, List.filter_map, Shade.numbered]
  simp only [Function.comp_def, PaletteEntry.shade_derive]

/-- **The numbered shades darken**: from 50 to 900 no channel becomes greater, and so neither do the
brightness and the luminance. -/
theorem numbered_darken (base : Color) :
    (generate base).numbered.map PaletteEntry.shade =
        [.s50, .s100, .s200, .s300, .s400, .s500, .s600, .s700, .s800, .s900] ∧
      ((generate base).get .s500).color = base ∧
      (generate base).numbered.Pairwise fun lighter darker =>
        darker.color.NoLighter lighter.color ∧
          darker.color.brightness ≤ lighter.color.brightness ∧
          darker.color.luminance ≤ lighter.color.luminance := by
  rw [numbered_generate]
  refine ⟨?_, ?_, ?_⟩
  · simp only [List.map_map, Function.comp_def, PaletteEntry.shade_derive, List.map_id']
    decide
  · rw [get_generate, PaletteEntry.derive, Shade.recipe, Recipe.apply]
  · rw [List.pairwise_map]
    refine Shade.rise_add_le.imp_of_mem fun {s t} hs ht h => ?_
    have hnoLighter := Recipe.noLighter (Shade.isPlain_recipe t ht) (Shade.isPlain_recipe s hs) h base
    exact ⟨hnoLighter, hnoLighter.brightness_le, hnoLighter.luminance_le⟩

end Palette

end ColorTheme
