import ColorTheme.Palette
import ColorTheme.Proofs.Color.Alpha

/-!
# Palettes of translucent colors

A recipe works on the channels and hands the alpha on.  Thus it does not matter whether the alpha of a
color is changed before a recipe or after it, and the palettes of two colors that differ in the alpha
alone differ in nothing but the alpha of their entries.
-/

namespace ColorTheme

theorem Alpha.ofNumber_number (a : Alpha) : Alpha.ofNumber a.number = a :=
  Amount.eq_of_number (Amount.number_clamp_of_le Alpha.full a.zero_le a.le_high)

theorem Alpha.number_ofNumber (x : Binary64) :
    (Alpha.ofNumber x).number = if x = .nan then 1 else x.clamp 0 1 := by
  rw [Alpha.ofNumber]
  split
  · next hnan => rw [Amount.clamp, dif_pos hnan, Alpha.full]
  · next hnan => rw [Amount.number_clamp Alpha.full hnan]

namespace Color

theorem ofNumbers_eq_withAlpha (r g b a a' : Binary64) :
    ofNumbers r g b a = (ofNumbers r g b a').withAlpha a := rfl

theorem ofHsl_eq_withAlpha (x : Hsl) (a a' : Binary64) : ofHsl x a = (ofHsl x a').withAlpha a := by
  unfold ofHsl
  dsimp only
  split
  · exact ofNumbers_eq_withAlpha _ _ _ a a'
  · exact ofNumbers_eq_withAlpha _ _ _ a a'

theorem withAlpha_number (c : Color) : c.withAlpha c.alpha.number = c := by
  rw [withAlpha, Alpha.ofNumber_number]

/-- What was moved into the range once is not moved again. -/
theorem ofHsl_number (x : Hsl) (a : Binary64) : ofHsl x (Alpha.ofNumber a).number = ofHsl x a := by
  rw [ofHsl_eq_withAlpha x _ a, withAlpha, Alpha.ofNumber_number]
  exact (ofHsl_eq_withAlpha x a a).symm

theorem mapHsl_withAlpha (f : Hsl → Hsl) (c : Color) (a : Binary64) :
    (c.withAlpha a).mapHsl f = (c.mapHsl f).withAlpha a := by
  have hhsl : (c.withAlpha a).toHsl = c.toHsl := rfl
  rw [mapHsl, hhsl, alpha_withAlpha, ofHsl_number, mapHsl]
  exact ofHsl_eq_withAlpha _ a _

/-- The written form of the alpha of a color. -/
def alphaText (c : Color) : String := String.ofList (c.roundedAlpha.write Binary64.plainLayout)

theorem alphaText_congr {c d : Color} (h : c.alpha = d.alpha) : c.alphaText = d.alphaText := by
  rw [alphaText, alphaText, roundedAlpha, roundedAlpha, h]

theorem isOpaque_congr {c d : Color} (h : c.alpha = d.alpha) : c.isOpaque = d.isOpaque := by
  rw [isOpaque, isOpaque, h]

end Color

/-! ### Recipes -/

/-- **A recipe commutes with a change of the alpha.** -/
theorem Recipe.apply_withAlpha (r : Recipe) (c : Color) (a : Binary64) :
    r.apply (c.withAlpha a) = (r.apply c).withAlpha a := by
  cases r with
  | base => rfl
  | lighten points => rw [apply, apply, Color.lighten, Color.lighten, Color.mapHsl_withAlpha]
  | darken points => rw [apply, apply, Color.darken, Color.darken, Color.mapHsl_withAlpha]
  | accent lighter richer =>
    -- The saturation is raised on what the lightening has made, which has the alpha already.
    have hlighter : (c.withAlpha a).lighten lighter = (c.lighten lighter).withAlpha a := by
      rw [Color.lighten, Color.lighten, Color.mapHsl_withAlpha]
    rw [apply, apply, hlighter, Color.saturate, Color.saturate, Color.mapHsl_withAlpha]

/-- **A recipe keeps the alpha.** -/
theorem Recipe.alpha_apply (r : Recipe) (c : Color) : (r.apply c).alpha = c.alpha := by
  have h := r.apply_withAlpha c c.alpha.number
  rw [c.withAlpha_number] at h
  rw [h, Color.alpha_withAlpha, Alpha.ofNumber_number]

/-! ### Palettes -/

namespace Palette

theorem color_get_generate (c : Color) (s : Shade) :
    ((generate c).get s).color = s.recipe.apply c := by
  rw [get_generate, PaletteEntry.derive]

theorem css_get_generate (c : Color) (s : Shade) :
    ((generate c).get s).css = ((generate c).get s).color.css := by
  rw [get_generate, PaletteEntry.derive]

/-- Every entry has the alpha of the base color. -/
theorem alpha_get_generate (c : Color) (s : Shade) :
    ((generate c).get s).color.alpha = c.alpha := by
  rw [color_get_generate, Recipe.alpha_apply]

/-- **The alpha stays apart from the channels.**  Palettes of a base color with one alpha and with
another have the same hexadecimal forms and the same overlays.  Every entry has the alpha of its base
color, bit for bit, which is the number that was set, moved into its range.  If nothing shows through
the base color all entries are written without an alpha, and otherwise all with the text of the base
color's. -/
theorem alpha_apart (b : Color) (x y : Binary64) :
    let base := b.withAlpha x
    let p := generate base
    let q := generate (b.withAlpha y)
    (∀ s, (p.get s).hex = (q.get s).hex ∧ (p.get s).overlay = (q.get s).overlay) ∧
      (∀ s, (p.get s).color.alpha = base.alpha) ∧
      base.alpha.number = (if x = .nan then 1 else x.clamp 0 1) ∧
      if base.isOpaque then ∀ s, (p.get s).css = "rgb(" ++ (p.get s).color.channelList ++ ")"
      else ∀ s, (p.get s).css =
        "rgba(" ++ (p.get s).color.channelList ++ ", " ++ base.alphaText ++ ")" := by
  intro base p q
  have halpha (s : Shade) : (p.get s).color.alpha = base.alpha := alpha_get_generate base s
  have hcss (s : Shade) : (p.get s).css = (p.get s).color.css := css_get_generate base s
  refine ⟨fun s => ?_, halpha, Alpha.number_ofNumber x, ?_⟩
  · simp only [p, q, base, get_generate, PaletteEntry.derive, Recipe.apply_withAlpha]
    exact ⟨rfl, rfl⟩
  · cases hopaque : base.isOpaque with
    | true =>
      rw [if_pos rfl]
      intro s
      rw [hcss, Color.css, Color.isOpaque_congr (halpha s), hopaque, if_pos rfl]
    | false =>
      rw [if_neg Bool.false_ne_true]
      intro s
      rw [hcss, Color.css, Color.isOpaque_congr (halpha s), hopaque, if_neg Bool.false_ne_true,
        ← Color.alphaText_congr (halpha s), Color.alphaText]

end Palette

end ColorTheme
