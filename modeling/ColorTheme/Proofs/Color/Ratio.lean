import ColorTheme.Proofs.Color.Contrast

/-!
# Comparing colors by contrast

The contrast ratio does not depend on the order of the two colors, is from 1 to 21 with nothing lost to
rounding, and grows with the luminance of the lighter color.  All of it comes from one fact about
rounded quotients: they keep the order of what is divided, and turn the order of what it is divided by.
-/

namespace ColorTheme

open Binary64

/-! ### Raised luminances -/

/-- A luminance with the offset that keeps the ratio finite. -/
def raised (l : Binary64) : Binary64 := l + 0.05

section Luminances

variable {a b d : Binary64}

theorem upTo_raised (h : UpTo a b) (hb : UpTo b 1) : UpTo (raised a) (raised b) := by
  have hoffset : Rising 0.05 0.05 1 := rising_literal 5 2 (by decide)
  exact ((h.rising_of_upTo hb).add hoffset (by decide)).upTo

theorem raised_pos (h : UpTo a 1) : 0 < raised a := by
  have hleast : 0 < raised 0 := by decide +kernel
  have hzero : UpTo 0 0 := hasValue_zero.upTo hasValue_zero le_rfl le_rfl
  exact hzero.lt_of_lt hleast (upTo_raised h.zero h)

theorem raised_div_self (h : UpTo a 1) : raised a / raised a = 1 := by
  obtain ⟨w, -, hw, -⟩ := upTo_raised h.self h
  have hw0 : 0 < w := (hasValue_zero.lt_iff hw).1 (raised_pos h)
  have hquotient := hw.div hw hw0.ne'
  rw [div_self hw0.ne'] at hquotient
  exact hquotient.unique hasValue_one.isRounding one_pos

/-! ### Ratios of luminances -/

theorem luminanceRatio_comm (ha : UpTo a 1) (hb : UpTo b 1) :
    luminanceRatio a b = luminanceRatio b a := by
  rcases ha.total hb with h | h
  · obtain ⟨hratio, hratio'⟩ := luminanceRatio_of_upTo h
    rw [hratio, hratio']
  · obtain ⟨hratio, hratio'⟩ := luminanceRatio_of_upTo h
    rw [hratio, hratio']

theorem luminanceRatio_eq (h : UpTo a b) : luminanceRatio a b = raised b / raised a :=
  (luminanceRatio_of_upTo h).1

theorem luminanceRatio_self (h : UpTo a 1) : luminanceRatio a a = 1 := by
  rw [luminanceRatio_eq h.self, raised_div_self h]

theorem raised_one_div_zero : raised 1 / raised 0 = 21 := by decide +kernel

/-- **No ratio is above that of one to zero.** -/
theorem luminanceRatio_upTo (h : UpTo a b) (hb : UpTo b 1) : UpTo (luminanceRatio a b) 21 := by
  have ha : UpTo a 1 := h.trans hb
  have hmost : (raised 1 / raised 0).isFinite = true := by decide +kernel
  rw [luminanceRatio_eq h, ← raised_one_div_zero]
  exact (upTo_raised hb upTo_one).div (upTo_raised ha.zero ha) (raised_pos (ha.zero.trans ha)) hmost

/-- **The ratio grows** with the larger luminance. -/
theorem luminanceRatio_mono (hd : UpTo d a) (h : UpTo a b) (hb : UpTo b 1) :
    UpTo (luminanceRatio d a) (luminanceRatio d b) := by
  have hdb : UpTo d b := hd.trans h
  have hfinite := (luminanceRatio_upTo hdb hb).isFinite
  have hd1 : UpTo d 1 := hdb.trans hb
  rw [luminanceRatio_eq hdb] at hfinite
  rw [luminanceRatio_eq hd, luminanceRatio_eq hdb]
  exact (upTo_raised h hb).div (upTo_raised hd.self hd1) (raised_pos hd1) hfinite

/-- **No ratio is below one.** -/
theorem one_upTo_luminanceRatio (h : UpTo a b) (hb : UpTo b 1) : UpTo 1 (luminanceRatio a b) := by
  rw [← luminanceRatio_self (h.trans hb)]
  exact luminanceRatio_mono h.self h hb

end Luminances

/-! ### Colors -/

namespace Color

variable {a b : Color}

theorem Alike.luminance_eq (h : Alike a b) : a.luminance = b.luminance := by
  rw [luminance, luminance, Channel.light, Channel.light, Channel.light, Channel.light,
    Channel.light, Channel.light, h.red, h.green, h.blue]

/-- Luminances in the order of numbers are numbers up to each other. -/
theorem upTo_luminance_of_le (h : a.luminance ≤ b.luminance) : UpTo a.luminance b.luminance := by
  obtain ⟨v, w, hv, hw, h0, -⟩ := a.upTo_luminance
  exact upTo_of_le ((hasValue_zero.le_iff hv).2 h0) h b.upTo_luminance.isFinite

end Color

namespace Overlay

/-- Black is drawn on a background if the ratio with it is above the one with white. -/
theorem on_eq_nearBlack_iff (c : Color) : on c = .nearBlack ↔
    luminanceRatio c.luminance 1 < luminanceRatio 0 c.luminance := by
  rw [luminanceRatio_comm c.upTo_luminance upTo_one, on, Color.luminance_white, Color.luminance_black]
  split
  · next hlt => exact iff_of_true rfl hlt
  · next hle => exact iff_of_false nofun hle

/-- On a background with more light black stays the better overlay. -/
theorem on_of_le {a b : Color} (h : a.luminance ≤ b.luminance) (hon : on a = .nearBlack) :
    on b = .nearBlack := by
  have ha := a.upTo_luminance
  have hb := b.upTo_luminance
  have hab := Color.upTo_luminance_of_le h
  rw [on_eq_nearBlack_iff] at hon ⊢
  -- With more light the ratio with white falls, and the one with black grows.
  have hwhite : UpTo (luminanceRatio b.luminance 1) (luminanceRatio a.luminance 1) := by
    have hfinite := (luminanceRatio_upTo ha upTo_one).isFinite
    rw [luminanceRatio_eq ha] at hfinite
    rw [luminanceRatio_eq ha, luminanceRatio_eq hb]
    exact (upTo_raised upTo_one upTo_one).div (upTo_raised hab hb) (raised_pos ha) hfinite
  exact hwhite.lt_of_lt hon (luminanceRatio_mono ha.zero hab hb)

end Overlay

namespace Color

/-- **The contrast ratio is a comparison**: the same number in either order, from 1 to 21, 1 for colors
with the same rounded channels, and growing with the luminance of the lighter color; so the overlay
changes once, from white to black, as the luminance of the background grows. -/
theorem contrast_orderly (a b : Color) :
    a.contrastRatio b = b.contrastRatio a ∧
      1 ≤ a.contrastRatio b ∧ a.contrastRatio b ≤ 21 ∧
      (a.Alike b → a.contrastRatio b = 1) ∧
      (∀ darker : Color, darker.luminance ≤ a.luminance → a.luminance ≤ b.luminance →
        darker.contrastRatio a ≤ darker.contrastRatio b) ∧
      (a.luminance ≤ b.luminance → Overlay.on a = .nearBlack → Overlay.on b = .nearBlack) := by
  have ha := a.upTo_luminance
  have hb := b.upTo_luminance
  have hcomm : a.contrastRatio b = b.contrastRatio a := luminanceRatio_comm ha hb
  have hrange : 1 ≤ a.contrastRatio b ∧ a.contrastRatio b ≤ 21 := by
    rcases ha.total hb with h | h
    · exact ⟨(one_upTo_luminanceRatio h hb).le, (luminanceRatio_upTo h hb).le⟩
    · rw [hcomm]
      exact ⟨(one_upTo_luminanceRatio h ha).le, (luminanceRatio_upTo h ha).le⟩
  refine ⟨hcomm, hrange.1, hrange.2, ?_, ?_, Overlay.on_of_le⟩
  · intro halike
    rw [contrastRatio, halike.luminance_eq]
    exact luminanceRatio_self hb
  · intro darker hda hab
    exact (luminanceRatio_mono (upTo_luminance_of_le hda) (upTo_luminance_of_le hab) hb).le

/-- Yellow has more light than red and red more than blue: the contrast to blue grows, and black stays the
better overlay, which it is not on blue. -/
theorem contrast_orderly_red :
    let blue := rgb 0 0 255
    let red := rgb 255 0 0
    let yellow := rgb 255 255 0
    Overlay.on blue = .white ∧ Overlay.on red = .nearBlack ∧
      blue.contrastRatio red ≤ blue.contrastRatio yellow ∧
      (red.withAlpha 0.5).contrastRatio red = 1 ∧ Overlay.on yellow = .nearBlack := by
  intro blue red yellow
  have hblue : blue.luminance ≤ red.luminance := by decide +kernel
  have hyellow : red.luminance ≤ yellow.luminance := by decide +kernel
  have hon : Overlay.on red = .nearBlack := by decide +kernel
  have halike : Alike (red.withAlpha 0.5) red := Alike.withAlpha ⟨rfl, rfl, rfl⟩ 0.5
  obtain ⟨-, -, -, -, hgrows, hstays⟩ := contrast_orderly red yellow
  obtain ⟨-, -, -, hsame, -⟩ := contrast_orderly (red.withAlpha 0.5) red
  exact ⟨by decide +kernel, hon, hgrows blue hblue hyellow, hsame halike, hstays hyellow hon⟩

end Color

end ColorTheme
