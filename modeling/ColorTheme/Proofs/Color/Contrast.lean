import ColorTheme.Palette
import ColorTheme.Proofs.Color.Hexadecimal
import ColorTheme.Proofs.Number.Power

/-!
# Readable overlays

Every luminance is a number from zero to one.  The ratio with white falls with the luminance and the
ratio with black grows, and where both meet they are still above 4.5, so the better overlay of the two
is always good enough.
-/

namespace ColorTheme

open Binary64

/-! ### Luminances -/

theorem rising_linearQuotient {x y : Binary64} (h : Rising x y 1) :
    Rising (x / 12.92) (y / 12.92) 1 := by
  obtain ⟨d, hd, hd12, -⟩ : ∃ d, HasValue 12.92 d ∧ ((12 : Nat) : Rat) ≤ d ∧ d ≤ (13 : Nat) :=
    exists_value_literal 1292 2 12 13 (by decide) (by decide) (by decide)
  push_cast at hd12
  exact h.div hd (by linarith) (by decide) (by push_cast; linarith)

theorem rising_powerBase {x y : Binary64} (h : Rising x y 1) :
    Rising ((x + 0.055) / 1.055) ((y + 0.055) / 1.055) 2 := by
  obtain ⟨d, hd, hd1, -⟩ : ∃ d, HasValue 1.055 d ∧ ((1 : Nat) : Rat) ≤ d ∧ d ≤ (2 : Nat) :=
    exists_value_literal 1055 3 1 2 (by decide) (by decide) (by decide)
  push_cast at hd1
  exact (h.add (rising_literal 55 3 (by decide)) (by decide)).div hd (by linarith) (by decide)
    (by push_cast; linarith)

theorem upTo_powerBase {x : Binary64} (hx : UpTo x 1) : UpTo ((x + 0.055) / 1.055) 1 := by
  have hone : ((1 : Binary64) + 0.055) / 1.055 = 1 := by decide +kernel
  have hbase := (rising_powerBase hx.rising).upTo
  rwa [hone] at hbase

/-- **The share of light** of a number up to one is a number up to one. -/
theorem upTo_linearLight {x : Binary64} (hx : UpTo x 1) : UpTo (linearLight x) 1 := by
  unfold linearLight
  split
  · have hquotient := rising_linearQuotient hx.rising
    exact hquotient.upTo.trans (hquotient.bounded (by decide))
  · obtain ⟨v, w, hv, hw, h0, hvw⟩ := upTo_powerBase hx
    obtain rfl : w = 1 := hw.value_eq.symm.trans hasValue_one.value_eq
    obtain ⟨u, hu, hu0, hu1⟩ := exists_value_power hv h0 hvw 2.4
    exact hu.upTo hasValue_one hu0 hu1

def byteShare (n : Nat) : Binary64 := ofNat n / 255

section Share

variable {m n : Nat}

theorem rising_ofNat (h : m ≤ n) (hn : n ≤ 255) : Rising (ofNat m) (ofNat n) 255 :=
  rising_of_isRounding (isRounding_ofNat m) (isRounding_ofNat n) (by decide) (Nat.cast_nonneg m)
    (Nat.cast_le.2 h) (Nat.cast_le.2 hn)

theorem rising_byteShare (h : m ≤ n) (hn : n ≤ 255) : Rising (byteShare m) (byteShare n) 1 :=
  (rising_ofNat h hn).div (hasValue_ofNat (n := 255) (by decide)) (by norm_num) (by decide)
    (by norm_num)

end Share

theorem Channel.upTo_light (c : Channel) : UpTo c.light 1 := by
  have hbyte : c.byte.toNat ≤ 255 := Nat.le_of_lt_succ c.byte.toNat_lt
  exact upTo_linearLight ((rising_byteShare le_rfl hbyte).bounded (by decide))

namespace Color

theorem luminance_white : white.luminance = 1 := by decide +kernel

theorem luminance_black : black.luminance = 0 := by decide +kernel

theorem rising_weighted {r g b r' g' b' : Binary64} (hr : Rising r r' 1) (hg : Rising g g' 1)
    (hb : Rising b b' 1) : Rising (0.2126 * r + 0.7152 * g + 0.0722 * b)
      (0.2126 * r' + 0.7152 * g' + 0.0722 * b') 3 := by
  have hred := (rising_literal 2126 4 (by decide)).mul hr (by decide)
  have hgreen := (rising_literal 7152 4 (by decide)).mul hg (by decide)
  have hblue := (rising_literal 722 4 (by decide)).mul hb (by decide)
  exact (hred.add hgreen (by decide)).add hblue (by decide)

/-- **The luminance** of a color is a number from zero to one. -/
theorem upTo_luminance (c : Color) : UpTo c.luminance 1 := by
  have hfull : ((0.2126 * 1 + 0.7152 * 1 + 0.0722 * 1 : Binary64)) = 1 := by decide +kernel
  have hsum := rising_weighted c.red.upTo_light.rising c.green.upTo_light.rising
    c.blue.upTo_light.rising
  rw [hfull] at hsum
  exact hsum.upTo

end Color

/-! ### Ratios -/

theorem exists_value_offset : ∃ u, HasValue 0.05 u ∧ 1 / 25 ≤ u := by
  obtain ⟨u, hu, hnear⟩ := (isRounding_ofScientific 5 2).near (by norm_num [abs_of_pos])
  have hsmall := slip_le
  rw [abs_le] at hnear
  exact ⟨u, hu, by push_cast at hnear; linarith⟩

theorem hasValue_limit : HasValue 4.5 (9 / 2) := by
  have hvalue := hasValue_literal_half 4 (by decide)
  have hsum : ((4 : Nat) : Rat) + 1 / 2 = 9 / 2 := by norm_num
  rwa [hsum] at hvalue

/-- **The ratio of two luminances**, in either order, is that of the larger one to the smaller. -/
theorem luminanceRatio_of_upTo {a b : Binary64} (h : UpTo a b) :
    luminanceRatio a b = (b + 0.05) / (a + 0.05) ∧
      luminanceRatio b a = (b + 0.05) / (a + 0.05) := by
  obtain ⟨v, w, ha, hb, h0, hvw⟩ := h
  simp only [luminanceRatio, larger, smaller, ha.isNan, hb.isNan, ha.le_eq hb, hb.le_eq ha,
    Bool.false_or, decide_eq_true_eq, if_pos hvw]
  rcases hvw.lt_or_eq with hlt | rfl
  · rw [if_neg (not_le.2 hlt), if_neg (not_le.2 hlt)]
    exact ⟨rfl, rfl⟩
  · -- Two zeros may differ in the sign, and then the sums do not.
    obtain ⟨u, hoffset, hu⟩ := exists_value_offset
    have hpositive : 0 < v + u := by linarith
    have hsame : a + 0.05 = b + 0.05 := (ha.add hoffset).unique (hb.add hoffset) hpositive
    simp only [if_pos hvw, hsame, and_self]

/-- A quotient up to 22 has a value, and that is 4.5 or more if the exact quotient is. -/
theorem exists_value_quotient {x y : Binary64} {v w : Rat} (hx : HasValue x v) (hy : HasValue y w)
    (h0 : 0 ≤ v) (hw : 0 < w) (h : v ≤ 22 * w) :
    ∃ p, HasValue (x / y) p ∧ (9 / 2 * w ≤ v → 9 / 2 ≤ p) := by
  have hquotient := hx.div hy hw.ne'
  have hle : v / w ≤ (22 : Nat) := (div_le_iff₀ hw).2 h
  obtain ⟨p, hp, -⟩ := hquotient.exists_value (by decide) (by decide) (div_nonneg h0 hw.le) hle
  exact ⟨p, hp, fun hgood =>
    hasValue_limit.isRounding.le_of_le hquotient hasValue_limit hp ((le_div_iff₀ hw).2 hgood)⟩

theorem ratio_of_raised {raised : Binary64} (hlow : 0 + 0.05 ≤ raised) (hhigh : raised ≤ 1 + 0.05) :
    ∃ p q, HasValue ((1 + 0.05) / raised) p ∧ HasValue (raised / (0 + 0.05)) q ∧
      (9 / 2 ≤ p ∨ 9 / 2 ≤ q) := by
  have hleast : HasValue (0 + 0.05) ((0 : Binary64) + 0.05).value :=
    hasValue_value (by decide +kernel)
  have hmost : HasValue (1 + 0.05) ((1 : Binary64) + 0.05).value :=
    hasValue_value (by decide +kernel)
  obtain ⟨b, hb, hbl, hbh⟩ := Binary64.exists_value_of_le hleast hmost hlow hhigh
  have hpos : 0 < ((0 : Binary64) + 0.05).value := by decide +kernel
  have hspan : ((1 : Binary64) + 0.05).value ≤ 22 * ((0 : Binary64) + 0.05).value := by
    decide +kernel
  have hmiddle : 9 / 2 * (9 / 2 * ((0 : Binary64) + 0.05).value) ≤ ((1 : Binary64) + 0.05).value := by
    decide +kernel
  generalize ((0 : Binary64) + 0.05).value = c at *
  generalize ((1 : Binary64) + 0.05).value = d at *
  have hbpos : 0 < b := hpos.trans_le hbl
  obtain ⟨p, hp, hwhite⟩ := exists_value_quotient hmost hb (by linarith) hbpos (by linarith)
  obtain ⟨q, hq, hblack⟩ := exists_value_quotient hb hleast hbpos.le hpos (by linarith)
  refine ⟨p, q, hp, hq, ?_⟩
  -- Up to 4.5 times the offset the ratio with white is good enough, from there on that with black.
  rcases le_total b (9 / 2 * c) with hle | hle
  · exact .inl (hwhite (by linarith))
  · exact .inr (hblack hle)

/-! ### Overlays -/

/-- The ratio with an overlay, in either order, for a color whose luminance is `l`. -/
theorem luminanceRatio_overlay {l : Binary64} (hl : UpTo l 1) :
    (luminanceRatio l 1 = (1 + 0.05) / (l + 0.05) ∧
      luminanceRatio 1 l = (1 + 0.05) / (l + 0.05)) ∧
    (luminanceRatio l 0 = (l + 0.05) / (0 + 0.05) ∧
      luminanceRatio 0 l = (l + 0.05) / (0 + 0.05)) :=
  ⟨luminanceRatio_of_upTo hl, (luminanceRatio_of_upTo hl.zero).symm⟩

theorem exists_ratios {l : Binary64} (hl : UpTo l 1) :
    ∃ p q, HasValue (luminanceRatio l 1) p ∧ HasValue (luminanceRatio l 0) q ∧
      (9 / 2 ≤ p ∨ 9 / 2 ≤ q) := by
  have hoffset := rising_literal 5 2 (by decide)
  have hhigh := (hl.rising.add hoffset (by decide)).upTo
  have hlow := ((hl.zero.rising_of_upTo hl).add hoffset (by decide)).upTo
  obtain ⟨⟨hwhite, -⟩, hblack, -⟩ := luminanceRatio_overlay hl
  rw [hwhite, hblack]
  exact ratio_of_raised hlow.le hhigh.le

namespace Overlay

/-- **The better overlay** has a ratio of 4.5 or more, in either order of the two colors. -/
theorem readable (c : Color) :
    (∀ overlay : Overlay, overlay.color.contrastRatio c = c.contrastRatio overlay.color) ∧
      4.5 ≤ c.contrastRatio (on c).color ∧
      ∀ other : Overlay, c.contrastRatio other.color ≤ c.contrastRatio (on c).color := by
  have hl := c.upTo_luminance
  obtain ⟨⟨hwhite, hwhite'⟩, hblack, hblack'⟩ := luminanceRatio_overlay hl
  obtain ⟨p, q, hp, hq, hgood⟩ := exists_ratios hl
  have hsame (overlay : Overlay) :
      overlay.color.contrastRatio c = c.contrastRatio overlay.color := by
    cases overlay with
    | nearBlack =>
      rw [color, Color.contrastRatio, Color.contrastRatio, Color.luminance_black, hblack, hblack']
    | white =>
      rw [color, Color.contrastRatio, Color.contrastRatio, Color.luminance_white, hwhite, hwhite']
  refine ⟨hsame, ?_⟩
  have hp : HasValue (c.contrastRatio (color .white)) p := by
    rw [color, Color.contrastRatio, Color.luminance_white]
    exact hp
  have hq : HasValue (c.contrastRatio (color .nearBlack)) q := by
    rw [color, Color.contrastRatio, Color.luminance_black]
    exact hq
  have hon : on c = if c.contrastRatio (color .white) < c.contrastRatio (color .nearBlack)
      then .nearBlack else .white := by
    rw [← hsame .white, ← hsame .nearBlack]
    rfl
  rw [hon]
  simp only [hp.lt_iff hq]
  split
  · rename_i hlt
    refine ⟨(hasValue_limit.le_iff hq).2 (hgood.elim (fun h => h.trans hlt.le) id), fun other => ?_⟩
    cases other with
    | nearBlack => exact (hq.le_iff hq).2 le_rfl
    | white => exact (hp.le_iff hq).2 hlt.le
  · rename_i hle
    rw [not_lt] at hle
    refine ⟨(hasValue_limit.le_iff hp).2 (hgood.elim id fun h => h.trans hle), fun other => ?_⟩
    cases other with
    | nearBlack => exact (hq.le_iff hp).2 hle
    | white => exact (hp.le_iff hp).2 le_rfl

end Overlay

/-- **Every shade of a palette is readable**: what its hexadecimal form writes is read as a color that
its overlay is the better one for, with a ratio of 4.5 or more. -/
theorem Palette.overlays_readable (base : Color) (shade : Shade) :
    let entry := (generate base).get shade
    ∃ read, Color.parse entry.hex = .ok read ∧ entry.overlay = .on read ∧
      entry.overlay.color.contrastRatio read = read.contrastRatio entry.overlay.color ∧
      4.5 ≤ read.contrastRatio entry.overlay.color ∧
      ∀ other : Overlay,
        read.contrastRatio other.color ≤ read.contrastRatio entry.overlay.color := by
  intro entry
  have hentry : entry = PaletteEntry.derive base shade := get_generate base shade
  rw [hentry, PaletteEntry.derive]
  dsimp only
  generalize shade.recipe.apply base = color
  obtain ⟨hsame, hgood, hbest⟩ := Overlay.readable color.solid
  exact ⟨color.solid, color.parse_hex, rfl, hsame _, hgood, hbest⟩

end ColorTheme
