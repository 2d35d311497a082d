import ColorTheme.Color.Hsl
import ColorTheme.Proofs.Color.Validity
import ColorTheme.Proofs.Color.Wheel
import ColorTheme.Proofs.Number.Nearness
import Mathlib.Tactic.LinearCombination

/-!
# The hue, saturation and lightness of a color

Every color has a hue, a saturation and a lightness from zero to one.  No divisor on the way is zero:
all of them are at least as large as the spread of the channels, because rounding keeps the order of
the differences they are rounded from.  Mixed again on the exact wheel, they give back the channels,
but for an error that is far below one part of a byte.
-/

namespace ColorTheme

open Binary64 Wheel

namespace Color

/-! ### Parts -/

variable (c : Color)

/-- A channel on the scale from zero to one. -/
def part (p : Primary) : Binary64 := (c.channel p).number / 255

/-- The exact values of the channels on this scale. -/
def parts : Parts := ⟨(c.part .red).value, (c.part .green).value, (c.part .blue).value⟩

def highest : Binary64 := ((c.part .red).larger (c.part .green)).larger (c.part .blue)

def lowest : Binary64 := ((c.part .red).smaller (c.part .green)).smaller (c.part .blue)

def spread : Binary64 := c.highest - c.lowest

def lightness : Binary64 := (c.highest + c.lowest) / 2

/-- The largest spread that there is at this lightness. -/
def breadth : Binary64 :=
  if 0.5 < c.lightness then 2 - c.highest - c.lowest else c.highest + c.lowest

/-- The hue on the scale from zero to six. -/
def turn : Binary64 := hueOf (c.part .red) (c.part .green) (c.part .blue) c.highest c.spread

theorem toHsl_of_gray (h : c.spread ≤ Hsl.grayTolerance) : c.toHsl = ⟨0, 0, c.lightness⟩ := if_pos h

theorem toHsl_of_colored (h : ¬ c.spread ≤ Hsl.grayTolerance) :
    c.toHsl = ⟨c.turn / 6, c.spread / c.breadth, c.lightness⟩ := by
  have heq : c.toHsl = ⟨c.turn / 6, if 0.5 < c.lightness then c.spread / (2 - c.highest - c.lowest)
      else c.spread / (c.highest + c.lowest), c.lightness⟩ := if_neg h
  rw [heq, breadth, apply_ite (c.spread / ·)]

theorem exists_value_channel (p : Primary) :
    ∃ v : Rat, HasValue (c.channel p).number v ∧ 0 ≤ v ∧ v ≤ 255 := by
  simpa using Amount.exists_value (n := 255) (by decide) (c.channel p)

/-- A part is from zero to one, and near to the 255th part of its channel. -/
theorem exists_value_part (p : Primary) : ∃ v, HasValue (c.part p) v ∧ 0 ≤ v ∧ v ≤ 1 ∧
    ∀ u, HasValue (c.channel p).number u → |v - u / 255| ≤ slip := by
  obtain ⟨u, hu, h0, h1⟩ := c.exists_value_channel p
  have hfull : HasValue 255 255 := hasValue_ofNat (n := 255) (by decide)
  have hlow : 0 ≤ u / 255 := div_nonneg h0 (by norm_num)
  have hhigh : u / 255 ≤ 1 := (div_le_one (by norm_num)).2 h1
  obtain ⟨v, hv, hv0, hv1, herror⟩ := (hu.div hfull (by norm_num)).near_between hasValue_zero
    hasValue_one hlow hhigh (by rw [abs_of_nonneg hlow]; linarith)
  refine ⟨v, hv, hv0, hv1, fun u' hu' => ?_⟩
  rwa [← hu'.value_eq, hu.value_eq]

theorem hasValue_part (p : Primary) : HasValue (c.part p) (c.parts.get p) := by
  obtain ⟨v, hv, -⟩ := c.exists_value_part p
  have hvalue := hasValue_value hv.isFinite
  cases p <;> exact hvalue

theorem parts_mem (p : Primary) : 0 ≤ c.parts.get p ∧ c.parts.get p ≤ 1 := by
  obtain ⟨v, hv, h0, h1, -⟩ := c.exists_value_part p
  rw [← (c.hasValue_part p).value_eq, hv.value_eq]
  exact ⟨h0, h1⟩

theorem hasValue_highest : HasValue c.highest c.parts.high :=
  ((c.hasValue_part .red).larger (c.hasValue_part .green)).larger (c.hasValue_part .blue)

theorem hasValue_lowest : HasValue c.lowest c.parts.low :=
  ((c.hasValue_part .red).smaller (c.hasValue_part .green)).smaller (c.hasValue_part .blue)

theorem range_mem : 0 ≤ c.parts.low ∧ c.parts.low ≤ c.parts.high ∧ c.parts.high ≤ 1 := by
  have hlow := c.parts.low_le_get .red
  have hhigh := c.parts.get_le_high .red
  refine ⟨le_min (le_min ?_ ?_) ?_, hlow.trans hhigh, max_le (max_le ?_ ?_) ?_⟩
  · exact (c.parts_mem .red).1
  · exact (c.parts_mem .green).1
  · exact (c.parts_mem .blue).1
  · exact (c.parts_mem .red).2
  · exact (c.parts_mem .green).2
  · exact (c.parts_mem .blue).2

/-! ### Lightness and saturation -/

theorem exists_value_lightness : ∃ l, HasValue c.lightness l ∧ 0 ≤ l ∧ l ≤ 1 ∧
    |l - (c.parts.low + (c.parts.high - c.parts.low) / 2)| ≤ 2 * slip := by
  unfold lightness
  obtain ⟨hlow0, hle, hhigh1⟩ := c.range_mem
  obtain ⟨u, hu, hu0, hu2, herror⟩ := (c.hasValue_highest.add c.hasValue_lowest).near_between
    hasValue_zero hasValue_two (by linarith) (by linarith) (by rw [abs_of_nonneg] <;> linarith)
  obtain ⟨l, hl, hl0, hl1, herror'⟩ := (hu.div hasValue_two two_ne_zero).near_between
    hasValue_zero hasValue_one (by linarith) (by linarith) (by rw [abs_of_nonneg] <;> linarith)
  refine ⟨l, hl, hl0, hl1, ?_⟩
  rw [abs_le] at herror herror' ⊢
  constructor <;> linarith

theorem exists_value_spread : ∃ d, HasValue c.spread d ∧ 0 ≤ d ∧ d ≤ 1 ∧
    |d - (c.parts.high - c.parts.low)| ≤ slip := by
  obtain ⟨hlow0, hle, hhigh1⟩ := c.range_mem
  exact (c.hasValue_highest.sub c.hasValue_lowest).near_between hasValue_zero hasValue_one
    (by linarith) (by linarith) (by rw [abs_of_nonneg] <;> linarith)

/-- What is known of a color that is not gray. -/
structure IsColored (d l : Rat) : Prop where
  spread : HasValue c.spread d
  pos : 0 < d
  le_one : d ≤ 1
  near : |d - (c.parts.high - c.parts.low)| ≤ slip
  lightness : HasValue c.lightness l
  lightness_mem : 0 ≤ l ∧ l ≤ 1
  lightness_near : |l - (c.parts.low + (c.parts.high - c.parts.low) / 2)| ≤ 2 * slip

theorem exists_isColored (h : ¬ c.spread ≤ Hsl.grayTolerance) : ∃ d l, c.IsColored d l := by
  obtain ⟨d, hd, -, hd1, hnear⟩ := c.exists_value_spread
  obtain ⟨l, hl, hl0, hl1, hlnear⟩ := c.exists_value_lightness
  have htolerance : HasValue Hsl.grayTolerance Hsl.grayTolerance.value :=
    hasValue_value (by decide +kernel)
  have hpositive : 0 < Hsl.grayTolerance.value := by decide +kernel
  rw [hd.le_iff htolerance, not_le] at h
  exact ⟨d, l, hd, hpositive.trans h, hd1, hnear, hl, ⟨hl0, hl1⟩, hlnear⟩

namespace IsColored

variable {c} {d l : Rat} (h : c.IsColored d l)
include h

/-- **The spread is within the breadth**: both are rounded from differences from the highest part, or
from the sum, that are in this order. -/
theorem exists_value_breadth : ∃ b, HasValue c.breadth b ∧ d ≤ b ∧ b ≤ 2 ∧
    |b - 2 * min l (1 - l)| ≤ 6 * slip := by
  obtain ⟨hlow0, hle, hhigh1⟩ := c.range_mem
  have hspread := c.hasValue_highest.sub c.hasValue_lowest
  have hnear := h.lightness_near
  unfold breadth
  split
  · rename_i hlarge
    rw [hasValue_half.lt_iff h.lightness] at hlarge
    obtain ⟨u, hu, hu1, hu2, herror⟩ := (hasValue_two.sub c.hasValue_highest).near_between
      hasValue_one hasValue_two (by linarith) (by linarith) (by rw [abs_of_nonneg] <;> linarith)
    obtain ⟨b, hb, hb0, hb2, herror'⟩ := (hu.sub c.hasValue_lowest).near_between
      hasValue_zero hasValue_two (by linarith) (by linarith) (by rw [abs_of_nonneg] <;> linarith)
    refine ⟨b, hb, hspread.le_of_le (hu.sub c.hasValue_lowest) h.spread hb (by linarith), hb2, ?_⟩
    rw [min_eq_right (by linarith)]
    rw [abs_le] at herror herror' hnear ⊢
    constructor <;> linarith
  · rename_i hsmall
    rw [hasValue_half.lt_iff h.lightness, not_lt] at hsmall
    have hsum := c.hasValue_highest.add c.hasValue_lowest
    obtain ⟨b, hb, hb0, hb2, herror⟩ := hsum.near_between
      hasValue_zero hasValue_two (by linarith) (by linarith) (by rw [abs_of_nonneg] <;> linarith)
    refine ⟨b, hb, hspread.le_of_le hsum h.spread hb (by linarith), hb2, ?_⟩
    rw [min_eq_left (by linarith)]
    rw [abs_le] at herror hnear ⊢
    constructor <;> linarith

theorem exists_value_saturation : ∃ s, HasValue (c.spread / c.breadth) s ∧ 0 ≤ s ∧ s ≤ 1 ∧
    |s * min l (1 - l) - (c.parts.high - c.parts.low) / 2| ≤ 5 * slip := by
  obtain ⟨b, hb, hdb, hb2, herror⟩ := h.exists_value_breadth
  have hb0 : 0 < b := h.pos.trans_le hdb
  have hquotient0 : 0 ≤ d / b := div_nonneg h.pos.le hb0.le
  have hquotient1 : d / b ≤ 1 := (div_le_one hb0).2 hdb
  obtain ⟨s, hs, hs0, hs1, herror'⟩ := (h.spread.div hb hb0.ne').near_between hasValue_zero
    hasValue_one hquotient0 hquotient1 (by rw [abs_of_nonneg hquotient0]; linarith)
  refine ⟨s, hs, hs0, hs1, ?_⟩
  -- The error of the quotient counts as much as the breadth, that of the breadth as the quotient.
  have hproduct : |s * b - d| ≤ 2 * slip := by
    have hsplit : s * b - d = (s - d / b) * b := by
      rw [sub_mul, div_mul_cancel₀ _ hb0.ne']
    rw [hsplit, abs_mul, abs_of_pos hb0, mul_comm]
    exact mul_le_mul hb2 herror' (abs_nonneg _) zero_le_two
  have hshift : |s * (b - 2 * min l (1 - l))| ≤ 6 * slip := by
    rw [abs_mul, abs_of_nonneg hs0]
    exact (mul_le_of_le_one_left (abs_nonneg _) hs1).trans herror
  have hnear := h.near
  rw [abs_le] at hproduct hshift hnear ⊢
  constructor <;> linarith

/-! ### Hue -/

theorem exists_value_difference (p q : Primary) :
    ∃ u, HasValue (c.part p - c.part q) u ∧ |u| ≤ d ∧
      (c.parts.get p < c.parts.get q → u ≤ 0) ∧ (c.parts.get q ≤ c.parts.get p → 0 ≤ u) ∧
      |u - (c.parts.get p - c.parts.get q)| ≤ slip := by
  have hround := (c.hasValue_part p).sub (c.hasValue_part q)
  have hspread := c.hasValue_highest.sub c.hasValue_lowest
  have hzero := hasValue_zero.isRounding
  have hp := c.parts.low_le_get p
  have hp' := c.parts.get_le_high p
  have hq := c.parts.low_le_get q
  have hq' := c.parts.get_le_high q
  obtain ⟨hlow0, hle, hhigh1⟩ := c.range_mem
  obtain ⟨u, hu, hu0, hu1, herror⟩ := hround.near_between hasValue_one.neg hasValue_one
    (by linarith) (by linarith) (by rw [abs_le]; constructor <;> linarith)
  refine ⟨u, hu, abs_le.2 ⟨?_, ?_⟩, fun hlt => ?_, fun hge => ?_, herror⟩
  · exact hspread.neg.le_of_le hround h.spread.neg hu (by linarith)
  · exact hround.le_of_le hspread hu h.spread (by linarith)
  · exact hround.le_of_le hzero hu hasValue_zero (by linarith)
  · exact hzero.le_of_le hround hasValue_zero hu (by linarith)

theorem exists_value_ratio (p q : Primary) :
    ∃ x, HasValue ((c.part p - c.part q) / c.spread) x ∧ |x| ≤ 1 ∧
      (c.parts.get p < c.parts.get q → x ≤ 0) ∧ (c.parts.get q ≤ c.parts.get p → 0 ≤ x) ∧
      |(c.parts.high - c.parts.low) * x - (c.parts.get p - c.parts.get q)| ≤ 3 * slip := by
  have hpos := h.pos
  have hzero := hasValue_zero.isRounding
  obtain ⟨u, hu, hud, hneg, hnonneg, herror⟩ := h.exists_value_difference p q
  have hdiv := hu.div h.spread hpos.ne'
  have hquotient : |u / d| ≤ 1 := by
    rw [abs_div, abs_of_pos hpos]
    exact (div_le_one hpos).2 hud
  obtain ⟨hlow, hhigh⟩ := abs_le.1 hquotient
  obtain ⟨x, hx, hx0, hx1, herror'⟩ := hdiv.near_between hasValue_one.neg hasValue_one hlow hhigh
    (hquotient.trans (by norm_num))
  refine ⟨x, hx, abs_le.2 ⟨hx0, hx1⟩, fun hlt => ?_, fun hle => ?_, ?_⟩
  · exact hdiv.le_of_le hzero hx hasValue_zero
      (div_nonpos_of_nonpos_of_nonneg (hneg hlt) hpos.le)
  · exact hzero.le_of_le hdiv hasValue_zero hx (div_nonneg (hnonneg hle) hpos.le)
  · have hproduct : |d * x - u| ≤ slip := by
      have hsplit : d * x - u = d * (x - u / d) := by
        rw [mul_sub, mul_div_cancel₀ _ hpos.ne']
      rw [hsplit, abs_mul, abs_of_pos hpos]
      exact (mul_le_of_le_one_left (abs_nonneg _) h.le_one).trans herror'
    have hshift : |(d - (c.parts.high - c.parts.low)) * x| ≤ slip := by
      rw [abs_mul]
      exact (mul_le_of_le_one_right (abs_nonneg _) (abs_le.2 ⟨hx0, hx1⟩)).trans h.near
    rw [abs_le] at herror hproduct hshift ⊢
    constructor <;> linarith

/-- Parts without a difference would be rounded to no spread. -/
theorem low_lt_high : c.parts.low < c.parts.high := by
  by_contra hle
  have hspread := c.hasValue_highest.sub c.hasValue_lowest
  have hd := hspread.le_of_le hasValue_zero.isRounding h.spread hasValue_zero (by linarith)
  exact absurd h.pos (not_lt.2 hd)

theorem exists_value_counted {p q : Primary} {place : Binary64} {n x : Rat}
    (hplace : HasValue place n) (hx : HasValue ((c.part p - c.part q) / c.spread) x)
    (herror : |(c.parts.high - c.parts.low) * x - (c.parts.get p - c.parts.get q)| ≤ 3 * slip)
    (h0 : 0 ≤ x + n) (h6 : x + n ≤ 6) :
    ∃ t, HasValue ((c.part p - c.part q) / c.spread + place) t ∧ 0 ≤ t ∧ t ≤ 6 ∧
      |(c.parts.high - c.parts.low) * (t -
        ((c.parts.get p - c.parts.get q) / (c.parts.high - c.parts.low) + n))| ≤ 4 * slip := by
  have hpos := sub_pos.2 h.low_lt_high
  obtain ⟨hlow0, hle, hhigh1⟩ := c.range_mem
  obtain ⟨t, ht, ht0, ht6, herror'⟩ := (hx.add hplace).near_between hasValue_zero
    (hasValue_ofNat (n := 6) (by decide)) h0 h6 (by rw [abs_of_nonneg h0]; linarith)
  refine ⟨t, ht, ht0, ht6, ?_⟩
  have hshift : |(c.parts.high - c.parts.low) * (t - (x + n))| ≤ slip := by
    rw [abs_mul, abs_of_pos hpos]
    exact (mul_le_of_le_one_left (abs_nonneg _) (by linarith)).trans herror'
  have hsplit : (c.parts.high - c.parts.low) * (t -
      ((c.parts.get p - c.parts.get q) / (c.parts.high - c.parts.low) + n)) =
      (c.parts.high - c.parts.low) * (t - (x + n)) +
        ((c.parts.high - c.parts.low) * x - (c.parts.get p - c.parts.get q)) := by
    have hcancel := mul_div_cancel₀ (c.parts.get p - c.parts.get q) hpos.ne'
    linear_combination -hcancel
  rw [hsplit]
  exact (abs_add_le _ _).trans (by linarith)

/-- **The hue, from zero to six**, and what the exact one is off by. -/
theorem exists_value_turn : ∃ t, HasValue c.turn t ∧ 0 ≤ t ∧ t ≤ 6 ∧
    |(c.parts.high - c.parts.low) * (t - c.parts.hue)| ≤ 4 * slip := by
  have hred : c.highest.sameAs (c.part .red) = true ↔ c.parts.high = c.parts.red :=
    c.hasValue_highest.sameAs_iff (c.hasValue_part .red)
  have hgreen : c.highest.sameAs (c.part .green) = true ↔ c.parts.high = c.parts.green :=
    c.hasValue_highest.sameAs_iff (c.hasValue_part .green)
  unfold turn hueOf Parts.hue
  split
  · rename_i hhigh
    rw [if_pos (hred.1 hhigh)]
    obtain ⟨x, hx, hx1, hneg, hpos, herror⟩ := h.exists_value_ratio .green .blue
    obtain ⟨hlow, hhigh⟩ := abs_le.1 hx1
    have hlt := (c.hasValue_part .green).lt_iff (c.hasValue_part .blue)
    by_cases hsign : c.parts.green < c.parts.blue
    · have hx0 := hneg hsign
      rw [if_pos (hlt.2 hsign), if_pos hsign]
      exact h.exists_value_counted (hasValue_ofNat (n := 6) (by decide)) hx herror
        (by linarith) (by linarith)
    · have hx0 := hpos (not_lt.1 hsign)
      rw [if_neg fun hlt' => hsign (hlt.1 hlt'), if_neg hsign]
      exact h.exists_value_counted hasValue_zero hx herror (by linarith) (by linarith)
  · rename_i hother
    rw [if_neg fun heq => hother (hred.2 heq)]
    split
    · rename_i hhigh
      rw [if_pos (hgreen.1 hhigh)]
      obtain ⟨x, hx, hx1, -, -, herror⟩ := h.exists_value_ratio .blue .red
      obtain ⟨hlow, hhigh⟩ := abs_le.1 hx1
      exact h.exists_value_counted hasValue_two hx herror (by linarith) (by linarith)
    · rename_i hother'
      rw [if_neg fun heq => hother' (hgreen.2 heq)]
      obtain ⟨x, hx, hx1, -, -, herror⟩ := h.exists_value_ratio .red .green
      obtain ⟨hlow, hhigh⟩ := abs_le.1 hx1
      exact h.exists_value_counted (hasValue_ofNat (n := 4) (by decide)) hx herror
        (by linarith) (by linarith)

theorem exists_value_hue : ∃ t, HasValue (c.turn / 6) t ∧ 0 ≤ t ∧ t ≤ 1 ∧
    |(c.parts.high - c.parts.low) * (6 * t - c.parts.hue)| ≤ 10 * slip := by
  have hpos := sub_pos.2 h.low_lt_high
  obtain ⟨hlow0, hle, hhigh1⟩ := c.range_mem
  obtain ⟨u, hu, hu0, hu6, herror⟩ := h.exists_value_turn
  have hsix : HasValue 6 6 := hasValue_ofNat (n := 6) (by decide)
  have hsixth0 : 0 ≤ u / 6 := div_nonneg hu0 (by norm_num)
  obtain ⟨t, ht, ht0, ht1, herror'⟩ := (hu.div hsix (by norm_num)).near_between hasValue_zero
    hasValue_one hsixth0 (by linarith) (by rw [abs_of_nonneg hsixth0]; linarith)
  refine ⟨t, ht, ht0, ht1, ?_⟩
  have hshift : |(c.parts.high - c.parts.low) * (t - u / 6)| ≤ slip := by
    rw [abs_mul, abs_of_pos hpos]
    exact (mul_le_of_le_one_left (abs_nonneg _) (by linarith)).trans herror'
  have hsplit : (c.parts.high - c.parts.low) * (6 * t - c.parts.hue) =
      6 * ((c.parts.high - c.parts.low) * (t - u / 6)) +
        (c.parts.high - c.parts.low) * (u - c.parts.hue) := by
    ring
  rw [abs_le] at hshift herror
  rw [hsplit, abs_le]
  constructor <;> linarith

end IsColored

end Color

/-! ### The whole form -/

structure Hsl.Has (x : Hsl) (f : Form) : Prop where
  hue : HasValue x.hue f.hue
  saturation : HasValue x.saturation f.saturation
  lightness : HasValue x.lightness f.lightness

namespace Color

/-- The channels are those of the form to within a thousandth of a byte. -/
def Shows (c : Color) (f : Form) : Prop :=
  ∀ p, Near (c.channel p).number (255 * f.part p) (1 / 1000)

variable (c : Color)

theorem shows_of_parts {f : Form} (h : ∀ p, |f.part p - c.parts.get p| ≤ 20 * slip) : c.Shows f := by
  intro p
  obtain ⟨u, hu, -⟩ := c.exists_value_channel p
  obtain ⟨v, hv, -, -, hnear⟩ := c.exists_value_part p
  have herror := hnear u hu
  have hpart := h p
  rw [← (c.hasValue_part p).value_eq, hv.value_eq] at hpart
  refine ⟨u, hu, ?_⟩
  unfold slip at herror hpart
  rw [abs_le] at herror hpart ⊢
  constructor <;> linarith

/-- A color without a spread is the gray of its lightness. -/
theorem exists_form_of_gray (hgray : c.spread ≤ Hsl.grayTolerance) :
    ∃ f : Form, c.toHsl.Has f ∧ c.Shows f := by
  obtain ⟨l, hl, hl0, hl1, hnear⟩ := c.exists_value_lightness
  obtain ⟨d, hd, -, -, hdnear⟩ := c.exists_value_spread
  have htolerance : HasValue Hsl.grayTolerance Hsl.grayTolerance.value :=
    hasValue_value (by decide +kernel)
  have hsmall : Hsl.grayTolerance.value ≤ slip := by decide +kernel
  have hspread := (hd.le_iff htolerance).1 hgray
  refine ⟨⟨0, 0, l, by norm_num, by norm_num, hl0, hl1⟩, ?_, c.shows_of_parts fun p => ?_⟩
  · rw [c.toHsl_of_gray hgray]
    exact ⟨hasValue_zero, hasValue_zero, hl⟩
  · have hp := c.parts.low_le_get p
    have hp' := c.parts.get_le_high p
    have hslip := slip_pos
    rw [Form.part, tint_gray]
    rw [abs_le] at hnear hdnear ⊢
    constructor <;> linarith

/-- The exact wheel mixes the parts again; the errors of the values go into the mixture. -/
theorem exists_form_of_colored (hcolored : ¬ c.spread ≤ Hsl.grayTolerance) :
    ∃ f : Form, c.toHsl.Has f ∧ c.Shows f := by
  obtain ⟨d, l, h⟩ := c.exists_isColored hcolored
  obtain ⟨s, hs, hs0, hs1, hsnear⟩ := h.exists_value_saturation
  obtain ⟨t, ht, ht0, ht1, htnear⟩ := h.exists_value_hue
  refine ⟨⟨t, s, l, ⟨ht0, ht1⟩, ⟨hs0, hs1⟩, h.lightness_mem⟩, ?_, c.shows_of_parts fun p => ?_⟩
  · rw [c.toHsl_of_colored hcolored]
    exact ⟨ht, hs, h.lightness⟩
  · have hshare := share_mem p (6 * t)
    have hpos := sub_pos.2 h.low_lt_high
    have hshift : |(c.parts.high - c.parts.low) * (share p (6 * t) - share p c.parts.hue)| ≤
        10 * slip := by
      rw [abs_mul, abs_of_pos hpos] at htnear ⊢
      exact (mul_le_mul_of_nonneg_left (abs_share_sub_le p _ _) hpos.le).trans htnear
    have hmixed := abs_tint_sub_le hshare.1 hshare.2 h.lightness_near hsnear hshift
    rw [c.parts.mixed_eq h.low_lt_high] at hmixed
    have hslip := slip_pos
    exact hmixed.trans (by linarith)

/-- **The form of a color**: its values are in their ranges, and on the exact wheel they are the color
again. -/
theorem exists_form : ∃ f : Form, c.toHsl.Has f ∧ c.Shows f := by
  by_cases hgray : c.spread ≤ Hsl.grayTolerance
  · exact c.exists_form_of_gray hgray
  · exact c.exists_form_of_colored hgray

end Color

/-! ### Divisors -/

/-- The quotient, which there is not for a divisor of zero. -/
def Attempt.quotient (x y : Binary64) : Attempt Binary64 :=
  if y.sameAs 0 then .stopped else .answer (x / y)

theorem Attempt.quotient_of_ne {y : Binary64} {w : Rat} (hy : HasValue y w) (hw : w ≠ 0)
    (x : Binary64) : quotient x y = .answer (x / y) :=
  if_neg fun h => hw ((hy.sameAs_iff hasValue_zero).1 h)

namespace Color

open Attempt (quotient quotient_of_ne)

/-- The hue on the scale from zero to six, with divisions that may not be possible. -/
def dividedHue (r g b high d : Binary64) : Attempt Binary64 :=
  if high.sameAs r then do return (← quotient (g - b) d) + (if g < b then 6 else 0)
  else if high.sameAs g then do return (← quotient (b - r) d) + 2
  else do return (← quotient (r - g) d) + 4

def dividedSaturation (high low l d : Binary64) : Attempt Binary64 :=
  if 0.5 < l then quotient d (2 - high - low) else quotient d (high + low)

/-- A color as hue, saturation and lightness, with divisions that may not be possible. -/
def dividedHsl (c : Color) : Attempt Hsl := do
  let r ← quotient c.red.number 255
  let g ← quotient c.green.number 255
  let b ← quotient c.blue.number 255
  let high := (r.larger g).larger b
  let low := (r.smaller g).smaller b
  let l ← quotient (high + low) 2
  let d := high - low
  if d ≤ Hsl.grayTolerance then return ⟨0, 0, l⟩
  else
    let s ← dividedSaturation high low l d
    let h ← dividedHue r g b high d
    return ⟨← quotient h 6, s, l⟩

theorem dividedHue_eq {d : Binary64} {w : Rat} (hd : HasValue d w) (hw : w ≠ 0)
    (r g b high : Binary64) : dividedHue r g b high d = .answer (hueOf r g b high d) := by
  unfold dividedHue hueOf
  simp only [quotient_of_ne hd hw, Attempt.answer_bind, Attempt.pure_eq]
  split
  · rfl
  · split <;> rfl

theorem IsColored.dividedSaturation_eq {c : Color} {d l : Rat} (h : c.IsColored d l) :
    dividedSaturation c.highest c.lowest c.lightness c.spread = .answer (c.spread / c.breadth) := by
  obtain ⟨b, hb, hdb, -⟩ := h.exists_value_breadth
  rw [dividedSaturation, ← apply_ite (quotient c.spread)]
  exact quotient_of_ne hb (h.pos.trans_le hdb).ne' _

/-- **Every division can be done.** -/
theorem dividedHsl_eq (c : Color) : c.dividedHsl = .answer c.toHsl := by
  have hpart (p : Primary) : quotient (c.channel p).number 255 = .answer (c.part p) :=
    quotient_of_ne (hasValue_ofNat (n := 255) (by decide)) (by norm_num) _
  have hred : quotient c.red.number 255 = .answer (c.part .red) := hpart .red
  have hgreen : quotient c.green.number 255 = .answer (c.part .green) := hpart .green
  have hblue : quotient c.blue.number 255 = .answer (c.part .blue) := hpart .blue
  have htwo (x : Binary64) : quotient x 2 = .answer (x / 2) :=
    quotient_of_ne hasValue_two two_ne_zero x
  have hsix (x : Binary64) : quotient x 6 = .answer (x / 6) :=
    quotient_of_ne (hasValue_ofNat (n := 6) (by decide)) (by norm_num) x
  have hhigh : ((c.part .red).larger (c.part .green)).larger (c.part .blue) = c.highest := rfl
  have hlow : ((c.part .red).smaller (c.part .green)).smaller (c.part .blue) = c.lowest := rfl
  have hlightness : (c.highest + c.lowest) / 2 = c.lightness := rfl
  have hspread : c.highest - c.lowest = c.spread := rfl
  unfold dividedHsl
  simp only [hred, hgreen, hblue, htwo, hsix, hhigh, hlow, hlightness, hspread,
    Attempt.answer_bind, Attempt.pure_eq]
  split
  · rename_i hgray
    rw [c.toHsl_of_gray hgray]
  · rename_i hcolored
    obtain ⟨d, l, h⟩ := c.exists_isColored hcolored
    rw [h.dividedSaturation_eq, Attempt.answer_bind, dividedHue_eq h.spread h.pos.ne',
      Attempt.answer_bind, c.toHsl_of_colored hcolored, turn]

/-- A number from zero to one. -/
def IsShare (x : Binary64) : Prop := x ≠ nan ∧ 0 ≤ x ∧ x ≤ 1

theorem isShare_of_hasValue {x : Binary64} {v : Rat} (hx : HasValue x v) (h : 0 ≤ v ∧ v ≤ 1) :
    IsShare x :=
  ⟨hx.ne_nan, (hasValue_zero.le_iff hx).2 h.1, (hx.le_iff hasValue_one).2 h.2⟩

/-- **Every color has a hue, a saturation and a lightness**: no divisor on the way is zero, and the three
are numbers from zero to one. -/
theorem toHsl_total (c : Color) : c.dividedHsl = .answer c.toHsl ∧
    IsShare c.toHsl.hue ∧ IsShare c.toHsl.saturation ∧ IsShare c.toHsl.lightness := by
  obtain ⟨f, hf, -⟩ := c.exists_form
  exact ⟨c.dividedHsl_eq, isShare_of_hasValue hf.hue f.hue_mem,
    isShare_of_hasValue hf.saturation f.saturation_mem,
    isShare_of_hasValue hf.lightness f.lightness_mem⟩

end Color

end ColorTheme
