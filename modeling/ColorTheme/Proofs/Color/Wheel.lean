import ColorTheme.Color.Basic
import Mathlib.Algebra.Order.Group.MinMax
import Mathlib.Algebra.Order.Ring.Abs
import Mathlib.Algebra.Order.Ring.Unbundled.Rat
import Mathlib.Tactic.FieldSimp
import Mathlib.Tactic.Linarith
import Mathlib.Tactic.Ring

/-!
# The wheel of hues

The exact conversion between channels and HSL, on rational numbers.  A hue goes round in six steps,
from red over green and blue to red again; each primary is full in the two steps on either side of its
own place, is gone in the two opposite ones, and grows or falls evenly in between.  With the hue and the
saturation kept, every channel grows with the lightness, and except near to black and near to white it
grows at a rate that rounding cannot hide.
-/

namespace ColorTheme

/-- The lights that a color is mixed of. -/
inductive Primary where
  | red | green | blue
  deriving DecidableEq

def Color.channel (c : Color) : Primary → Channel
  | .red => c.red
  | .green => c.green
  | .blue => c.blue

namespace Wheel

/-! ### Shares of a hue -/

/-- The number moved into the range from zero to one. -/
def unit (x : Rat) : Rat := max 0 (min 1 x)

theorem unit_mem (x : Rat) : 0 ≤ unit x ∧ unit x ≤ 1 :=
  ⟨le_max_left _ _, max_le zero_le_one (min_le_left _ _)⟩

theorem unit_of_mem {x : Rat} (h0 : 0 ≤ x) (h1 : x ≤ 1) : unit x = x := by
  rw [unit, min_eq_right h1, max_eq_right h0]

theorem unit_of_nonpos {x : Rat} (h : x ≤ 0) : unit x = 0 :=
  max_eq_left ((min_le_right _ _).trans h)

theorem unit_of_one_le {x : Rat} (h : 1 ≤ x) : unit x = 1 := by
  rw [unit, min_eq_left h, max_eq_right zero_le_one]

theorem abs_clamp_sub_le (b x y : Rat) : |max 0 (min b x) - max 0 (min b y)| ≤ |x - y| := by
  rw [max_comm 0, max_comm 0]
  refine (abs_max_sub_max_le_abs _ _ _).trans ((abs_min_sub_min_le_max b x b y).trans ?_)
  rw [sub_self, abs_zero]
  exact max_le (abs_nonneg _) le_rfl

theorem abs_unit_sub_le (x y : Rat) : |unit x - unit y| ≤ |x - y| := abs_clamp_sub_le 1 x y

/-- The share of a primary in the steps around its place, which is at two. -/
def hump (u : Rat) : Rat := unit (2 - |u - 2|)

theorem hump_of_le {u : Rat} (h : u ≤ 2) : hump u = unit u := by
  rw [hump, abs_of_nonpos (by linarith)]
  congr 1
  ring

theorem hump_of_ge {u : Rat} (h : 2 ≤ u) : hump u = unit (4 - u) := by
  rw [hump, abs_of_nonneg (by linarith)]
  congr 1
  ring

theorem abs_hump_sub_le (u v : Rat) : |hump u - hump v| ≤ |u - v| := by
  refine (abs_unit_sub_le _ _).trans ?_
  rw [sub_sub_sub_cancel_left, abs_sub_comm]
  exact (abs_abs_sub_abs_le _ _).trans (le_of_eq (by rw [sub_sub_sub_cancel_right]))

/-- The share of a primary up to one step before the circle begins and two behind its end. -/
def wave (u : Rat) : Rat := max (hump u) (hump (u - 6))

theorem wave_mem (u : Rat) : 0 ≤ wave u ∧ wave u ≤ 1 :=
  ⟨(unit_mem _).1.trans (le_max_left _ _), max_le (unit_mem _).2 (unit_mem _).2⟩

theorem wave_of_le {u : Rat} (h : u ≤ 6) : wave u = hump u := by
  have hzero : hump (u - 6) = 0 := by
    rw [hump_of_le (by linarith), unit_of_nonpos (by linarith)]
  rw [wave, hzero]
  exact max_eq_left (unit_mem _).1

theorem wave_add_six {u : Rat} (h : 0 ≤ u) : wave (u + 6) = hump u := by
  have hzero : hump (u + 6) = 0 := by
    rw [hump_of_ge (by linarith), unit_of_nonpos (by linarith)]
  rw [wave, hzero, add_sub_cancel_right]
  exact max_eq_right (unit_mem _).1

/-! The steps of the wave. -/

theorem hump_gone {u : Rat} (h : u ≤ 0) : hump u = 0 := by
  rw [hump_of_le (by linarith), unit_of_nonpos h]

theorem hump_rising {u : Rat} (h0 : 0 ≤ u) (h1 : u ≤ 1) : hump u = u := by
  rw [hump_of_le (by linarith), unit_of_mem h0 h1]

theorem hump_full {u : Rat} (h1 : 1 ≤ u) (h3 : u ≤ 3) : hump u = 1 := by
  rcases le_total u 2 with h | h
  · rw [hump_of_le h, unit_of_one_le h1]
  · rw [hump_of_ge h, unit_of_one_le (by linarith)]

theorem hump_falling {u : Rat} (h3 : 3 ≤ u) (h4 : u ≤ 4) : hump u = 4 - u := by
  rw [hump_of_ge (by linarith), unit_of_mem (by linarith) (by linarith)]

theorem hump_gone_again {u : Rat} (h : 4 ≤ u) : hump u = 0 := by
  rw [hump_of_ge (by linarith), unit_of_nonpos (by linarith)]

theorem abs_wave_sub_le (u v : Rat) : |wave u - wave v| ≤ |u - v| := by
  refine (abs_max_sub_max_le_max _ _ _ _).trans (max_le (abs_hump_sub_le _ _) ?_)
  simpa only [sub_sub_sub_cancel_right] using abs_hump_sub_le (u - 6) (v - 6)

/-- How far a primary is ahead of green. -/
def lead : Primary → Rat
  | .red => 2
  | .green => 0
  | .blue => -2

/-- The share of a primary in a hue. -/
def share (p : Primary) (h : Rat) : Rat := wave (h + lead p)

theorem share_mem (p : Primary) (h : Rat) : 0 ≤ share p h ∧ share p h ≤ 1 := wave_mem _

theorem abs_share_sub_le (p : Primary) (h h' : Rat) : |share p h - share p h'| ≤ |h - h'| := by
  have hwave := abs_wave_sub_le (h + lead p) (h' + lead p)
  rwa [add_sub_add_right_eq_sub] at hwave

theorem share_six (p : Primary) : share p 6 = share p 0 := by
  cases p <;> norm_num [share, lead, wave, hump, unit]

/-- The primary that the wheel comes to next. -/
def next : Primary → Primary
  | .red => .green
  | .green => .blue
  | .blue => .red

theorem eq_or_next (p q : Primary) : q = p ∨ q = next p ∨ q = next (next p) := by
  cases p <;> cases q <;> decide

def place : Primary → Rat
  | .red => 0
  | .green => 2
  | .blue => 4

/-- A hue that is `x` behind the place of a primary, or before it. -/
structure IsAt (h : Rat) (p : Primary) (x : Rat) : Prop where
  low : -1 ≤ x
  high : x ≤ 1
  /-- Before the place of red the wheel is at its end. -/
  eq : h = x + place p ∧ (p = .red → 0 ≤ x) ∨ h = x + 6 ∧ p = .red ∧ x ≤ 0

section IsAt

variable {h x : Rat} {p : Primary}

theorem IsAt.share_self (hx : IsAt h p x) : share p h = 1 := by
  obtain ⟨hlow, hhigh, ⟨rfl, -⟩ | ⟨rfl, rfl, -⟩⟩ := hx
  · have hlead : x + place p + lead p = x + 2 := by
      cases p <;> norm_num [place, lead, add_assoc]
    rw [share, hlead, wave_of_le (by linarith), hump_full (by linarith) (by linarith)]
  · have hlead : x + 6 + lead .red = x + 2 + 6 := by
      rw [lead]
      ring
    rw [share, hlead, wave_add_six (by linarith), hump_full (by linarith) (by linarith)]

/-- The next primary grows behind the place. -/
theorem IsAt.share_next (hx : IsAt h p x) : share (next p) h = max x 0 := by
  obtain ⟨hlow, hhigh, ⟨rfl, hred⟩ | ⟨rfl, rfl, hx0⟩⟩ := hx
  · have hstep : wave x = max x 0 ∧ wave (x + 6) = max x 0 := by
      rcases le_total 0 x with h0 | h0
      · rw [wave_of_le (by linarith), wave_add_six h0, hump_rising h0 hhigh, max_eq_left h0]
        exact ⟨rfl, rfl⟩
      · rw [wave_of_le (by linarith), wave_of_le (by linarith), hump_gone h0,
          hump_gone_again (by linarith), max_eq_right h0]
        exact ⟨rfl, rfl⟩
    cases p with
    | red => simpa [share, next, place, lead] using hstep.1
    | green => simpa [share, next, place, lead] using hstep.1
    | blue =>
      have hlead : x + place .blue + lead .red = x + 6 := by
        rw [place, lead]
        ring
      rw [share, next, hlead, hstep.2]
  · rw [share, next, lead, add_zero, wave_of_le (by linarith), hump_gone_again (by linarith),
      max_eq_right hx0]

/-- The one before it falls up to the place. -/
theorem IsAt.share_next_next (hx : IsAt h p x) : share (next (next p)) h = max (-x) 0 := by
  have hstep (hlow : -1 ≤ x) (hhigh : x ≤ 1) : wave (x + 4) = max (-x) 0 := by
    rw [wave_of_le (by linarith)]
    rcases le_total 0 x with h0 | h0
    · rw [hump_gone_again (by linarith), max_eq_right (by linarith)]
    · rw [hump_falling (by linarith) (by linarith), max_eq_left (by linarith)]
      ring
  obtain ⟨hlow, hhigh, ⟨rfl, hred⟩ | ⟨rfl, rfl, hx0⟩⟩ := hx
  · cases p with
    | red =>
      have h0 := hred rfl
      rw [share, next, next, place, lead, wave_of_le (by linarith), hump_gone (by linarith),
        max_eq_right (by linarith)]
    | green =>
      have hlead : x + place .green + lead .red = x + 4 := by
        rw [place, lead]
        ring
      rw [share, next, next, hlead, hstep hlow hhigh]
    | blue => rw [share, next, next, place, lead, add_zero, hstep hlow hhigh]
  · have hlead : x + 6 + lead .blue = x + 4 := by
      rw [lead]
      ring
    rw [share, next, next, hlead, hstep hlow hhigh]

end IsAt

/-! ### The hue of a color -/

structure Parts where
  red : Rat
  green : Rat
  blue : Rat

namespace Parts

variable (c : Parts)

def get : Primary → Rat
  | .red => c.red
  | .green => c.green
  | .blue => c.blue

def high : Rat := max (max c.red c.green) c.blue

def low : Rat := min (min c.red c.green) c.blue

/-- The hue, from zero to six, of parts that are not all equal. -/
def hue : Rat :=
  if c.high = c.red then
    (c.green - c.blue) / (c.high - c.low) + if c.green < c.blue then 6 else 0
  else if c.high = c.green then (c.blue - c.red) / (c.high - c.low) + 2
  else (c.red - c.green) / (c.high - c.low) + 4

theorem low_le_get (p : Primary) : c.low ≤ c.get p := by
  cases p with
  | red => exact (min_le_left _ _).trans (min_le_left _ _)
  | green => exact (min_le_left _ _).trans (min_le_right _ _)
  | blue => exact min_le_right _ _

theorem get_le_high (p : Primary) : c.get p ≤ c.high := by
  cases p with
  | red => exact (le_max_left _ _).trans (le_max_left _ _)
  | green => exact (le_max_right _ _).trans (le_max_left _ _)
  | blue => exact le_max_right _ _

/-- The hue is counted from the place of the greatest part, by the difference of the other two. -/
theorem exists_first (hpos : c.low < c.high) : ∃ p, c.get p = c.high ∧
    IsAt c.hue p ((c.get (next p) - c.get (next (next p))) / (c.high - c.low)) := by
  have hd : 0 < c.high - c.low := sub_pos.2 hpos
  have hrange (p q : Primary) : -1 ≤ (c.get p - c.get q) / (c.high - c.low) ∧
      (c.get p - c.get q) / (c.high - c.low) ≤ 1 := by
    have hp := c.get_le_high p
    have hp' := c.low_le_get p
    have hq := c.get_le_high q
    have hq' := c.low_le_get q
    rw [le_div_iff₀ hd, div_le_iff₀ hd]
    constructor <;> linarith
  by_cases hred : c.high = c.red
  · refine ⟨.red, hred.symm, (hrange _ _).1, (hrange _ _).2, ?_⟩
    rw [hue, if_pos hred]
    by_cases hlt : c.green < c.blue
    · exact .inr ⟨by rw [if_pos hlt]; rfl, rfl, div_nonpos_of_nonpos_of_nonneg (sub_nonpos.2 hlt.le) hd.le⟩
    · exact .inl ⟨by rw [if_neg hlt]; rfl, fun _ => div_nonneg (sub_nonneg.2 (not_lt.1 hlt)) hd.le⟩
  · by_cases hgreen : c.high = c.green
    · refine ⟨.green, hgreen.symm, (hrange _ _).1, (hrange _ _).2, .inl ⟨?_, nofun⟩⟩
      rw [hue, if_neg hred, if_pos hgreen]
      rfl
    · refine ⟨.blue, ?_, (hrange _ _).1, (hrange _ _).2, .inl ⟨?_, nofun⟩⟩
      · rcases max_choice (max c.red c.green) c.blue with h | h
        · rcases max_choice c.red c.green with h' | h'
          · exact absurd (h.trans h') hred
          · exact absurd (h.trans h') hgreen
        · exact h.symm
      · rw [hue, if_neg hred, if_neg hgreen]
        rfl

theorem low_eq_min {p : Primary} (hp : c.get p = c.high) :
    c.low = min (c.get (next p)) (c.get (next (next p))) := by
  refine le_antisymm (le_min (c.low_le_get _) (c.low_le_get _)) ?_
  have h := c.get_le_high (next p)
  rw [← hp] at h
  have hall (q : Primary) : min (c.get (next p)) (c.get (next (next p))) ≤ c.get q := by
    rcases eq_or_next p q with rfl | rfl | rfl
    · exact (min_le_left _ _).trans h
    · exact min_le_left _ _
    · exact min_le_right _ _
  exact le_min (le_min (hall .red) (hall .green)) (hall .blue)

/-- **A color is mixed of the shares of its hue.** -/
theorem mixed_eq (hpos : c.low < c.high) (q : Primary) :
    c.low + (c.high - c.low) * share q c.hue = c.get q := by
  have hd : 0 < c.high - c.low := sub_pos.2 hpos
  obtain ⟨p, hp, hat⟩ := c.exists_first hpos
  have hmul (x : Rat) : (c.high - c.low) * max (x / (c.high - c.low)) 0 = max x 0 := by
    rw [mul_max_of_nonneg _ _ hd.le, mul_div_cancel₀ _ hd.ne', mul_zero]
  rcases eq_or_next p q with rfl | rfl | rfl
  · rw [hat.share_self, hp]
    ring
  · rw [hat.share_next, hmul, c.low_eq_min hp]
    rcases le_total (c.get (next p)) (c.get (next (next p))) with h | h
    · rw [min_eq_left h, max_eq_right (sub_nonpos.2 h), add_zero]
    · rw [min_eq_right h, max_eq_left (sub_nonneg.2 h), add_sub_cancel]
  · rw [hat.share_next_next, ← neg_div, hmul, c.low_eq_min hp, neg_sub]
    rcases le_total (c.get (next p)) (c.get (next (next p))) with h | h
    · rw [min_eq_left h, max_eq_left (sub_nonneg.2 h), add_sub_cancel]
    · rw [min_eq_right h, max_eq_right (sub_nonpos.2 h), add_zero]

end Parts

/-! ### Lightness -/

/-- The lightness `l`, moved toward the nearer end or away from it by the part `w` of the way to that
end. -/
def level (w l : Rat) : Rat := l + w * min l (1 - l)

/-- A channel on the scale from zero to one, from the saturation, the lightness and the share that its
primary has in the hue. -/
def tint (s l k : Rat) : Rat := level (s * (2 * k - 1)) l

section Level

variable {w l l' : Rat}

theorem level_of_le (h : l ≤ 1 / 2) : level w l = (1 + w) * l := by
  rw [level, min_eq_left (by linarith)]
  ring

theorem level_of_ge (h : 1 / 2 ≤ l) : level w l = 1 - (1 - w) * (1 - l) := by
  rw [level, min_eq_right (by linarith)]
  ring

theorem level_mem (hw : |w| ≤ 1) (h0 : 0 ≤ l) (h1 : l ≤ 1) : 0 ≤ level w l ∧ level w l ≤ 1 := by
  obtain ⟨hlow, hhigh⟩ := abs_le.1 hw
  rcases le_total l (1 / 2) with h | h
  · rw [level_of_le h]
    constructor <;> nlinarith
  · rw [level_of_ge h]
    constructor <;> nlinarith

/-- **A channel grows at a rate** that is no less than its distance from both ends of its range. -/
theorem level_add_le {m : Rat} (hw : |w| ≤ 1) (hl : l ≤ l') (hlow : m ≤ level w l)
    (hhigh : level w l' ≤ 1 - m) :
    level w l + 2 * m * (l' - l) ≤ level w l' := by
  obtain ⟨hw0, hw1⟩ := abs_le.1 hw
  -- The rate is `1 + w` in the lower half of the lightnesses and `1 - w` in the upper one.
  have hlower (h : l ≤ 1 / 2) : 2 * m ≤ 1 + w := by
    rw [level_of_le h] at hlow
    nlinarith
  have hupper (h : 1 / 2 ≤ l') : 2 * m ≤ 1 - w := by
    rw [level_of_ge h] at hhigh
    nlinarith
  rcases le_total l' (1 / 2) with h' | h'
  · have h := hl.trans h'
    rw [level_of_le h, level_of_le h']
    nlinarith [hlower h]
  · rcases le_total l (1 / 2) with h | h
    · rw [level_of_le h, level_of_ge h']
      nlinarith [hlower h, hupper h']
    · rw [level_of_ge h, level_of_ge h']
      nlinarith [hupper h']

end Level

section Tint

variable {s l k : Rat}

theorem abs_weight_le (hs0 : 0 ≤ s) (hs1 : s ≤ 1) (hk0 : 0 ≤ k) (hk1 : k ≤ 1) :
    |s * (2 * k - 1)| ≤ 1 := by
  rw [abs_mul, abs_of_nonneg hs0]
  refine mul_le_one₀ hs1 (abs_nonneg _) ?_
  rw [abs_le]
  constructor <;> linarith

/-- A channel is on the way between two bounds as far as the share of its primary goes. -/
theorem tint_eq_mix : tint s l k = l - s * min l (1 - l) +
    (l + s * min l (1 - l) - (l - s * min l (1 - l))) * k := by
  rw [tint, level]
  ring

theorem tint_gray : tint 0 l k = l := by
  rw [tint, level, zero_mul, zero_mul, add_zero]

theorem tint_black : tint s 0 k = 0 := by
  rw [tint, level_of_le (by norm_num), mul_zero]

theorem tint_white : tint s 1 k = 1 := by
  rw [tint, level_of_ge (by norm_num), sub_self, mul_zero, sub_zero]

/-- What a channel is off by if the lightness, the saturation and the share are not quite those of a
color between `low` and `low + d`. -/
theorem abs_tint_sub_le {low d k' e₁ e₂ e₃ : Rat} (hk0 : 0 ≤ k) (hk1 : k ≤ 1)
    (hl : |l - (low + d / 2)| ≤ e₁) (hs : |s * min l (1 - l) - d / 2| ≤ e₂)
    (hk : |d * (k - k')| ≤ e₃) : |tint s l k - (low + d * k')| ≤ e₁ + e₂ + e₃ := by
  have hsplit : tint s l k - (low + d * k') =
      (l - (low + d / 2)) + (s * min l (1 - l) - d / 2) * (2 * k - 1) + d * (k - k') := by
    rw [tint, level]
    ring
  have hweight : |(s * min l (1 - l) - d / 2) * (2 * k - 1)| ≤ e₂ := by
    rw [abs_mul]
    refine (mul_le_of_le_one_right (abs_nonneg _) ?_).trans hs
    rw [abs_le]
    constructor <;> linarith
  rw [hsplit]
  exact (abs_add_three _ _ _).trans (add_le_add (add_le_add hl hweight) hk)

end Tint

/-- A hue, a saturation and a lightness in their ranges. -/
structure Form where
  hue : Rat
  saturation : Rat
  lightness : Rat
  hue_mem : 0 ≤ hue ∧ hue ≤ 1
  saturation_mem : 0 ≤ saturation ∧ saturation ≤ 1
  lightness_mem : 0 ≤ lightness ∧ lightness ≤ 1

namespace Form

variable (f : Form)

def part (p : Primary) : Rat := tint f.saturation f.lightness (share p (6 * f.hue))

theorem part_mem (p : Primary) : 0 ≤ f.part p ∧ f.part p ≤ 1 := by
  have hshare := share_mem p (6 * f.hue)
  exact level_mem (abs_weight_le f.saturation_mem.1 f.saturation_mem.2 hshare.1 hshare.2)
    f.lightness_mem.1 f.lightness_mem.2

end Form

end Wheel

end ColorTheme
