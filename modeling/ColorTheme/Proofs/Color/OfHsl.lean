import ColorTheme.Proofs.Color.ToHsl

/-!
# The color of a hue, a saturation and a lightness

Mixing a color takes a few roundings and a number of comparisons.  A comparison may come out on the
wrong side of a step of the wheel, but next to a step both sides give the same channel.  So the channels
are those of the exact wheel, to within a thousandth of a byte.
-/

namespace ColorTheme

open Binary64 Wheel

namespace Hsl

variable (x : Hsl)

theorem hue_normalized : x.normalized.hue = x.hue.fraction := by rw [normalized]

theorem saturation_normalized : x.normalized.saturation = x.saturation.clamp 0 1 := by
  rw [normalized]

theorem lightness_normalized : x.normalized.lightness = x.lightness.clamp 0 1 := by rw [normalized]

end Hsl

namespace Color

/-! ### Places on the wheel -/

theorem near_third : Near (1 / 3) (1 / 3) slip :=
  (hasValue_one.div (hasValue_ofNat (n := 3) (by decide)) (by norm_num)).near (by norm_num [abs_of_pos])

theorem near_sixth : Near (1 / 6) (1 / 6) slip :=
  (hasValue_one.div (hasValue_ofNat (n := 6) (by decide)) (by norm_num)).near (by norm_num [abs_of_pos])

theorem near_two_thirds : Near (2 / 3) (2 / 3) slip :=
  (hasValue_two.div (hasValue_ofNat (n := 3) (by decide)) (by norm_num)).near (by norm_num [abs_of_pos])

/-- A place on the wheel that may be a step before its beginning or two behind its end. -/
def wrapped (t : Binary64) : Binary64 := if t < 0 then t + 1 else if 1 < t then t - 1 else t

/-- The channel at a place on the wheel. -/
def rampAt (p q t : Binary64) : Binary64 :=
  if t < 1 / 6 then p + (q - p) * 6 * t
  else if t < 0.5 then q
  else if t < 2 / 3 then p + (q - p) * (2 / 3 - t) * 6
  else p

theorem channelOfHue_eq (p q t : Binary64) : channelOfHue p q t = rampAt p q (wrapped t) := rfl

theorem exists_value_wrapped {t : Binary64} {v : Rat} (ht : HasValue t v)
    (hlow : -1 / 3 - 2 * slip ≤ v) (hhigh : v ≤ 4 / 3 + 2 * slip) :
    ∃ u, HasValue (wrapped t) u ∧ 0 ≤ u ∧ u ≤ 1 ∧ |hump (6 * u) - wave (6 * v)| ≤ 18 * slip := by
  have hslip := slip_pos
  have hsmall := slip_le
  unfold wrapped
  by_cases hneg : v < 0
  · obtain ⟨u, hu, hu0, hu1, herror⟩ := (ht.add hasValue_one).near_between hasValue_zero hasValue_one
      (by linarith) (by linarith) (by rw [abs_of_nonneg] <;> linarith)
    refine ⟨u, by rwa [if_pos ((ht.lt_iff hasValue_zero).2 hneg)], hu0, hu1, ?_⟩
    -- Before the beginning, and at the end, the share is nothing.
    have hzero : wave (6 * v) = hump 4 := by
      rw [wave_of_le (by linarith), hump_gone (by linarith), hump_gone_again le_rfl]
    rw [hzero]
    rcases le_total 4 (6 * u) with h4 | h4
    · rw [hump_gone_again h4, hump_gone_again le_rfl, sub_self, abs_zero]
      linarith
    · refine (abs_hump_sub_le _ _).trans ?_
      rw [abs_le] at herror ⊢
      constructor <;> linarith
  · rw [if_neg (by rwa [ht.lt_iff hasValue_zero])]
    rw [not_lt] at hneg
    by_cases hlarge : 1 < v
    · obtain ⟨u, hu, hu0, hu1, herror⟩ := (ht.sub hasValue_one).near_between hasValue_zero
        hasValue_one (by linarith) (by linarith) (by rw [abs_of_nonneg] <;> linarith)
      refine ⟨u, by rwa [if_pos ((hasValue_one.lt_iff ht).2 hlarge)], hu0, hu1, ?_⟩
      have hround : wave (6 * v) = hump (6 * (v - 1)) := by
        rw [← wave_add_six (by linarith)]
        congr 1
        ring
      rw [hround]
      refine (abs_hump_sub_le _ _).trans ?_
      rw [abs_le] at herror ⊢
      constructor <;> linarith
    · rw [if_neg (by rwa [hasValue_one.lt_iff ht])]
      rw [not_lt] at hlarge
      refine ⟨v, ht, hneg, hlarge, ?_⟩
      rw [wave_of_le (by linarith), sub_self, abs_zero]
      linarith

/-! ### The steps of the wheel -/

section Steps

variable {u e : Rat}

theorem abs_hump_rising_le (h0 : 0 ≤ u) (h : u ≤ 1 + e) (he : 0 ≤ e) (he1 : e ≤ 1) :
    |u - hump u| ≤ e := by
  rcases le_total u 1 with h1 | h1
  · rwa [hump_rising h0 h1, sub_self, abs_zero]
  · rw [hump_full h1 (by linarith), abs_of_nonneg (by linarith)]
    linarith

theorem abs_hump_full_le (h1 : 1 - e ≤ u) (h3 : u ≤ 3) (he : 0 ≤ e) (he1 : e ≤ 1) :
    |1 - hump u| ≤ e := by
  rcases le_total u 1 with h | h
  · rw [hump_rising (by linarith) h, abs_of_nonneg (by linarith)]
    linarith
  · rwa [hump_full h h3, sub_self, abs_zero]

theorem abs_hump_falling_le (h3 : 3 ≤ u) (h : u ≤ 4 + e) (he : 0 ≤ e) : |4 - u - hump u| ≤ e := by
  rcases le_total u 4 with h4 | h4
  · rwa [hump_falling h3 h4, sub_self, abs_zero]
  · rw [hump_gone_again h4, sub_zero, abs_of_nonpos (by linarith)]
    linarith

theorem abs_hump_gone_le (h : 4 - e ≤ u) (he : 0 ≤ e) (he1 : e ≤ 1) : |0 - hump u| ≤ e := by
  rcases le_total u 4 with h4 | h4
  · rw [hump_falling (by linarith) h4, abs_le]
    constructor <;> linarith
  · rwa [hump_gone_again h4, sub_self, abs_zero]

end Steps

/-! ### Channels -/

section Ramp

variable {p q t : Binary64} {P Q u : Rat}

theorem abs_mix_sub_le {x y e : Rat} (hP : 0 ≤ P) (hPQ : P ≤ Q) (hQ : Q ≤ 1) (h : |x - y| ≤ e) :
    |P + (Q - P) * x - (P + (Q - P) * y)| ≤ e := by
  rw [add_sub_add_left_eq_sub, ← mul_sub, abs_mul, abs_of_nonneg (sub_nonneg.2 hPQ)]
  exact (mul_le_of_le_one_left (abs_nonneg _) (by linarith)).trans h

theorem near_rising (hp : Near p P (5 * slip)) (hspan : Near (q - p) (Q - P) (11 * slip))
    (hP : 0 ≤ P) (hPQ : P ≤ Q) (hQ : Q ≤ 1) (ht : HasValue t u) (h0 : 0 ≤ u) (h1 : u ≤ 1) :
    Near (p + (q - p) * 6 * t) (P + (Q - P) * (6 * u)) (74 * slip) := by
  have hslip := slip_pos
  have hsmall := slip_le
  have hsix : Near 6 6 0 := (hasValue_ofNat (n := 6) (by decide)).near
  have hrange : |Q - P| ≤ 1 := by
    rw [abs_of_nonneg] <;> linarith
  have hscaled := hspan.mul hsix (a := 5 / 4) (b := 6) (by linarith) (by norm_num [abs_of_pos])
    (by norm_num)
  have hscaled' : |(Q - P) * 6| ≤ 6 := by
    rw [abs_mul, abs_of_pos (by norm_num : (0 : Rat) < 6)]
    linarith
  have hgone := hscaled.mul ht.near (a := 7) (b := 1) (by linarith)
    (by rwa [abs_of_nonneg h0]) (by norm_num)
  have hgone' : |P + (Q - P) * 6 * u| ≤ 7 := by
    refine (abs_add_le _ _).trans ?_
    rw [abs_mul _ u, abs_of_nonneg h0, abs_of_nonneg hP]
    have hle := mul_le_of_le_one_right (abs_nonneg ((Q - P) * 6)) h1
    linarith
  rw [← mul_assoc]
  exact (hp.add hgone (by linarith)).mono (by linarith)

theorem near_falling (hp : Near p P (5 * slip)) (hspan : Near (q - p) (Q - P) (11 * slip))
    (hP : 0 ≤ P) (hPQ : P ≤ Q) (hQ : Q ≤ 1) (ht : HasValue t u) (h0 : 0 ≤ u) (h1 : u ≤ 1) :
    Near (p + (q - p) * (2 / 3 - t) * 6) (P + (Q - P) * (4 - 6 * u)) (103 * slip) := by
  have hslip := slip_pos
  have hsmall := slip_le
  have hsix : Near 6 6 0 := (hasValue_ofNat (n := 6) (by decide)).near
  have hrange : |Q - P| ≤ 1 := by
    rw [abs_of_nonneg] <;> linarith
  have hrest' : |2 / 3 - u| ≤ 1 := by
    rw [abs_le]
    constructor <;> linarith
  have hrest := near_two_thirds.sub ht.near (by linarith)
  have hleft := hspan.mul hrest (a := 2) (b := 1) (by linarith) hrest' (by linarith)
  have hleft' : |(Q - P) * (2 / 3 - u)| ≤ 1 := by
    rw [abs_mul]
    exact mul_le_one₀ hrange (abs_nonneg _) hrest'
  have hscaled := hleft.mul hsix (a := 5 / 4) (b := 6) (by linarith) (by norm_num [abs_of_pos])
    (by norm_num)
  have hscaled' : |P + (Q - P) * (2 / 3 - u) * 6| ≤ 7 := by
    refine (abs_add_le _ _).trans ?_
    rw [abs_mul _ 6, abs_of_pos (by norm_num : (0 : Rat) < 6), abs_of_nonneg hP]
    linarith
  have hsplit : P + (Q - P) * (4 - 6 * u) = P + (Q - P) * (2 / 3 - u) * 6 := by ring
  rw [hsplit]
  exact (hp.add hscaled (by linarith)).mono (by linarith)

/-- **A channel on the ramps of the wheel.**  The bounds of a channel are off by a few roundings, and
so are the steps of the wheel. -/
theorem near_rampAt (hp : Near p P (5 * slip)) (hq : Near q Q (5 * slip)) (hP : 0 ≤ P)
    (hPQ : P ≤ Q) (hQ : Q ≤ 1) (ht : HasValue t u) (h0 : 0 ≤ u) (h1 : u ≤ 1) :
    Near (rampAt p q t) (P + (Q - P) * hump (6 * u)) (109 * slip) := by
  have hslip := slip_pos
  have hsmall := slip_le
  have hrange : |Q - P| ≤ 1 := by
    rw [abs_of_nonneg] <;> linarith
  have hspan : Near (q - p) (Q - P) (11 * slip) := (hq.sub hp (by linarith)).mono (by linarith)
  obtain ⟨third, hthird, hthirds⟩ := near_two_thirds
  obtain ⟨sixth, hsixth, hsixths⟩ := near_sixth
  rw [abs_le] at hthirds hsixths
  unfold rampAt
  split_ifs with hrising hfull hfalling
  · rw [ht.lt_iff hsixth] at hrising
    have hedge := abs_mix_sub_le hP hPQ hQ (abs_hump_rising_le (u := 6 * u) (e := 6 * slip)
      (by linarith) (by linarith) (by linarith) (by linarith))
    exact ((near_rising hp hspan hP hPQ hQ ht h0 h1).of_abs_le hedge).mono (by linarith)
  · rw [ht.lt_iff hsixth, not_lt] at hrising
    rw [ht.lt_iff hasValue_half] at hfull
    have hedge := abs_mix_sub_le hP hPQ hQ (abs_hump_full_le (u := 6 * u) (e := 6 * slip)
      (by linarith) (by linarith) (by linarith) (by linarith))
    rw [mul_one, add_sub_cancel] at hedge
    exact (hq.of_abs_le hedge).mono (by linarith)
  · rw [ht.lt_iff hasValue_half, not_lt] at hfull
    rw [ht.lt_iff hthird] at hfalling
    have hedge := abs_mix_sub_le hP hPQ hQ (abs_hump_falling_le (u := 6 * u) (e := 6 * slip)
      (by linarith) (by linarith) (by linarith))
    exact ((near_falling hp hspan hP hPQ hQ ht h0 h1).of_abs_le hedge).mono (by linarith)
  · rw [ht.lt_iff hthird, not_lt] at hfalling
    have hedge := abs_mix_sub_le hP hPQ hQ (abs_hump_gone_le (u := 6 * u) (e := 6 * slip)
      (by linarith) (by linarith) (by linarith))
    rw [mul_zero, add_zero] at hedge
    exact (hp.of_abs_le hedge).mono (by linarith)

/-- Where a primary looks on the wheel. -/
def turned (h : Binary64) : Primary → Binary64
  | .red => h + 1 / 3
  | .green => h
  | .blue => h - 1 / 3

theorem near_turned {h : Binary64} {v : Rat} (hh : HasValue h v) (h0 : 0 ≤ v) (h1 : v ≤ 1)
    (p : Primary) : Near (turned h p) (v + lead p / 6) (2 * slip) := by
  have hslip := slip_pos
  have hsmall := slip_le
  cases p with
  | red =>
    have hthird : lead .red / 6 = 1 / 3 := by norm_num [lead]
    rw [hthird]
    exact (hh.near.add near_third (by rw [abs_of_nonneg] <;> linarith)).mono (by linarith)
  | green =>
    have hnone : v + lead .green / 6 = v := by rw [lead, zero_div, add_zero]
    rw [hnone]
    exact hh.near.mono (by linarith)
  | blue =>
    have hthird : v + lead .blue / 6 = v - 1 / 3 := by norm_num [lead, sub_eq_add_neg]
    rw [hthird]
    refine (hh.near.sub near_third ?_).mono (by linarith)
    have hbound : |v - 1 / 3| ≤ 1 := by
      rw [abs_le]
      constructor <;> linarith
    linarith

/-- **A channel of a hue** is that of the exact wheel, off by its roundings. -/
theorem near_channelOfHue (hp : Near p P (5 * slip)) (hq : Near q Q (5 * slip)) (hP : 0 ≤ P)
    (hPQ : P ≤ Q) (hQ : Q ≤ 1) {h : Binary64} {v : Rat} (hh : HasValue h v) (h0 : 0 ≤ v)
    (h1 : v ≤ 1) (primary : Primary) :
    Near (channelOfHue p q (turned h primary)) (P + (Q - P) * share primary (6 * v))
      (139 * slip) := by
  obtain ⟨w, hw, herror⟩ := near_turned hh h0 h1 primary
  have hlead : -1 / 3 ≤ lead primary / 6 ∧ lead primary / 6 ≤ 1 / 3 := by
    cases primary <;> norm_num [lead]
  have herror' := abs_le.1 herror
  obtain ⟨u, hu, hu0, hu1, hwrapped⟩ := exists_value_wrapped hw (by linarith) (by linarith)
  have hshare : |hump (6 * u) - share primary (6 * v)| ≤ 30 * slip := by
    have hwave := abs_wave_sub_le (6 * w) (6 * v + lead primary)
    have hscaled : |6 * w - (6 * v + lead primary)| ≤ 12 * slip := by
      rw [abs_le]
      constructor <;> linarith
    have htriangle := abs_sub_le (hump (6 * u)) (wave (6 * w)) (share primary (6 * v))
    rw [share] at htriangle ⊢
    linarith
  rw [channelOfHue_eq]
  exact ((near_rampAt hp hq hP hPQ hQ hu hu0 hu1).of_abs_le
    (abs_mix_sub_le hP hPQ hQ hshare)).mono (by linarith)

end Ramp

/-! ### Bounds of the channels -/

/-- The upper bound of the channels of a color that is not gray. -/
def upperBound (s l : Binary64) : Binary64 := if l < 0.5 then l * (1 + s) else l + s - l * s

/-- The lower one, as far from the lightness. -/
def lowerBound (s l : Binary64) : Binary64 := 2 * l - upperBound s l

section Bounds

variable {s l : Binary64} {σ μ : Rat}

theorem width_mem (hσ : 0 ≤ σ ∧ σ ≤ 1) (hμ : 0 ≤ μ ∧ μ ≤ 1) :
    0 ≤ σ * min μ (1 - μ) ∧ σ * min μ (1 - μ) ≤ μ ∧ σ * min μ (1 - μ) ≤ 1 - μ := by
  have h0 : 0 ≤ min μ (1 - μ) := le_min hμ.1 (by linarith)
  have hle := mul_le_of_le_one_left h0 hσ.2
  exact ⟨mul_nonneg hσ.1 h0, hle.trans (min_le_left _ _), hle.trans (min_le_right _ _)⟩

theorem near_upperBound (hs : HasValue s σ) (hl : HasValue l μ) (hσ : 0 ≤ σ ∧ σ ≤ 1)
    (hμ : 0 ≤ μ ∧ μ ≤ 1) : Near (upperBound s l) (μ + σ * min μ (1 - μ)) (3 * slip) := by
  have hslip := slip_pos
  have hsmall := slip_le
  have hμ' : |μ| ≤ 1 := by rw [abs_of_nonneg hμ.1]; exact hμ.2
  have hσ' : |σ| ≤ 1 := by rw [abs_of_nonneg hσ.1]; exact hσ.2
  unfold upperBound
  split
  · rename_i hdark
    rw [hl.lt_iff hasValue_half] at hdark
    have hgrown : |1 + σ| ≤ 2 := by rw [abs_of_nonneg] <;> linarith
    have hfactor := hasValue_one.near.add hs.near (by linarith)
    have hsplit : μ + σ * min μ (1 - μ) = μ * (1 + σ) := by
      rw [min_eq_left (by linarith)]
      ring
    rw [hsplit]
    exact (hl.near.mul hfactor (a := 1) (by linarith) hgrown (by linarith)).mono (by linarith)
  · rename_i hlight
    rw [hl.lt_iff hasValue_half, not_lt] at hlight
    have hsum : |μ + σ| ≤ 2 := by rw [abs_of_nonneg] <;> linarith
    have hproduct := hl.near.mul hs.near (a := 1) (b := 1) (by linarith) hσ' (by norm_num)
    have hboth : |μ * σ| ≤ 1 := by
      rw [abs_mul]
      exact mul_le_one₀ hμ' (abs_nonneg _) hσ'
    have hdifference : |μ + σ - μ * σ| ≤ 3 := (abs_sub _ _).trans (by linarith)
    have hsplit : μ + σ * min μ (1 - μ) = μ + σ - μ * σ := by
      rw [min_eq_right (by linarith)]
      ring
    rw [hsplit]
    exact ((hl.near.add hs.near (by linarith)).sub hproduct (by linarith)).mono (by linarith)

theorem near_lowerBound (hs : HasValue s σ) (hl : HasValue l μ) (hσ : 0 ≤ σ ∧ σ ≤ 1)
    (hμ : 0 ≤ μ ∧ μ ≤ 1) : Near (lowerBound s l) (μ - σ * min μ (1 - μ)) (5 * slip) := by
  have hslip := slip_pos
  have hsmall := slip_le
  have htwice := hasValue_two.near.mul hl.near (a := 2) (b := 1) (by norm_num)
    (by rw [abs_of_nonneg hμ.1]; exact hμ.2) (by norm_num)
  have hwidth := width_mem hσ hμ
  have hbound : |2 * μ - (μ + σ * min μ (1 - μ))| ≤ 1 := by
    rw [abs_le]
    constructor <;> linarith
  have hsplit : μ - σ * min μ (1 - μ) = 2 * μ - (μ + σ * min μ (1 - μ)) := by ring
  rw [hsplit]
  exact (htwice.sub (near_upperBound hs hl hσ hμ) (by linarith)).mono (by linarith)

end Bounds

/-! ### The whole color -/

theorem near_ofNumber {x : Binary64} {v : Rat} (h : Near x v (139 * slip)) (h0 : 0 ≤ v)
    (h1 : v ≤ 1) : Near (Channel.ofNumber (x * 255)).number (255 * v) (1 / 1000) := by
  have hsmall := slip_le
  have hfull : HasValue 255 255 := hasValue_ofNat (n := 255) (by decide)
  obtain ⟨u, hu, herror⟩ := h
  have hbounds := abs_le.1 herror
  have hscaled : |u * 255| ≤ (256 : Nat) := by
    push_cast
    rw [abs_le]
    constructor <;> linarith
  obtain ⟨w, hw, -, herror'⟩ := (hu.mul hfull).exists_value_of_abs_le (by decide) (by decide) hscaled
  push_cast at herror'
  refine ⟨max 0 (min 255 w), ?_, ?_⟩
  · rw [Channel.ofNumber, Amount.number_clamp Channel.off hw.ne_nan]
    exact hw.clamp hasValue_zero hfull (by norm_num)
  · -- The exact channel is in the range, so that the clamped number is no farther from it.
    have hinside : max 0 (min 255 (255 * v)) = 255 * v := by
      rw [min_eq_right (by linarith), max_eq_right (by linarith)]
    have hclamped := abs_clamp_sub_le 255 w (255 * v)
    rw [hinside] at hclamped
    refine hclamped.trans ?_
    rw [abs_le] at herror' ⊢
    constructor <;> linarith

theorem channel_ofNumbers (r g b a : Binary64) (p : Primary) :
    (ofNumbers r g b a).channel p = .ofNumber (match p with | .red => r | .green => g | .blue => b) := by
  rw [ofNumbers]
  cases p <;> rw [channel]

theorem channel_ofHsl_of_gray {x : Hsl} (h : x.normalized.saturation ≤ 0) (a : Binary64)
    (p : Primary) : (ofHsl x a).channel p = .ofNumber (x.normalized.lightness * 255) := by
  unfold ofHsl
  simp only [if_pos h]
  rw [channel_ofNumbers]
  cases p <;> rfl

theorem channel_ofHsl_of_colored {x : Hsl} (h : ¬ x.normalized.saturation ≤ 0) (a : Binary64)
    (p : Primary) : (ofHsl x a).channel p = .ofNumber (channelOfHue
      (lowerBound x.normalized.saturation x.normalized.lightness)
      (upperBound x.normalized.saturation x.normalized.lightness)
      (turned x.normalized.hue p) * 255) := by
  unfold ofHsl
  simp only [if_neg h]
  rw [channel_ofNumbers]
  cases p <;> rfl

/-- Brought back to its circle, a hue from zero to one has the same shares. -/
theorem exists_value_hue_normalized {x : Hsl} {v : Rat} (h : HasValue x.hue v) (h0 : 0 ≤ v)
    (h1 : v ≤ 1) : ∃ u, HasValue x.normalized.hue u ∧ 0 ≤ u ∧ u ≤ 1 ∧
      ∀ p, share p (6 * u) = share p (6 * v) := by
  have hfraction := h.fraction h0 h1
  rw [← x.hue_normalized] at hfraction
  by_cases hone : v = 1
  · rw [if_pos hone] at hfraction
    exact ⟨0, hfraction, le_rfl, zero_le_one, fun p => by rw [hone, mul_one, mul_zero, share_six]⟩
  · rw [if_neg hone] at hfraction
    exact ⟨v, hfraction, h0, h1, fun p => rfl⟩

/-- **The color of a form** shows it. -/
theorem shows_ofHsl {x : Hsl} {f : Form} {s l : Rat} (hhue : HasValue x.hue f.hue)
    (hs : HasValue x.saturation s) (hl : HasValue x.lightness l) (hfs : Wheel.unit s = f.saturation)
    (hfl : Wheel.unit l = f.lightness) (a : Binary64) : (ofHsl x a).Shows f := by
  intro p
  have hslip := slip_pos
  have hpart := f.part_mem p
  have hsaturation : HasValue x.normalized.saturation f.saturation := by
    rw [x.saturation_normalized, ← hfs]
    exact hs.clamp hasValue_zero hasValue_one zero_le_one
  have hlightness : HasValue x.normalized.lightness f.lightness := by
    rw [x.lightness_normalized, ← hfl]
    exact hl.clamp hasValue_zero hasValue_one zero_le_one
  by_cases hgray : x.normalized.saturation ≤ 0
  · rw [channel_ofHsl_of_gray hgray]
    rw [hsaturation.le_iff hasValue_zero] at hgray
    have hnone : f.part p = f.lightness := by
      rw [Form.part, hgray.antisymm f.saturation_mem.1, tint_gray]
    rw [hnone]
    exact near_ofNumber (hlightness.near.mono (by linarith)) f.lightness_mem.1 f.lightness_mem.2
  · rw [channel_ofHsl_of_colored hgray]
    refine near_ofNumber ?_ hpart.1 hpart.2
    obtain ⟨u, hu, hu0, hu1, hshare⟩ :=
      exists_value_hue_normalized hhue f.hue_mem.1 f.hue_mem.2
    have hlower := near_lowerBound hsaturation hlightness f.saturation_mem f.lightness_mem
    have hupper := near_upperBound hsaturation hlightness f.saturation_mem f.lightness_mem
    have hwidth := width_mem f.saturation_mem f.lightness_mem
    rw [Form.part, tint_eq_mix, ← hshare]
    exact near_channelOfHue hlower (hupper.mono (by linarith)) (by linarith) (by linarith)
      (by linarith) hu hu0 hu1 p

end Color

end ColorTheme
