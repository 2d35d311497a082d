import ColorTheme.Proofs.Color.Hexadecimal
import ColorTheme.Proofs.Number.Arithmetic
import Mathlib.Tactic.NormNum

/-!
# Alphas

An alpha is read back from its byte, and rounded to hundredths it is an alpha again.  Both rest on the
error of rounding: it is far too small to move a number from the neighbourhood of one whole number to
that of the next.
-/

namespace ColorTheme

open Binary64

/-! ### Amounts -/

theorem Amount.number_clamp_of_le {high x : Binary64} (default : Amount high) (h0 : 0 ≤ x)
    (h1 : x ≤ high) : (Amount.clamp default x).number = x := by
  rw [Amount.number_clamp default (ne_nan_of_le h0).2, Binary64.clamp_eq_self h0 h1]

theorem Amount.eq_of_number {high : Binary64} {a b : Amount high} (h : a.number = b.number) :
    a = b := by
  obtain ⟨x, h0, h1⟩ := a
  obtain ⟨y, h0', h1'⟩ := b
  obtain rfl : x = y := h
  rfl

theorem Amount.exists_value {n : Nat} (hn : n < 2 ^ 53) (a : Amount (ofNat n)) :
    ∃ v : Rat, HasValue a.number v ∧ 0 ≤ v ∧ v ≤ n :=
  exists_value_of_le hasValue_zero (hasValue_ofNat hn) a.zero_le a.le_high

/-! ### Bytes of alphas -/

namespace Color

theorem alpha_withAlpha (c : Color) (a : Binary64) : (c.withAlpha a).alpha = .ofNumber a := rfl

theorem isRounding_alphaOfByte (b : UInt8) : IsRounding (alphaOfByte b) (b.toNat / 255) := by
  have hb : b.toNat < 256 := b.toNat_lt
  have hbyte : HasValue (ofByte b) b.toNat := hasValue_ofNat (by omega)
  have hfull : HasValue 255 ((255 : Nat) : Rat) := hasValue_ofNat (by decide)
  exact hbyte.div hfull (by decide)

/-- The alpha of a byte is its 255th part, but for the rounding. -/
theorem exists_value_alphaOfByte (b : UInt8) :
    ∃ v : Rat, HasValue (alphaOfByte b) v ∧ 0 ≤ v ∧ v ≤ 1 ∧ |v - b.toNat / 255| ≤ 1 / 2 ^ 53 := by
  have hb : (b.toNat : Rat) ≤ 255 := by exact_mod_cast Nat.le_of_lt_succ b.toNat_lt
  have h0 : (0 : Rat) ≤ b.toNat / 255 := by positivity
  have h1 : (b.toNat : Rat) / 255 ≤ (1 : Nat) := by
    rw [div_le_iff₀ (by norm_num)]
    simpa using hb
  simpa using (isRounding_alphaOfByte b).exists_value Nat.one_pos (by decide) h0 h1

theorem number_ofNumber_alphaOfByte (b : UInt8) :
    (Alpha.ofNumber (alphaOfByte b)).number = alphaOfByte b := by
  obtain ⟨v, hv, h0, h1, -⟩ := exists_value_alphaOfByte b
  obtain ⟨hlow, hhigh⟩ := hv.mem_range (n := 1) (by decide) h0 (by simpa using h1)
  exact Amount.number_clamp_of_le Alpha.full hlow hhigh

/-- **The byte of an alpha is read back from the alpha of the byte.** -/
theorem byte_alphaOfByte (b : UInt8) : (Alpha.ofNumber (alphaOfByte b)).byte = b := by
  have hb : b.toNat < 256 := b.toNat_lt
  obtain ⟨v, hv, h0, h1, herror⟩ := exists_value_alphaOfByte b
  have hfull : HasValue 255 ((255 : Nat) : Rat) := hasValue_ofNat (by decide)
  have hscale : v * (255 : Nat) ≤ (255 : Nat) := by
    push_cast
    linarith
  obtain ⟨w, hw, hw0, -, herror'⟩ :=
    (hv.mul hfull).exists_value (by decide) (by decide) (by positivity) hscale
  -- The errors of the division and of the product together are less than a half.
  have hnear : |w - (b.toNat : Rat)| < 1 / 2 := by
    obtain ⟨hlow, hhigh⟩ := abs_le.1 herror
    obtain ⟨hlow', hhigh'⟩ := abs_le.1 herror'
    push_cast at hlow' hhigh'
    rw [abs_lt]
    constructor <;> linarith
  have hround := hw.roundHalfAway hw0
  rw [floor_of_near hnear] at hround
  rw [Alpha.byte, number_ofNumber_alphaOfByte]
  have hwhole : HasValue (alphaOfByte b * 255).roundHalfAway b.toNat :=
    hround.hasValue_natCast (by omega)
  rw [hwhole.toByte hb, UInt8.ofNat_toNat]

theorem one_le_alphaOfByte_iff (b : UInt8) : 1 ≤ alphaOfByte b ↔ b = 255 := by
  have hb : b.toNat < 256 := b.toNat_lt
  have hone : HasValue 1 ((1 : Nat) : Rat) := hasValue_ofNat (by decide)
  constructor
  · intro hle
    by_contra hne
    have hlt : b.toNat ≤ 254 := by
      have : b.toNat ≠ 255 := fun h => hne (UInt8.toNat_inj.1 h)
      omega
    have hcast : (b.toNat : Rat) ≤ 254 := by exact_mod_cast hlt
    obtain ⟨v, hv, -, -, herror⟩ := exists_value_alphaOfByte b
    rw [hone.le_iff hv, Nat.cast_one] at hle
    obtain ⟨-, hhigh⟩ := abs_le.1 herror
    linarith
  · rintro rfl
    have hround := isRounding_alphaOfByte 255
    have hquotient : (((255 : UInt8).toNat : Nat) : Rat) / 255 = (1 : Nat) := by
      have h255 : (255 : UInt8).toNat = 255 := rfl
      rw [h255]
      norm_num
    rw [hquotient] at hround
    exact (hone.le_iff (hround.hasValue_natCast (by decide))).2 le_rfl

/-! ### Alphas in hundredths -/

/-- **An alpha in hundredths is an alpha.** -/
theorem exists_value_roundedAlpha (c : Color) :
    ∃ v : Rat, HasValue c.roundedAlpha v ∧ 0 ≤ v ∧ v ≤ (1 : Nat) := by
  have hhundred : HasValue 100 ((100 : Nat) : Rat) := hasValue_ofNat (by decide)
  obtain ⟨v, hv, h0, h1⟩ := Amount.exists_value (n := 1) (by decide) c.alpha
  have hscale : v * (100 : Nat) ≤ (100 : Nat) := by
    push_cast at h1 ⊢
    linarith
  obtain ⟨w, hw, hw0, hw1, -⟩ :=
    (hv.mul hhundred).exists_value (by decide) (by decide) (by positivity) hscale
  have hfloor := floor_le_of_le hw1
  have hwhole := (hw.roundHalfAway hw0).hasValue_natCast (by omega)
  have hhundredth : ((⌊w + 1 / 2⌋₊ : Nat) : Rat) / (100 : Nat) ≤ (1 : Nat) := by
    rw [div_le_iff₀ (by norm_num)]
    exact_mod_cast hfloor
  obtain ⟨u, hu, hu0, hu1, -⟩ :=
    (hwhole.div hhundred (by decide)).exists_value Nat.one_pos (by decide) (by positivity) hhundredth
  exact ⟨u, hu, hu0, hu1⟩

theorem number_ofNumber_roundedAlpha (c : Color) :
    (Alpha.ofNumber c.roundedAlpha).number = c.roundedAlpha := by
  obtain ⟨v, hv, h0, h1⟩ := c.exists_value_roundedAlpha
  obtain ⟨hlow, hhigh⟩ := hv.mem_range (n := 1) (by decide) h0 h1
  exact Amount.number_clamp_of_le Alpha.full hlow hhigh

end Color

end ColorTheme
