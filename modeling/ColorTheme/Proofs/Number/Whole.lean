import ColorTheme.Number.Binary64
import Mathlib.Algebra.Order.Ring.Rat
import Mathlib.Data.Nat.Cast.Order.Ring

/-!
# Whole numbers in floating point

Rounding finds a number of the format again from its quanta, and every natural number below `2 ^ 53`
has the quanta of a number of the format.  So these are exact, they compare as natural numbers do,
and rounding them to whole numbers does nothing.
-/

namespace ColorTheme.Binary64

/-! ### Rounding what needs no rounding -/

theorem twoPow_add (j k : Nat) : twoPow (j + k) = twoPow j * twoPow k := Nat.pow_add 2 j k

theorem twoPow_pos (k : Nat) : 0 < twoPow k := Nat.two_pow_pos k

theorem roundEven_mul (q : Nat) {d : Nat} (hd : 0 < d) : roundEven (q * d) d = q := by
  unfold roundEven
  rw [Nat.mul_div_cancel q hd, Nat.mul_mod_left]
  simp [hd]

/-- A magnitude above the first two binades is its doublings and a full significand. -/
theorem significand_bounds {m : Nat} (hm : 2 * binade ≤ m) :
    binade ≤ m - doublings m * binade ∧ m - doublings m * binade < 2 * binade := by
  unfold doublings
  unfold binade at *
  omega

/-- The quanta have the 53 binary digits of the significand and one more for each doubling. -/
theorem log2_quanta {m : Nat} (hm : 2 * binade ≤ m) : (quanta m).log2 = 52 + doublings m := by
  obtain ⟨hlow, hhigh⟩ := significand_bounds hm
  have hpos : 0 < 2 ^ doublings m := twoPow_pos _
  have hlow' : 2 ^ 52 * 2 ^ doublings m ≤ quanta m := Nat.mul_le_mul_right _ hlow
  have hhigh' : quanta m < 2 ^ 53 * 2 ^ doublings m := Nat.mul_lt_mul_of_pos_right hhigh hpos
  rw [← Nat.pow_add] at hlow' hhigh'
  have hne : quanta m ≠ 0 := by
    have := Nat.two_pow_pos (52 + doublings m)
    omega
  rw [Nat.log2_eq_iff hne]
  exact ⟨hlow', by rwa [show 52 + doublings m + 1 = 53 + doublings m by omega]⟩

/-- **The quanta of a magnitude are rounded to the magnitude**, in whatever fraction they come. -/
theorem nearestMagnitude_quanta (m : Nat) {d : Nat} (hd : 0 < d) :
    nearestMagnitude (quanta m * d) d = m := by
  unfold nearestMagnitude
  rw [Nat.mul_div_cancel _ hd]
  rcases Nat.lt_or_ge m (2 * binade) with hm | hm
  · -- In the first two binades the quanta are the magnitude itself.
    have hdoublings : doublings m = 0 := by
      unfold doublings
      unfold binade at *
      omega
    have hquanta : quanta m = m := by simp [quanta, hdoublings]
    have hlog : m.log2 - 52 = 0 := by
      rcases Nat.eq_zero_or_pos m with rfl | hpos
      · rfl
      · have := (Nat.log2_lt (Nat.ne_of_gt hpos)).2 (show m < 2 ^ 53 from hm)
        omega
    have hpow : d * twoPow 0 = d := Nat.mul_one d
    simp only [hquanta, hlog, hpow, roundEven_mul m hd, Nat.zero_mul, Nat.zero_add]
  · have hlog : (quanta m).log2 - 52 = doublings m := by rw [log2_quanta hm]; omega
    have hpos : 0 < d * twoPow (doublings m) := Nat.mul_pos hd (twoPow_pos _)
    have hscale : quanta m * d =
        (m - doublings m * binade) * (d * twoPow (doublings m)) := by
      rw [quanta, Nat.mul_assoc, Nat.mul_comm (twoPow _) d]
    obtain ⟨hlow, -⟩ := significand_bounds hm
    simp only [hlog, hscale, roundEven_mul _ hpos]
    unfold binade at *
    omega

theorem round_of_quanta {q : Rat} {m : Nat} (hm : m < magnitudeCount)
    (hq : q.num.natAbs * quantaPerOne = quanta m * q.den) (negative : Bool) :
    round negative q = .finite negative ⟨m, hm⟩ := by
  have hnearest : nearestMagnitude (q.num.natAbs * quantaPerOne) q.den = m := by
    rw [hq, nearestMagnitude_quanta m q.den_pos]
  unfold round
  simp only [hnearest, hm, dif_pos]

/-! ### Whole numbers -/

/-- A full significand with some doublings makes up a magnitude. -/
theorem quanta_of_significand {q : Nat} (e : Nat) (hlow : binade ≤ q) (hhigh : q < 2 * binade) :
    quanta (e * binade + q) = q * twoPow e := by
  have hdoublings : doublings (e * binade + q) = e := by
    unfold doublings
    unfold binade at *
    omega
  rw [quanta, hdoublings, Nat.add_sub_cancel_left]

theorem ofNat_eq_round (n : Nat) : ofNat n = round false n := by
  have hsign : decide ((n : Rat) < 0) = false := by simp
  rw [ofNat, ofRat, hsign]

/-- A natural number below `2 ^ 53`, in units of a power of two, is a significand and doublings. -/
theorem exists_quanta_twoPow {n k : Nat} (hn : n < 2 ^ 53) (hk : 52 ≤ k) (hk' : k ≤ 1074) :
    ∃ m, m < magnitudeCount ∧ quanta m = n * twoPow k := by
  rcases Nat.eq_zero_or_pos n with rfl | hpos
  · exact ⟨0, by decide, by rw [Nat.zero_mul]; rfl⟩
  · have hlog : n.log2 < 53 := (Nat.log2_lt (Nat.ne_of_gt hpos)).2 hn
    have hlow : 2 ^ n.log2 ≤ n := Nat.log2_self_le (Nat.ne_of_gt hpos)
    have hhigh : n < 2 ^ (n.log2 + 1) := Nat.lt_log2_self
    generalize n.log2 = l at hlog hlow hhigh
    -- The significand is `n` moved up to the full count of binary digits.
    have hsignificand : binade ≤ n * twoPow (52 - l) ∧ n * twoPow (52 - l) < 2 * binade := by
      have hpos : 0 < twoPow (52 - l) := twoPow_pos _
      have hlow' : twoPow l * twoPow (52 - l) ≤ n * twoPow (52 - l) :=
        Nat.mul_le_mul_right _ hlow
      have hhigh' : n * twoPow (52 - l) < twoPow (l + 1) * twoPow (52 - l) :=
        Nat.mul_lt_mul_of_pos_right hhigh hpos
      rw [← twoPow_add, show l + (52 - l) = 52 by omega] at hlow'
      rw [← twoPow_add, show l + 1 + (52 - l) = 53 by omega] at hhigh'
      exact ⟨hlow', hhigh'⟩
    have hscale : twoPow (52 - l) * twoPow (l + (k - 52)) = twoPow k := by
      rw [← twoPow_add, show 52 - l + (l + (k - 52)) = k by omega]
    obtain ⟨hlow', hhigh'⟩ := hsignificand
    refine ⟨(l + (k - 52)) * binade + n * twoPow (52 - l), ?_, ?_⟩
    · unfold magnitudeCount binade at *
      omega
    · rw [quanta_of_significand _ hlow' hhigh', Nat.mul_assoc, hscale]

theorem exists_quanta {n : Nat} (hn : n < 2 ^ 53) :
    ∃ m, m < magnitudeCount ∧ quanta m = n * quantaPerOne :=
  exists_quanta_twoPow hn (by decide) le_rfl

/-- **Whole numbers are exact.** -/
theorem ofNat_exact {n : Nat} (hn : n < 2 ^ 53) :
    ∃ m, ofNat n = .finite false m ∧ (ofNat n).value = n := by
  obtain ⟨m, hm, hquanta⟩ := exists_quanta hn
  have hofNat : ofNat n = .finite false ⟨m, hm⟩ := by
    rw [ofNat_eq_round]
    refine round_of_quanta hm ?_ false
    rw [Rat.num_natCast, Rat.den_natCast, Int.natAbs_natCast, hquanta, Nat.mul_one]
  refine ⟨⟨m, hm⟩, hofNat, ?_⟩
  have hquotient (d : Nat) (hd : d ≠ 0) : mkRat ((n * d : Nat) : Int) d = n := by
    have := Rat.mkRat_mul_right (n := n) (d := 1) hd
    rwa [Nat.one_mul, Rat.mkRat_one, ← Int.natCast_mul, Rat.intCast_natCast] at this
  rw [hofNat]
  simp only [value, hquanta]
  exact hquotient quantaPerOne (Nat.ne_of_gt (twoPow_pos 1074))

theorem numeral_eq (n : Nat) : (OfNat.ofNat n : Binary64) = ofNat n := rfl

/-! ### Bytes -/

theorem ofNat_lt_iff {m n : Nat} (hm : m < 2 ^ 53) (hn : n < 2 ^ 53) :
    ofNat m < ofNat n ↔ m < n := by
  obtain ⟨a, ha, hvalue⟩ := ofNat_exact hm
  obtain ⟨b, hb, hvalue'⟩ := ofNat_exact hn
  change lt (ofNat m) (ofNat n) = true ↔ _
  rw [ha] at hvalue ⊢
  rw [hb] at hvalue' ⊢
  simp [lt, hvalue, hvalue']

theorem clamp_ofNat {n low high : Nat} (hlow : low ≤ n) (hhigh : n ≤ high) (h : high < 2 ^ 53) :
    (ofNat n).clamp (ofNat low) (ofNat high) = ofNat n := by
  have hn : n < 2 ^ 53 := by omega
  have hbelow : ¬ ofNat n < ofNat low := by rw [ofNat_lt_iff hn (by omega)]; omega
  have habove : ¬ ofNat high < ofNat n := by rw [ofNat_lt_iff h hn]; omega
  simp only [clamp, hbelow, habove, if_false]

theorem roundHalfAway_ofNat {n : Nat} (hn : n < 2 ^ 53) :
    (ofNat n).roundHalfAway = ofNat n := by
  obtain ⟨m, hm, hvalue⟩ := ofNat_exact hn
  rw [hm] at hvalue
  have hhalf : (2 * n + 1) / 2 = n := by omega
  conv_rhs => rw [ofNat_eq_round]
  rw [hm]
  simp only [roundHalfAway, hvalue, Rat.num_natCast, Rat.den_natCast, Int.natAbs_natCast,
    Nat.mul_one, hhalf]

theorem toByte_ofNat {n : Nat} (hn : n < 256) : (ofNat n).toByte = .ofNat n := by
  obtain ⟨m, hm, hvalue⟩ := ofNat_exact (show n < 2 ^ 53 by omega)
  rw [hm] at hvalue ⊢
  simp only [toByte, truncated, hvalue, Rat.num_natCast, Rat.den_natCast, Int.natAbs_natCast,
    Nat.div_one]
  rw [Nat.min_eq_left (by omega)]
  rfl

end ColorTheme.Binary64
