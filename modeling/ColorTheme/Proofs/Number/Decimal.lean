import ColorTheme.Number.Decimal
import ColorTheme.Proofs.Number.Rounding
import Mathlib.Algebra.Order.Field.Power

/-!
# Reading decimal numerals

A decimal number is read as what its exact value rounds to.  Powers of ten that are not written out
are far outside the format, where rounding gives zero or infinity.
-/

namespace ColorTheme

/-! ### Digits -/

theorem ofDigits_eq (cs : List Char) : ofDigits cs = Nat.ofDigitChars 10 cs 0 := rfl

theorem ofDigits_digitsOf (n : Nat) : ofDigits (digitsOf n) = n := Nat.ofDigitChars_ten_toDigits

theorem ofDigits_append_zeros (cs : List Char) (k : Nat) :
    ofDigits (cs ++ List.replicate k '0') = ofDigits cs * 10 ^ k := by
  rw [ofDigits_eq, Nat.ofDigitChars_append, Nat.ofDigitChars_replicate_zero, Nat.mul_comm]
  rfl

theorem ofDigits_zeros_append (k : Nat) (cs : List Char) :
    ofDigits (List.replicate k '0' ++ cs) = ofDigits cs := by
  rw [ofDigits_eq, Nat.ofDigitChars_append, Nat.ofDigitChars_replicate_zero, Nat.mul_zero]
  rfl

theorem isDigit_of_mem_digitsOf {n : Nat} {c : Char} (h : c ∈ digitsOf n) : c.isDigit = true :=
  Nat.isDigit_of_mem_toDigits (by decide) (by decide) h

theorem digitsOf_ne_nil (n : Nat) : digitsOf n ≠ [] := Nat.toDigits_ne_nil

theorem lt_pow_length_digitsOf (n : Nat) : n < 10 ^ (digitsOf n).length :=
  (Nat.length_toDigits_le_iff (by decide) Nat.length_toDigits_pos).1 le_rfl

theorem pow_length_digitsOf_le {n : Nat} (hn : n ≠ 0) : 10 ^ ((digitsOf n).length - 1) ≤ n := by
  rcases Nat.eq_zero_or_pos ((digitsOf n).length - 1) with h0 | hpos
  · rw [h0]
    omega
  · by_contra hlt
    have hle : (digitsOf n).length ≤ (digitsOf n).length - 1 :=
      (Nat.length_toDigits_le_iff (by decide) hpos).2 (Nat.not_le.1 hlt)
    omega

namespace Binary64

/-! ### Powers of ten -/

theorem powerOfTen_eq (m : Nat) (e : Int) : powerOfTen m e = m * 10 ^ e := by
  cases e with
  | ofNat k =>
    rw [powerOfTen, Int.ofNat_eq_natCast, zpow_natCast, Nat.cast_mul]
    congr 1
    exact Nat.cast_pow 10 k
  | negSucc k =>
    rw [powerOfTen, Rat.mkRat_eq_div, zpow_negSucc, div_eq_mul_inv, Int.cast_natCast]
    congr 2
    exact Nat.cast_pow 10 (k + 1)

/-! ### Far outside the format -/

/-- What is less than half a quantum is rounded to zero. -/
theorem round_of_lt {q : Rat} (h0 : 0 ≤ q) (h : q < 1 / 2 / (quantaPerOne : Rat))
    (negative : Bool) : round negative q = zero negative := by
  have hlt : size (magnitudeOf q) < size 1 := by
    have herror := abs_size_sub_le h0
    have hpart : q / 2 ^ 53 ≤ q := div_le_self h0 (one_le_pow₀ one_le_two)
    rw [max_eq_right (hpart.trans h.le)] at herror
    have hquantum : size 1 = 1 / 2 / (quantaPerOne : Rat) + 1 / 2 / (quantaPerOne : Rat) := by
      rw [← add_div, add_halves, size]
      rfl
    rw [hquantum]
    generalize (1 / 2 / (quantaPerOne : Rat)) = u at *
    have := (abs_le.1 herror).2
    linarith
  have hmagnitude : magnitudeOf q = 0 := Nat.lt_one_iff.1 (size_strictMono.lt_iff_lt.1 hlt)
  rw [round_eq, dif_pos (by rw [hmagnitude]; decide)]
  simp only [hmagnitude, zero]

theorem quanta_binade (k : Nat) : quanta (k * binade + binade) = twoPow (52 + k) := by
  have hbinade : binade = twoPow 52 := rfl
  rw [quanta_of_significand k le_rfl (by decide), twoPow_add, hbinade]

/-- What is not below the first power of two outside the format is rounded to infinity. -/
theorem round_of_ge {q : Rat} (h : 2 ^ 1024 ≤ |q|) (negative : Bool) :
    round negative q = .infinite negative := by
  have hsize : size magnitudeCount = 2 ^ 1024 := by
    have hquanta : quanta magnitudeCount = twoPow 1024 * quantaPerOne := by
      have hcount : magnitudeCount = 2046 * binade + binade := rfl
      have hsum : 52 + 2046 = 1024 + 1074 := rfl
      rw [hcount, quanta_binade, hsum, twoPow_add]
    have hU := quantaPerOne_pos
    rw [size, hquanta, Nat.cast_mul]
    generalize quantaPerOne = U at *
    rw [mul_div_cancel_right₀ _ hU.ne', cast_twoPow]
  have hle : magnitudeCount ≤ magnitudeOf q := le_magnitudeOf (by rwa [hsize])
  rw [round_eq, dif_neg (by omega)]

theorem two_quanta_lt : 2 * quantaPerOne < 10 ^ 331 := by decide +kernel

theorem twoPow_le_tenPow : (2 : Rat) ^ 1024 ≤ 10 ^ 310 := by
  have hle : 2 ^ 1024 ≤ 10 ^ 310 := by decide +kernel
  have hcast : ((2 ^ 1024 : Nat) : Rat) ≤ (10 ^ 310 : Nat) := Nat.cast_le.2 hle
  rwa [Nat.cast_pow, Nat.cast_pow] at hcast

theorem tenPow_lt_half_quantum : (10 : Rat) ^ (-331 : Int) < 1 / 2 / (quantaPerOne : Rat) := by
  have hU := quantaPerOne_pos
  have hlt := two_quanta_lt
  generalize quantaPerOne = U at *
  have hlt : (2 : Rat) * U < 10 ^ 331 := by exact_mod_cast hlt
  rw [zpow_neg, div_div, one_div]
  exact inv_strictAnti₀ (by positivity) hlt

/-- **A decimal number is rounded once**, from its exact value. -/
theorem ofDecimal_eq_round (negative : Bool) (m : Nat) (e : Int) :
    ofDecimal negative m e = round negative (m * (10 : Rat) ^ e) := by
  have hten (k : Int) : (0 : Rat) < 10 ^ k := zpow_pos (by norm_num) k
  have hadd (j k : Int) : (10 : Rat) ^ j * 10 ^ k = 10 ^ (j + k) :=
    (zpow_add₀ (by norm_num) j k).symm
  unfold ofDecimal
  dsimp only
  split_ifs with hlow hhigh
  · -- Nothing at all, or less than half a quantum.
    refine (round_of_lt (mul_nonneg (Nat.cast_nonneg m) (hten e).le) ?_ negative).symm
    refine lt_of_le_of_lt ?_ tenPow_lt_half_quantum
    rcases hlow with rfl | hsize
    · rw [Nat.cast_zero, zero_mul]
      exact (hten _).le
    · have hlt : (m : Rat) ≤ 10 ^ ((digitsOf m).length : Int) := by
        rw [zpow_natCast]
        exact_mod_cast (lt_pow_length_digitsOf m).le
      calc (m : Rat) * 10 ^ e ≤ 10 ^ ((digitsOf m).length : Int) * 10 ^ e :=
            mul_le_mul_of_nonneg_right hlt (hten e).le
        _ = 10 ^ ((digitsOf m).length + e) := hadd _ _
        _ ≤ 10 ^ (-331 : Int) := zpow_le_zpow_right₀ (by norm_num) (by omega)
  · -- Not zero, and too many digits before the point.
    refine (round_of_ge ?_ negative).symm
    have hne : m ≠ 0 := fun h => hlow (.inl h)
    have hpos : 0 < (digitsOf m).length := Nat.length_toDigits_pos
    have hle : (10 : Rat) ^ (((digitsOf m).length - 1 : Nat) : Int) ≤ m := by
      rw [zpow_natCast]
      exact_mod_cast pow_length_digitsOf_le hne
    have hoverflow : (2 : Rat) ^ 1024 ≤ 10 ^ (310 : Int) := twoPow_le_tenPow
    calc (2 : Rat) ^ 1024 ≤ 10 ^ (310 : Int) := hoverflow
      _ ≤ 10 ^ ((((digitsOf m).length - 1 : Nat) : Int) + e) :=
          zpow_le_zpow_right₀ (by norm_num) (by omega)
      _ = 10 ^ (((digitsOf m).length - 1 : Nat) : Int) * 10 ^ e := (hadd _ _).symm
      _ ≤ m * 10 ^ e := mul_le_mul_of_nonneg_right hle (hten e).le
      _ ≤ |(m : Rat) * 10 ^ e| := le_abs_self _
  · rw [powerOfTen_eq]

end Binary64

end ColorTheme
