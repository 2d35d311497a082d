import ColorTheme.Proofs.Number.Rounding

/-!
# Arithmetic

What the operations do to values.  A number `IsRounding` of a rational one if it is what rounding
makes of it, with either sign for zero; sums, products and quotients are the roundings of the exact
ones.  From a bound on the exact result follow a value and a bound on the error.
-/

namespace ColorTheme.Binary64

/-! ### Values -/

/-- The number is finite, with the given value. -/
structure HasValue (x : Binary64) (v : Rat) : Prop where
  isFinite : x.isFinite = true
  value_eq : x.value = v

/-- The number is what the rational number is rounded to. -/
def IsRounding (x : Binary64) (q : Rat) : Prop :=
  ∃ negative, x = round negative q ∧ if negative then q ≤ 0 else 0 ≤ q

namespace HasValue

variable {x y : Binary64} {v w : Rat}

theorem exists_magnitude (h : HasValue x v) :
    ∃ s m, x = .finite s m ∧ (if s then -size m else size m) = v := by
  obtain ⟨hfinite, hvalue⟩ := h
  cases x with
  | finite s m => exact ⟨s, m, rfl, by rw [← value_finite, hvalue]⟩
  | _ => cases hfinite

theorem le_iff (hx : HasValue x v) (hy : HasValue y w) : x ≤ y ↔ v ≤ w := by
  obtain ⟨s, m, rfl, -⟩ := hx.exists_magnitude
  obtain ⟨t, n, rfl, -⟩ := hy.exists_magnitude
  rw [← hx.value_eq, ← hy.value_eq]
  change le _ _ = true ↔ _
  simp [le]

theorem lt_iff (hx : HasValue x v) (hy : HasValue y w) : x < y ↔ v < w := by
  obtain ⟨s, m, rfl, -⟩ := hx.exists_magnitude
  obtain ⟨t, n, rfl, -⟩ := hy.exists_magnitude
  rw [← hx.value_eq, ← hy.value_eq]
  change lt _ _ = true ↔ _
  simp [lt]

end HasValue

theorem hasValue_value {x : Binary64} (h : x.isFinite = true) : HasValue x x.value := ⟨h, rfl⟩

theorem exists_value_of_le {x y z : Binary64} {v w : Rat} (hx : HasValue x v) (hz : HasValue z w)
    (hlow : x ≤ y) (hhigh : y ≤ z) : ∃ u, HasValue y u ∧ v ≤ u ∧ u ≤ w := by
  have hy : y.isFinite = true := by
    obtain ⟨s, m, rfl, -⟩ := hx.exists_magnitude
    obtain ⟨t, n, rfl, -⟩ := hz.exists_magnitude
    change le _ _ = true at hlow
    change le _ _ = true at hhigh
    cases y with
    | nan => simp [le] at hlow
    | infinite r => cases r <;> simp [le] at hlow hhigh
    | finite => rfl
  have hvalue : HasValue y y.value := ⟨hy, rfl⟩
  exact ⟨_, hvalue, (hx.le_iff hvalue).1 hlow, (hvalue.le_iff hz).1 hhigh⟩

/-! ### Roundings -/

namespace IsRounding

variable {x : Binary64} {q : Rat}

theorem hasValue_size (h : IsRounding x q) (h0 : 0 ≤ q) (hm : magnitudeOf q < magnitudeCount) :
    HasValue x (size (magnitudeOf q)) := by
  obtain ⟨s, rfl, hs⟩ := h
  refine ⟨by rw [round_eq, dif_pos hm]; rfl, ?_⟩
  rw [round_eq, dif_pos hm, value_finite]
  cases s with
  | false => rfl
  | true =>
    -- Zero may have either sign.
    obtain rfl : q = 0 := hs.antisymm h0
    have hzero : size (magnitudeOf 0) = 0 := by rw [← size_zero, magnitudeOf_size]
    rw [if_pos rfl, hzero, neg_zero]

/-- **A rounding has a value**, up to the bound of the exact number and near to it. -/
theorem exists_value (h : IsRounding x q) {n : Nat} (hpos : 0 < n) (hn : n < 2 ^ 53)
    (h0 : 0 ≤ q) (hq : q ≤ n) :
    ∃ v, HasValue x v ∧ 0 ≤ v ∧ v ≤ n ∧ |v - q| ≤ n / 2 ^ 53 := by
  obtain ⟨k, hsize, -⟩ := exists_size_eq hn
  have hle : magnitudeOf q ≤ k := magnitudeOf_le (by rwa [hsize, abs_of_nonneg h0])
  refine ⟨_, h.hasValue_size h0 (hle.trans_lt k.isLt), size_nonneg _, ?_,
    abs_size_sub_le_of_le hpos h0 hq⟩
  rw [← hsize]
  exact size_strictMono.monotone hle

theorem hasValue_natCast {n : Nat} (h : IsRounding x n) (hn : n < 2 ^ 53) : HasValue x n := by
  obtain ⟨m, hsize, -⟩ := exists_size_eq hn
  have hm : magnitudeOf n = m := by rw [← hsize, magnitudeOf_size]
  have hvalue := h.hasValue_size (Nat.cast_nonneg n) (by rw [hm]; exact m.isLt)
  rwa [hm, hsize] at hvalue

end IsRounding

theorem HasValue.isRounding {x : Binary64} {v : Rat} (h : HasValue x v) : IsRounding x v := by
  obtain ⟨s, m, rfl, rfl⟩ := h.exists_magnitude
  have hm := size_nonneg m
  have habs : |if s then -size m else size m| = |size m| := by
    split
    · exact abs_neg _
    · rfl
  have hmagnitude : magnitudeOf (if s then -size m else size m) = m := by
    have hsame := magnitudeOf_size m
    exact le_antisymm ((magnitudeOf_mono habs.le).trans hsame.le)
      (hsame.symm.le.trans (magnitudeOf_mono habs.ge))
  refine ⟨s, ?_, ?_⟩
  · rw [round_eq, dif_pos (by rw [hmagnitude]; exact m.isLt)]
    congr 1
    exact Fin.ext hmagnitude.symm
  · cases s with
    | false => exact hm
    | true => exact neg_nonpos.2 hm

namespace IsRounding

variable {x y : Binary64} {p q : Rat}

/-- Only zero is rounded to two numbers. -/
theorem unique (hx : IsRounding x q) (hy : IsRounding y q) (hq : 0 < q) : x = y := by
  have hpositive {z : Binary64} (hz : IsRounding z q) : z = round false q := by
    obtain ⟨s, rfl, hs⟩ := hz
    cases s with
    | false => rfl
    | true => exact absurd hs (not_le.2 hq)
  rw [hpositive hx, hpositive hy]

/-- **Rounding keeps the order** of numbers that are not negative. -/
theorem exists_value_of_le (hx : IsRounding x p) (hy : IsRounding y q) {w : Rat}
    (hw : HasValue y w) (h0 : 0 ≤ p) (hpq : p ≤ q) :
    ∃ v, HasValue x v ∧ 0 ≤ v ∧ v ≤ w := by
  have habs : |p| ≤ |q| := by rwa [abs_of_nonneg h0, abs_of_nonneg (h0.trans hpq)]
  have hmono := magnitudeOf_mono habs
  have hq : magnitudeOf q < magnitudeCount := by
    by_contra hlarge
    obtain ⟨t, rfl, -⟩ := hy
    obtain ⟨_, _, hround, -⟩ := hw.exists_magnitude
    rw [round_eq, dif_neg hlarge] at hround
    cases hround
  have hvalue := (hy.hasValue_size (h0.trans hpq) hq).value_eq
  rw [hw.value_eq] at hvalue
  refine ⟨_, hx.hasValue_size h0 (hmono.trans_lt hq), size_nonneg _, ?_⟩
  rw [hvalue]
  exact size_strictMono.monotone hmono

end IsRounding

theorem isRounding_ofNat (n : Nat) : IsRounding (ofNat n) n :=
  ⟨false, ofNat_eq_round n, Nat.cast_nonneg n⟩

theorem hasValue_ofNat {n : Nat} (hn : n < 2 ^ 53) : HasValue (ofNat n) n :=
  (isRounding_ofNat n).hasValue_natCast hn

theorem exists_hasValue_half {n : Nat} (hn : 2 * n + 1 < 2 ^ 53) :
    ∃ x, HasValue x (n + 1 / 2) := by
  obtain ⟨m, hm, hquanta⟩ := exists_quanta_twoPow (k := 1073) hn (by decide) (by decide)
  refine ⟨.finite false ⟨m, hm⟩, rfl, ?_⟩
  have htwo : twoPow 1 = 2 := rfl
  have hsum : 1 + 1073 = 1074 := rfl
  have hone : twoPow 1 * twoPow 1073 = quantaPerOne := by rw [← twoPow_add, hsum]
  have hpos : ((twoPow 1073 : Nat) : Rat) ≠ 0 := Nat.cast_ne_zero.2 (twoPow_pos 1073).ne'
  rw [value_finite, if_neg Bool.false_ne_true, size, hquanta, ← hone, htwo]
  generalize twoPow 1073 = unit at hpos
  rw [Nat.cast_mul, Nat.cast_mul, mul_div_mul_right _ _ hpos]
  push_cast
  ring

theorem hasValue_zero : HasValue 0 0 := hasValue_ofNat (n := 0) (by decide)

theorem hasValue_one : HasValue 1 1 := hasValue_ofNat (n := 1) (by decide)

theorem hasValue_two : HasValue 2 2 := hasValue_ofNat (n := 2) (by decide)

theorem HasValue.mem_range {n : Nat} (hn : n < 2 ^ 53) {x : Binary64} {v : Rat} (h : HasValue x v)
    (h0 : 0 ≤ v) (h1 : v ≤ n) : 0 ≤ x ∧ x ≤ ofNat n :=
  ⟨(hasValue_zero.le_iff h).2 h0, (h.le_iff (hasValue_ofNat hn)).2 h1⟩

/-! ### Operations -/

namespace HasValue

variable {x y : Binary64} {v w : Rat}

theorem mul (hx : HasValue x v) (hy : HasValue y w) : IsRounding (x * y) (v * w) := by
  obtain ⟨s, m, rfl, rfl⟩ := hx.exists_magnitude
  obtain ⟨t, n, rfl, rfl⟩ := hy.exists_magnitude
  have hm := size_nonneg m
  have hn := size_nonneg n
  refine ⟨s != t, ?_, ?_⟩
  · change Binary64.mul _ _ = _
    rw [← value_finite, ← value_finite]
    unfold Binary64.mul
    rfl
  · have hmn := mul_nonneg hm hn
    cases s <;> cases t <;> simpa using hmn

theorem add (hx : HasValue x v) (hy : HasValue y w) : IsRounding (x + y) (v + w) := by
  obtain ⟨s, m, rfl, -⟩ := hx.exists_magnitude
  obtain ⟨t, n, rfl, -⟩ := hy.exists_magnitude
  change IsRounding (Binary64.add _ _) _
  rw [← hx.value_eq, ← hy.value_eq]
  simp only [Binary64.add]
  split
  · -- Zero takes its sign from the terms.
    rename_i hsum
    rw [hsum]
    refine ⟨s && t, ?_, by split <;> rfl⟩
    have hround := round_size (s && t) ⟨0, by decide⟩
    rw [size_zero] at hround
    exact hround.symm
  · refine ⟨_, rfl, ?_⟩
    split
    · rename_i hneg
      exact (of_decide_eq_true hneg).le
    · rename_i hneg
      exact not_lt.1 fun h => hneg (decide_eq_true h)

theorem div (hx : HasValue x v) (hy : HasValue y w) (hw : w ≠ 0) : IsRounding (x / y) (v / w) := by
  obtain ⟨s, m, rfl, rfl⟩ := hx.exists_magnitude
  obtain ⟨t, n, rfl, rfl⟩ := hy.exists_magnitude
  have hne : n.val ≠ 0 := by
    intro h0
    rw [h0, size_zero] at hw
    simp at hw
  refine ⟨s != t, ?_, ?_⟩
  · rw [← value_finite, ← value_finite]
    exact if_neg hne
  · have hmn := div_nonneg (size_nonneg m) (size_nonneg n)
    cases s <;> cases t <;> simpa [neg_div, div_neg] using hmn

theorem roundHalfAway (hx : HasValue x v) (h0 : 0 ≤ v) :
    IsRounding x.roundHalfAway (⌊v + 1 / 2⌋₊ : Nat) := by
  obtain ⟨s, m, rfl, hv⟩ := hx.exists_magnitude
  have hvalue := hx.value_eq
  refine ⟨s, ?_, ?_⟩
  · have hd : (v.den : Rat) ≠ 0 := Nat.cast_ne_zero.2 v.den_ne_zero
    have hsum : v + 1 / 2 = ((2 * v.num.natAbs + v.den : Nat) : Rat) / (2 * v.den : Nat) := by
      have hquotient := abs_eq_natAbs_div v
      rw [abs_of_nonneg h0] at hquotient
      conv_lhs => rw [hquotient]
      push_cast
      field_simp
    rw [hsum, Nat.floor_div_eq_div, ← hvalue]
    rfl
  · cases s with
    | false => exact Nat.cast_nonneg _
    | true =>
      have hm := size_nonneg m
      obtain rfl : v = 0 := by
        rw [if_pos rfl] at hv
        linarith
      have hfloor : ⌊(0 : Rat) + 1 / 2⌋₊ = 0 := by
        rw [Nat.floor_eq_zero]
        norm_num
      rw [hfloor]
      exact le_of_eq Nat.cast_zero

theorem toByte {n : Nat} (hx : HasValue x n) (hn : n < 256) : x.toByte = .ofNat n := by
  obtain ⟨s, m, rfl, hv⟩ := hx.exists_magnitude
  cases s with
  | false =>
    have htruncated : truncated (.finite false m) = n := by
      rw [truncated, hx.value_eq, Rat.num_natCast, Rat.den_natCast, Int.natAbs_natCast, Nat.div_one]
    change UInt8.ofNat (min (truncated _) 255) = _
    rw [htruncated, Nat.min_eq_left (by omega)]
  | true =>
    have hm := size_nonneg m
    have hzero : (n : Rat) ≤ 0 := by
      rw [if_pos rfl] at hv
      linarith
    obtain rfl : n = 0 := by exact_mod_cast hzero.antisymm (Nat.cast_nonneg n)
    rfl

end HasValue

/-! ### The nearest whole number -/

theorem floor_of_near {v : Rat} {n : Nat} (h : |v - n| < 1 / 2) : ⌊v + 1 / 2⌋₊ = n := by
  obtain ⟨hlow, hhigh⟩ := abs_lt.1 h
  have hn : (0 : Rat) ≤ n := Nat.cast_nonneg n
  rw [Nat.floor_eq_iff (by linarith)]
  constructor <;> linarith

theorem floor_le_of_le {v : Rat} {n : Nat} (h : v ≤ n) : ⌊v + 1 / 2⌋₊ ≤ n := by
  have hlt : v + 1 / 2 < (n + 1 : Nat) := by
    push_cast
    linarith
  exact Nat.lt_succ_iff.1 ((Nat.floor_lt' (Nat.succ_ne_zero n)).2 hlt)

theorem abs_floor_sub_le {v : Rat} (hv : 0 ≤ v) : |(⌊v + 1 / 2⌋₊ : Rat) - v| ≤ 1 / 2 := by
  have hle := Nat.floor_le (show 0 ≤ v + 1 / 2 by linarith)
  have hlt := Nat.lt_floor_add_one (v + 1 / 2)
  rw [abs_le]
  constructor <;> linarith

/-- Numbers with the same halves below them are rounded to the same whole number. -/
theorem floor_eq_of_halves {v q : Rat} (hv : 0 ≤ v) (hq : 0 ≤ q)
    (h : ∀ n : Nat, (n : Rat) + 1 / 2 ≤ v ↔ (n : Rat) + 1 / 2 ≤ q) :
    ⌊v + 1 / 2⌋₊ = ⌊q + 1 / 2⌋₊ := by
  refine eq_of_forall_le_iff fun m => ?_
  rw [Nat.le_floor_iff (by linarith), Nat.le_floor_iff (by linarith)]
  cases m with
  | zero =>
    rw [Nat.cast_zero]
    constructor <;> intro <;> linarith
  | succ n =>
    have hn := h n
    push_cast
    constructor
    · intro hle
      have := hn.1 (by linarith)
      linarith
    · intro hle
      have := hn.2 (by linarith)
      linarith

/-! ### Staying in a range -/

theorem not_lt_of_le {x y : Binary64} (h : x ≤ y) : ¬ y < x := by
  change le x y = true at h
  change ¬ lt y x = true
  cases x with
  | nan => cases h
  | infinite s => cases y with
    | nan => cases h
    | infinite t => cases s <;> cases t <;> simp_all [lt, le]
    | finite t n => cases s <;> simp_all [lt, le]
  | finite s m => cases y with
    | nan => cases h
    | infinite t => cases t <;> simp_all [lt, le]
    | finite t n => simpa [lt, le] using h

theorem clamp_eq_self {x low high : Binary64} (hlow : low ≤ x) (hhigh : x ≤ high) :
    x.clamp low high = x := by
  unfold clamp
  rw [if_neg (not_lt_of_le hlow)]
  exact if_neg (not_lt_of_le hhigh)

end ColorTheme.Binary64
