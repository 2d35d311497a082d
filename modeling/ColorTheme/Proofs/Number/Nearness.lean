import ColorTheme.Proofs.Number.Arithmetic
import ColorTheme.Proofs.Number.Decimal
import Mathlib.Algebra.Order.Group.MinMax

/-!
# Nearness

Roundings of numbers with either sign, differences, and what a longer computation is off by.  A number
is `Near` a rational one if its value differs from that by no more than a given error; each operation
adds the errors of its operands and a slip of its own.  Where the order alone matters, two numbers are
`Rising` up to a bound, and so are the results of growing operations on them.
-/

namespace ColorTheme.Binary64

variable {x y : Binary64} {v w p q : Rat}

/-! ### Signs -/

theorem magnitudeOf_neg (q : Rat) : magnitudeOf (-q) = magnitudeOf q :=
  le_antisymm (magnitudeOf_mono (abs_neg q).le) (magnitudeOf_mono (abs_neg q).ge)

theorem neg_round (negative : Bool) (q : Rat) : -round negative q = round (!negative) (-q) := by
  rw [round_eq, round_eq, magnitudeOf_neg]
  change neg _ = _
  split <;> rfl

theorem IsRounding.neg (h : IsRounding x q) : IsRounding (-x) (-q) := by
  obtain ⟨s, rfl, hs⟩ := h
  refine ⟨!s, neg_round s q, ?_⟩
  cases s with
  | false => exact neg_nonpos.2 hs
  | true => exact neg_nonneg.2 hs

theorem neg_neg (x : Binary64) : - -x = x := by
  change neg (neg x) = x
  cases x <;> simp [neg]

theorem sub_eq_add (x y : Binary64) : x - y = x + -y := rfl

theorem HasValue.neg (h : HasValue x v) : HasValue (-x) (-v) := by
  obtain ⟨s, m, rfl, rfl⟩ := h.exists_magnitude
  refine ⟨rfl, ?_⟩
  change value (.finite (!s) m) = _
  rw [value_finite]
  cases s <;> simp

theorem HasValue.sub (hx : HasValue x v) (hy : HasValue y w) : IsRounding (x - y) (v - w) := by
  rw [sub_eq_add, sub_eq_add_neg]
  exact hx.add hy.neg

/-! ### Order -/

namespace IsRounding

/-- **Rounding keeps the order**, whatever the signs. -/
theorem le_of_le (hx : IsRounding x p) (hy : IsRounding y q) (hv : HasValue x v)
    (hw : HasValue y w) (h : p ≤ q) : v ≤ w := by
  have hpositive {x y : Binary64} {v w p q : Rat} (hx : IsRounding x p) (hy : IsRounding y q)
      (hv : HasValue x v) (hw : HasValue y w) (h0 : 0 ≤ p) (h : p ≤ q) : 0 ≤ v ∧ v ≤ w := by
    obtain ⟨u, hu, hu0, huw⟩ := hx.exists_value_of_le hy hw h0 h
    rw [← hv.value_eq, hu.value_eq]
    exact ⟨hu0, huw⟩
  rcases le_total 0 p with hp | hp
  · exact (hpositive hx hy hv hw hp h).2
  · have hv0 := (hpositive hx.neg hx.neg hv.neg hv.neg (neg_nonneg.2 hp) le_rfl).1
    rcases le_total 0 q with hq | hq
    · have hw0 := (hpositive hy hy hw hw hq le_rfl).1
      linarith
    · have hle := (hpositive hy.neg hx.neg hw.neg hv.neg (neg_nonneg.2 hq) (neg_le_neg h)).2
      linarith

/-- What is between two numbers is rounded to a number between them. -/
theorem exists_between (hx : IsRounding x p) {low high : Binary64} (hlow : HasValue low v)
    (hhigh : HasValue high w) (hp : v ≤ p) (hp' : p ≤ w) : ∃ u, HasValue x u ∧ v ≤ u ∧ u ≤ w := by
  have hfinite : ∃ u, HasValue x u := by
    rcases le_total 0 p with h0 | h0
    · obtain ⟨u, hu, -⟩ := hx.exists_value_of_le hhigh.isRounding hhigh h0 hp'
      exact ⟨u, hu⟩
    · obtain ⟨u, hu, -⟩ := hx.neg.exists_value_of_le hlow.neg.isRounding hlow.neg
        (neg_nonneg.2 h0) (neg_le_neg hp)
      exact ⟨-u, by simpa only [neg_neg] using hu.neg⟩
  obtain ⟨u, hu⟩ := hfinite
  exact ⟨u, hu, hlow.isRounding.le_of_le hx hlow hu hp, hx.le_of_le hhigh.isRounding hu hhigh hp'⟩

theorem hasValue (hx : IsRounding x v) (hy : HasValue y v) : HasValue x v := by
  obtain ⟨u, hu, hlow, hhigh⟩ := hx.exists_between hy hy le_rfl le_rfl
  rwa [hlow.antisymm hhigh]

/-- **A rounding has a value**, within the bound of the exact number and near to it. -/
theorem exists_value_of_abs_le (h : IsRounding x q) {n : Nat} (hpos : 0 < n) (hn : n < 2 ^ 53)
    (hq : |q| ≤ n) : ∃ v, HasValue x v ∧ |v| ≤ n ∧ |v - q| ≤ n / 2 ^ 53 := by
  rcases le_total 0 q with h0 | h0
  · rw [abs_of_nonneg h0] at hq
    obtain ⟨v, hv, hv0, hvn, herror⟩ := h.exists_value hpos hn h0 hq
    exact ⟨v, hv, by rwa [abs_of_nonneg hv0], herror⟩
  · rw [abs_of_nonpos h0] at hq
    obtain ⟨v, hv, hv0, hvn, herror⟩ := h.neg.exists_value hpos hn (neg_nonneg.2 h0) hq
    refine ⟨-v, by simpa only [neg_neg] using hv.neg, by rwa [abs_neg, abs_of_nonneg hv0], ?_⟩
    rw [abs_sub_comm]
    simpa only [sub_neg_eq_add, add_comm] using herror

end IsRounding

/-! ### Literals -/

/-- A number written with a decimal point is the nearest one to what is written. -/
theorem isRounding_ofScientific (m e : Nat) :
    IsRounding (OfScientific.ofScientific m true e) (m / 10 ^ e) := by
  have hquotient : powerOfTen m (-(e : Int)) = m / 10 ^ e := by
    rw [powerOfTen_eq, zpow_neg, zpow_natCast, div_eq_mul_inv]
  have hpositive : (0 : Rat) ≤ m / 10 ^ e := by positivity
  exact ⟨false, by rw [← hquotient]; rfl, hpositive⟩

theorem exists_value_literal (m e low high : Nat) (hlow : low * 10 ^ e ≤ m)
    (hhigh : m ≤ high * 10 ^ e) (hrange : high < 2 ^ 53) :
    ∃ v, HasValue (OfScientific.ofScientific m true e) v ∧ (low : Rat) ≤ v ∧ v ≤ high := by
  have hpositive : (0 : Rat) < 10 ^ e := by positivity
  refine (isRounding_ofScientific m e).exists_between (hasValue_ofNat ?_) (hasValue_ofNat hrange) ?_ ?_
  · have hle := Nat.le_of_mul_le_mul_right (hlow.trans hhigh) (Nat.pow_pos (by decide))
    omega
  · rw [le_div_iff₀ hpositive]
    exact_mod_cast hlow
  · rw [div_le_iff₀ hpositive]
    exact_mod_cast hhigh

theorem hasValue_literal_half (n : Nat) (hn : 2 * n + 1 < 2 ^ 53) :
    HasValue (OfScientific.ofScientific (10 * n + 5) true 1) (n + 1 / 2) := by
  obtain ⟨x, hx⟩ := exists_hasValue_half hn
  have hround := isRounding_ofScientific (10 * n + 5) 1
  have hquotient : ((10 * n + 5 : Nat) : Rat) / 10 ^ 1 = n + 1 / 2 := by
    push_cast
    ring
  rw [hquotient] at hround
  exact hround.hasValue hx

theorem hasValue_half : HasValue 0.5 (1 / 2) := by
  simpa using hasValue_literal_half 0 (by decide)

/-! ### Growing operands -/

/-- The number is from zero to the other one. -/
def UpTo (x y : Binary64) : Prop := ∃ v w, HasValue x v ∧ HasValue y w ∧ 0 ≤ v ∧ v ≤ w

theorem HasValue.upTo (hx : HasValue x v) (hy : HasValue y w) (h0 : 0 ≤ v) (h : v ≤ w) :
    UpTo x y := ⟨v, w, hx, hy, h0, h⟩

theorem upTo_of_le (h0 : 0 ≤ x) (h : x ≤ y) (hy : y.isFinite = true) : UpTo x y := by
  obtain ⟨v, hv, hv0, hvw⟩ := exists_value_of_le hasValue_zero (hasValue_value hy) h0 h
  exact hv.upTo (hasValue_value hy) hv0 hvw

namespace UpTo

variable {z : Binary64}

theorem le (h : UpTo x y) : x ≤ y := by
  obtain ⟨v, w, hx, hy, -, hvw⟩ := h
  exact (hx.le_iff hy).2 hvw

theorem trans (h : UpTo x y) (h' : UpTo y z) : UpTo x z := by
  obtain ⟨v, w, hx, hy, h0, hvw⟩ := h
  obtain ⟨w', u, hy', hz, -, hwu⟩ := h'
  rw [← hy'.value_eq, hy.value_eq] at hwu
  exact hx.upTo hz h0 (hvw.trans hwu)

theorem self (h : UpTo x y) : UpTo x x := by
  obtain ⟨v, w, hx, -, h0, -⟩ := h
  exact hx.upTo hx h0 le_rfl

theorem zero (h : UpTo x y) : UpTo 0 x := by
  obtain ⟨v, w, hx, -, h0, -⟩ := h
  exact hasValue_zero.upTo hx le_rfl h0

theorem isFinite (h : UpTo x y) : x.isFinite = true := by
  obtain ⟨v, w, hx, -⟩ := h
  exact hx.isFinite

theorem total (h : UpTo x z) (h' : UpTo y z) : UpTo x y ∨ UpTo y x := by
  obtain ⟨v, -, hx, -, hv0, -⟩ := h
  obtain ⟨w, -, hy, -, hw0, -⟩ := h'
  rcases le_total v w with hvw | hwv
  · exact .inl (hx.upTo hy hv0 hvw)
  · exact .inr (hy.upTo hx hw0 hwv)

theorem lt_of_lt {x' y' : Binary64} (h : UpTo x' x) (hlt : x < y) (h' : UpTo y y') : x' < y' := by
  obtain ⟨v', v, hx', hx, -, hv⟩ := h
  obtain ⟨w, w', hy, hy', -, hw⟩ := h'
  have hvw : v < w := (hx.lt_iff hy).1 hlt
  exact (hx'.lt_iff hy').2 ((hv.trans_lt hvw).trans_le hw)

/-- **A quotient grows** with the number that is divided, and as the one that it is divided by gets
smaller. -/
theorem div {x' y' : Binary64} (h : UpTo x x') (h' : UpTo y' y) (hpositive : 0 < y')
    (hfinite : (x' / y').isFinite = true) : UpTo (x / y) (x' / y') := by
  obtain ⟨v, v', hx, hx', h0, hv⟩ := h
  obtain ⟨w', w, hy', hy, -, hw⟩ := h'
  have hw0 : 0 < w' := (hasValue_zero.lt_iff hy').1 hpositive
  have hround : IsRounding (x / y) (v / w) := hx.div hy (hw0.trans_le hw).ne'
  have hround' : IsRounding (x' / y') (v' / w') := hx'.div hy' hw0.ne'
  have hexact : v / w ≤ v' / w' := div_le_div₀ (h0.trans hv) hv hw0 hw
  have hquotient : 0 ≤ v / w := div_nonneg h0 (hw0.trans_le hw).le
  obtain ⟨u, hu, hu0, hle⟩ :=
    hround.exists_value_of_le hround' (hasValue_value hfinite) hquotient hexact
  exact hu.upTo (hasValue_value hfinite) hu0 hle

end UpTo

/-- The first number is up to the second one, and that is up to a whole number. -/
def Rising (x y : Binary64) (n : Nat) : Prop :=
  ∃ v w, HasValue x v ∧ HasValue y w ∧ 0 ≤ v ∧ v ≤ w ∧ w ≤ n

theorem rising_of_isRounding (hx : IsRounding x p) (hy : IsRounding y q) {n : Nat} (hn : n < 2 ^ 53)
    (h0 : 0 ≤ p) (h : p ≤ q) (hq : q ≤ n) : Rising x y n := by
  obtain ⟨v, hv, hv0, -⟩ :=
    hx.exists_between hasValue_zero (hasValue_ofNat hn) h0 (h.trans hq)
  obtain ⟨w, hw, -, hwn⟩ :=
    hy.exists_between hasValue_zero (hasValue_ofNat hn) (h0.trans h) hq
  exact ⟨v, w, hv, hw, hv0, hx.le_of_le hy hv hw h, hwn⟩

theorem HasValue.rising (h : HasValue x v) (h0 : 0 ≤ v) {n : Nat} (hn : v ≤ n) : Rising x x n :=
  ⟨v, v, h, h, h0, le_rfl, hn⟩

theorem rising_literal (m e : Nat) (h : m ≤ 10 ^ e) :
    Rising (OfScientific.ofScientific m true e) (OfScientific.ofScientific m true e) 1 := by
  obtain ⟨v, hv, h0, h1⟩ := exists_value_literal m e 0 1 (by omega) (by omega) (by decide)
  exact hv.rising (by exact_mod_cast h0) h1

theorem UpTo.rising_of_upTo (h : UpTo x y) (hy : UpTo y 1) : Rising x y 1 := by
  obtain ⟨v, w, hv, hw, h0, hvw⟩ := h
  refine ⟨v, w, hv, hw, h0, hvw, ?_⟩
  rw [Nat.cast_one]
  exact (hw.le_iff hasValue_one).1 hy.le

theorem upTo_one : UpTo 1 1 := hasValue_one.upTo hasValue_one zero_le_one le_rfl

theorem UpTo.rising (h : UpTo x 1) : Rising x 1 1 := h.rising_of_upTo upTo_one

namespace Rising

variable {x' y' z : Binary64} {m n : Nat}

theorem upTo (h : Rising x y n) : UpTo x y := by
  obtain ⟨v, w, hv, hw, h0, hvw, -⟩ := h
  exact hv.upTo hw h0 hvw

theorem bounded (h : Rising x y n) (hn : n < 2 ^ 53) : UpTo y (ofNat n) := by
  obtain ⟨v, w, hv, hw, h0, hvw, hwn⟩ := h
  exact hw.upTo (hasValue_ofNat hn) (h0.trans hvw) hwn

theorem add (h : Rising x y m) (h' : Rising x' y' n) (hbound : m + n < 2 ^ 53) :
    Rising (x + x') (y + y') (m + n) := by
  obtain ⟨v, w, hv, hw, h0, hvw, hwm⟩ := h
  obtain ⟨v', w', hv', hw', h0', hvw', hwn⟩ := h'
  refine rising_of_isRounding (hv.add hv') (hw.add hw') hbound (add_nonneg h0 h0')
    (add_le_add hvw hvw') ?_
  rw [Nat.cast_add]
  exact add_le_add hwm hwn

theorem mul (h : Rising x y m) (h' : Rising x' y' n) (hbound : m * n < 2 ^ 53) :
    Rising (x * x') (y * y') (m * n) := by
  obtain ⟨v, w, hv, hw, h0, hvw, hwm⟩ := h
  obtain ⟨v', w', hv', hw', h0', hvw', hwn⟩ := h'
  refine rising_of_isRounding (hv.mul hv') (hw.mul hw') hbound (mul_nonneg h0 h0')
    (mul_le_mul hvw hvw' h0' (h0.trans hvw)) ?_
  rw [Nat.cast_mul]
  exact mul_le_mul hwm hwn (h0'.trans hvw') (Nat.cast_nonneg m)

theorem div (h : Rising x y m) {d : Rat} (hz : HasValue z d) (hd : 0 < d) (hn : n < 2 ^ 53)
    (hbound : (m : Rat) ≤ n * d) : Rising (x / z) (y / z) n := by
  obtain ⟨v, w, hv, hw, h0, hvw, hwm⟩ := h
  refine rising_of_isRounding (hv.div hz hd.ne') (hw.div hz hd.ne') hn (div_nonneg h0 hd.le)
    (div_le_div_of_nonneg_right hvw hd.le) ?_
  rw [div_le_iff₀ hd]
  exact hwm.trans hbound

end Rising

/-! ### Choices -/

section Choice

theorem HasValue.isNan (h : HasValue x v) : x.isNan = false := by
  obtain ⟨s, m, rfl, -⟩ := h.exists_magnitude
  rfl

theorem HasValue.ne_nan (h : HasValue x v) : x ≠ nan := by
  rintro rfl
  cases h.isFinite

theorem IsRounding.ne_nan (h : IsRounding x q) : x ≠ nan := by
  obtain ⟨s, rfl, -⟩ := h
  rw [round_eq]
  split
  · exact nofun
  · exact nofun

theorem HasValue.le_eq (hx : HasValue x v) (hy : HasValue y w) : le x y = decide (v ≤ w) := by
  rw [Bool.eq_iff_iff, decide_eq_true_iff]
  exact hx.le_iff hy

theorem HasValue.sameAs_iff (hx : HasValue x v) (hy : HasValue y w) :
    x.sameAs y = true ↔ v = w := by
  rw [sameAs, hx.le_eq hy, hy.le_eq hx, Bool.and_eq_true, decide_eq_true_iff, decide_eq_true_iff]
  exact le_antisymm_iff.symm

theorem HasValue.larger (hx : HasValue x v) (hy : HasValue y w) :
    HasValue (x.larger y) (max v w) := by
  rw [Binary64.larger, hx.isNan, hx.le_eq hy, Bool.false_or]
  split
  · rename_i h
    rwa [max_eq_right (of_decide_eq_true h)]
  · rename_i h
    rwa [max_eq_left (not_le.1 fun hle => h (decide_eq_true hle)).le]

theorem HasValue.smaller (hx : HasValue x v) (hy : HasValue y w) :
    HasValue (x.smaller y) (min v w) := by
  rw [Binary64.smaller, hx.isNan, hy.le_eq hx, Bool.false_or]
  split
  · rename_i h
    rwa [min_eq_right (of_decide_eq_true h)]
  · rename_i h
    rwa [min_eq_left (not_le.1 fun hle => h (decide_eq_true hle)).le]

theorem HasValue.clamp {low high : Binary64} (hx : HasValue x v) (hlow : HasValue low p)
    (hhigh : HasValue high q) (h : p ≤ q) : HasValue (x.clamp low high) (max p (min q v)) := by
  unfold Binary64.clamp
  by_cases hv : x < low
  · have hback : ¬ high < low := by rwa [hhigh.lt_iff hlow, not_lt]
    simp only [hv, hback, if_true, if_false]
    have hvp := (hx.lt_iff hlow).1 hv
    rwa [max_eq_left ((min_le_right q v).trans hvp.le)]
  · simp only [hv, if_false]
    rw [hx.lt_iff hlow, not_lt] at hv
    split
    · rename_i hq
      have hqv := (hhigh.lt_iff hx).1 hq
      rwa [min_eq_left hqv.le, max_eq_right h]
    · rename_i hq
      rw [hhigh.lt_iff hx, not_lt] at hq
      rwa [min_eq_right hq, max_eq_right hv]

theorem HasValue.truncated_eq (h : HasValue x v) (h0 : 0 ≤ v) : x.truncated = ⌊v⌋₊ := by
  rw [truncated, h.value_eq, ← Nat.floor_div_eq_div (K := Rat), ← abs_eq_natAbs_div, abs_of_nonneg h0]

/-- The fraction of a number that is not below zero is what it is more than its whole part, if the
format has that. -/
theorem HasValue.fraction_of_rest (h : HasValue x v) (h0 : 0 ≤ v) (hy : HasValue y w)
    (hw : v - ⌊v⌋₊ = w) : HasValue x.fraction w := by
  have hw0 : 0 ≤ w := hw ▸ sub_nonneg.2 (Nat.floor_le h0)
  have hvalue := h.value_eq
  have htruncated := h.truncated_eq h0
  obtain ⟨s, m, rfl, hv⟩ := h.exists_magnitude
  unfold Binary64.fraction
  dsimp only
  rw [hvalue, htruncated]
  have hrest : v - (if s then -(⌊v⌋₊ : Rat) else ⌊v⌋₊) = w ∧ if s then w ≤ 0 else 0 ≤ w := by
    cases s with
    | false => exact ⟨hw, hw0⟩
    | true =>
      -- Below zero there is nothing but the zero with a sign.
      have hm := size_nonneg m
      rw [if_pos rfl] at hv
      obtain rfl : v = 0 := by linarith
      rw [Nat.floor_zero, Nat.cast_zero, sub_zero] at hw
      rw [← hw]
      norm_num
  rw [hrest.1]
  have hpart : HasValue (round s w) w := IsRounding.hasValue ⟨s, rfl, hrest.2⟩ hy
  rwa [if_neg (by rwa [hpart.lt_iff hasValue_zero, not_lt])]

/-- The fraction of a number up to one: only of one itself nothing is left. -/
theorem HasValue.fraction (h : HasValue x v) (h0 : 0 ≤ v) (h1 : v ≤ 1) :
    HasValue x.fraction (if v = 1 then 0 else v) := by
  split
  · rename_i hone
    refine h.fraction_of_rest h0 hasValue_zero ?_
    rw [hone, Nat.floor_one, Nat.cast_one, sub_self]
  · rename_i hne
    refine h.fraction_of_rest h0 h ?_
    rw [Nat.floor_eq_zero.2 (lt_of_le_of_ne h1 hne), Nat.cast_zero, sub_zero]

end Choice

/-! ### Errors -/

/-- What the rounding of a number up to eight is off by, at most. -/
def slip : Rat := 1 / 2 ^ 50

theorem slip_pos : 0 < slip := by
  unfold slip
  positivity

theorem slip_le : slip ≤ 1 / 10 ^ 12 := by
  norm_num [slip]

/-- The value of the number differs from a rational number by no more than an error. -/
def Near (x : Binary64) (v e : Rat) : Prop := ∃ u, HasValue x u ∧ |u - v| ≤ e

theorem HasValue.near (h : HasValue x v) : Near x v 0 := ⟨v, h, by simp⟩

theorem IsRounding.near (h : IsRounding x q) (hq : |q| ≤ 8) : Near x q slip := by
  obtain ⟨v, hv, -, herror⟩ := h.exists_value_of_abs_le (n := 8) (by decide) (by decide) hq
  refine ⟨v, hv, herror.trans (le_of_eq ?_)⟩
  norm_num [slip]

theorem IsRounding.near_between (hx : IsRounding x p) {low high : Binary64} (hlow : HasValue low v)
    (hhigh : HasValue high w) (hp : v ≤ p) (hp' : p ≤ w) (hbound : |p| ≤ 8) :
    ∃ u, HasValue x u ∧ v ≤ u ∧ u ≤ w ∧ |u - p| ≤ slip := by
  obtain ⟨u, hu, hvu, huw⟩ := hx.exists_between hlow hhigh hp hp'
  obtain ⟨u', hu', herror⟩ := hx.near hbound
  rw [← hu'.value_eq, hu.value_eq] at herror
  exact ⟨u, hu, hvu, huw, herror⟩

namespace Near

variable {e f : Rat}

theorem mono (h : Near x v e) (hef : e ≤ f) : Near x v f := by
  obtain ⟨u, hu, herror⟩ := h
  exact ⟨u, hu, herror.trans hef⟩

theorem nonneg (h : Near x v e) : 0 ≤ e := by
  obtain ⟨u, -, herror⟩ := h
  exact (abs_nonneg _).trans herror

theorem of_abs_le (h : Near x v e) (hvw : |v - w| ≤ f) : Near x w (e + f) := by
  obtain ⟨u, hu, herror⟩ := h
  exact ⟨u, hu, (abs_sub_le u v w).trans (add_le_add herror hvw)⟩

theorem neg (h : Near x v e) : Near (-x) (-v) e := by
  obtain ⟨u, hu, herror⟩ := h
  refine ⟨-u, hu.neg, ?_⟩
  rwa [← neg_sub', abs_neg]

theorem add (hx : Near x v e) (hy : Near y w f) (h : |v + w| + (e + f) ≤ 8) :
    Near (x + y) (v + w) (e + f + slip) := by
  obtain ⟨u, hu, herror⟩ := hx
  obtain ⟨u', hu', herror'⟩ := hy
  have hsum : |u + u' - (v + w)| ≤ e + f := by
    rw [add_sub_add_comm]
    exact (abs_add_le _ _).trans (add_le_add herror herror')
  have hbound : |u + u'| ≤ 8 := by
    have hsplit := abs_add_le (u + u' - (v + w)) (v + w)
    rw [sub_add_cancel] at hsplit
    linarith
  exact add_comm slip (e + f) ▸ ((hu.add hu').near hbound).of_abs_le hsum

theorem sub (hx : Near x v e) (hy : Near y w f) (h : |v - w| + (e + f) ≤ 8) :
    Near (x - y) (v - w) (e + f + slip) := by
  rw [sub_eq_add_neg] at h
  rw [sub_eq_add, sub_eq_add_neg]
  exact hx.add hy.neg h

theorem mul {a b : Rat} (hx : Near x v e) (hy : Near y w f) (ha : |v| + e ≤ a) (hb : |w| ≤ b)
    (hab : a * (b + f) ≤ 8) : Near (x * y) (v * w) (a * f + b * e + slip) := by
  have hf := hy.nonneg
  obtain ⟨u, hu, herror⟩ := hx
  obtain ⟨u', hu', herror'⟩ := hy
  have hsmall : |u| ≤ a := by
    have hsplit := abs_add_le (u - v) v
    rw [sub_add_cancel] at hsplit
    linarith
  have ha0 : 0 ≤ a := (abs_nonneg u).trans hsmall
  have hsmall' : |u'| ≤ b + f := by
    have hsplit := abs_add_le (u' - w) w
    rw [sub_add_cancel] at hsplit
    linarith
  have hproduct : |u * u' - v * w| ≤ a * f + b * e := by
    have hsplit : u * u' - v * w = u * (u' - w) + w * (u - v) := by ring
    rw [hsplit]
    refine (abs_add_le _ _).trans (add_le_add ?_ ?_)
    · rw [abs_mul]
      exact mul_le_mul hsmall herror' (abs_nonneg _) ha0
    · rw [abs_mul]
      exact mul_le_mul hb herror (abs_nonneg _) ((abs_nonneg w).trans hb)
  have hbound : |u * u'| ≤ 8 := by
    rw [abs_mul]
    exact (mul_le_mul hsmall hsmall' (abs_nonneg _) ha0).trans hab
  exact add_comm slip (a * f + b * e) ▸ ((hu.mul hu').near hbound).of_abs_le hproduct

end Near

end ColorTheme.Binary64
