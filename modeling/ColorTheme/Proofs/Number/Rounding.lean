import ColorTheme.Proofs.Number.Whole
import Mathlib.Algebra.Order.Floor.Semifield
import Mathlib.Algebra.Order.Ring.Unbundled.Rat
import Mathlib.Data.Rat.Floor
import Mathlib.Order.Monotone.Basic
import Mathlib.Tactic.FieldSimp
import Mathlib.Tactic.Linarith
import Mathlib.Tactic.Positivity
import Mathlib.Tactic.Ring

/-!
# Rounding

Rounding keeps the order of the numbers, leaves the numbers of the format where they are, and is off
by no more than half a quantum or the 2 ^ 53rd part of the number.  Everything is first said of
quanta, in natural numbers, and then of rational numbers.
-/

namespace ColorTheme.Binary64

/-! ### The nearest whole number -/

section RoundEven

variable (n : Nat) {d : Nat}

theorem le_roundEven (hd : 0 < d) : 2 * n ≤ (2 * roundEven n d + 1) * d := by
  have hn := Nat.div_add_mod n d
  have hr := Nat.mod_lt n hd
  have hq : (2 * (n / d) + 1) * d = 2 * (d * (n / d)) + d := by ring
  have hq' : (2 * (n / d + 1) + 1) * d = 2 * (d * (n / d)) + 3 * d := by ring
  unfold roundEven
  dsimp only
  split
  · omega
  · split
    · omega
    · rcases Nat.mod_two_eq_zero_or_one (n / d) with h | h <;> rw [h]
      · simp only [Nat.add_zero]
        omega
      · omega

theorem roundEven_le (hd : 0 < d) : 2 * roundEven n d * d ≤ 2 * n + d := by
  have hn := Nat.div_add_mod n d
  have hr := Nat.mod_lt n hd
  have hq : 2 * (n / d) * d = 2 * (d * (n / d)) := by ring
  have hq' : 2 * (n / d + 1) * d = 2 * (d * (n / d)) + 2 * d := by ring
  unfold roundEven
  dsimp only
  split
  · omega
  · split
    · omega
    · rcases Nat.mod_two_eq_zero_or_one (n / d) with h | h <;> rw [h]
      · rw [Nat.add_zero]
        omega
      · omega

theorem even_of_tie {n q : Nat} (hd : 0 < d) (h : 2 * n = (2 * q + 1) * d) :
    roundEven n d % 2 = 0 := by
  have hn := Nat.div_add_mod n d
  have hr := Nat.mod_lt n hd
  have hq : (2 * q + 1) * d = 2 * (d * q) + d := by ring
  have hdiv : n / d = q := by
    refine Nat.div_eq_of_lt_le ?_ ?_
    · rw [Nat.mul_comm q d]
      omega
    · rw [Nat.add_mul, Nat.mul_comm q d]
      omega
  unfold roundEven
  dsimp only
  rw [hdiv] at hn ⊢
  rw [if_neg (by omega), if_neg (by omega)]
  omega

theorem roundEven_mono {n n' d d' : Nat} (hd : 0 < d) (hd' : 0 < d') (h : n * d' ≤ n' * d) :
    roundEven n d ≤ roundEven n' d' := by
  by_contra hlt
  rw [Nat.not_le] at hlt
  generalize hR : roundEven n d = R at hlt
  generalize hR' : roundEven n' d' = R' at hlt
  have hlow := roundEven_le n hd
  have hhigh := le_roundEven n' hd'
  rw [hR] at hlow
  rw [hR'] at hhigh
  -- Both numbers are on the middle between `R'` and the next one, so both results are even.
  have hstep : (2 * R' + 1) * d + 2 * (R - R' - 1) * d ≤ 2 * n := by
    have hsplit : 2 * R * d = (2 * R' + 1) * d + 2 * (R - R' - 1) * d + d := by
      rw [← Nat.add_mul, ← Nat.succ_mul]
      congr 1
      omega
    omega
  have hcross : (2 * R' + 1) * d * d' ≤ 2 * n * d' := Nat.mul_le_mul_right d' (by omega)
  have hcross' : 2 * n' * d ≤ (2 * R' + 1) * d' * d := Nat.mul_le_mul_right d hhigh
  have hbetween : 2 * n * d' ≤ 2 * n' * d := by
    rw [Nat.mul_assoc, Nat.mul_assoc]
    exact Nat.mul_le_mul_left 2 h
  have hsame : (2 * R' + 1) * d' * d = (2 * R' + 1) * d * d' := by ring
  have htie : 2 * n = (2 * R' + 1) * d := Nat.eq_of_mul_eq_mul_right hd' (by omega)
  have htie' : 2 * n' = (2 * R' + 1) * d' := Nat.eq_of_mul_eq_mul_right hd (by omega)
  have heven := even_of_tie hd htie
  have heven' := even_of_tie hd' htie'
  rw [hR] at heven
  rw [hR'] at heven'
  have hnext : 2 * (R - R' - 1) * d = 0 := by omega
  have hone : R - R' - 1 = 0 := by
    rcases Nat.mul_eq_zero.1 hnext with h0 | h0 <;> omega
  omega

end RoundEven

/-! ### Quanta of magnitudes -/

/-- A magnitude is a number of doublings and a significand, which is full if there are doublings. -/
theorem exists_significand (m : Nat) :
    ∃ k q, m = k * binade + q ∧ q < 2 * binade ∧ (k = 0 ∨ binade ≤ q) := by
  refine ⟨doublings m, m - doublings m * binade, ?_, ?_, ?_⟩ <;>
    · unfold doublings
      unfold binade
      omega

theorem quanta_add {k q : Nat} (hq : q ≤ 2 * binade) (hfull : k = 0 ∨ binade ≤ q) :
    quanta (k * binade + q) = q * twoPow k := by
  rcases Nat.lt_or_ge q binade with hlow | hlow
  · obtain rfl : k = 0 := hfull.resolve_right (by omega)
    have hdoublings : doublings (0 * binade + q) = 0 := by
      unfold doublings
      unfold binade at *
      omega
    rw [quanta, hdoublings]
    simp
  · rcases Nat.lt_or_eq_of_le hq with hhigh | rfl
    · exact quanta_of_significand k hlow hhigh
    · -- Two full binades are one with one more doubling.
      have hsum : k * binade + 2 * binade = (k + 1) * binade + binade := by ring
      rw [hsum, quanta_of_significand (k + 1) le_rfl (by decide), twoPow_add]
      have htwo : twoPow 1 = 2 := rfl
      rw [htwo]
      ring

theorem quanta_strictMono : StrictMono quanta := by
  refine strictMono_nat_of_lt_succ fun m => ?_
  obtain ⟨k, q, rfl, hq, hfull⟩ := exists_significand m
  have hnext : k = 0 ∨ binade ≤ q + 1 := hfull.imp_right fun h => by omega
  rw [Nat.add_assoc, quanta_add (by omega) hfull, quanta_add (by omega) hnext]
  exact Nat.mul_lt_mul_of_pos_right (Nat.lt_succ_self q) (twoPow_pos k)

/-! ### The nearest magnitude -/

section Nearest

variable (n : Nat) {d : Nat}

/-- The doublings of a quotient in quanta. -/
def shift (n d : Nat) : Nat := (n / d).log2 - 52

theorem nearestMagnitude_eq (d : Nat) :
    nearestMagnitude n d = shift n d * binade + roundEven n (d * twoPow (shift n d)) := rfl

theorem lt_of_shift (hd : 0 < d) : n < d * twoPow (53 + shift n d) := by
  have hlog : n / d < 2 ^ ((n / d).log2 + 1) := Nat.lt_log2_self
  have hpow : 2 ^ ((n / d).log2 + 1) ≤ 2 ^ (53 + shift n d) :=
    Nat.pow_le_pow_right (by decide) (by unfold shift; omega)
  rw [Nat.mul_comm]
  exact (Nat.div_lt_iff_lt_mul hd).1 (hlog.trans_le hpow)

theorem le_of_shift {n d : Nat} (hd : 0 < d) (hshift : shift n d ≠ 0) :
    d * twoPow (52 + shift n d) ≤ n := by
  have hlog : (n / d).log2 = 52 + shift n d := by
    unfold shift at *
    omega
  have hne : n / d ≠ 0 := by
    intro h0
    rw [h0, Nat.log2_zero] at hlog
    omega
  have hpow := Nat.log2_self_le hne
  rw [hlog] at hpow
  rw [Nat.mul_comm]
  exact (Nat.le_div_iff_mul_le hd).1 hpow

theorem significand_nearest (hd : 0 < d) :
    roundEven n (d * twoPow (shift n d)) ≤ 2 * binade ∧
      (shift n d = 0 ∨ binade ≤ roundEven n (d * twoPow (shift n d))) := by
  generalize hk : shift n d = k
  generalize hD : d * twoPow k = D
  have hpos : 0 < D := hD ▸ Nat.mul_pos hd (twoPow_pos k)
  have hscale (j : Nat) : d * twoPow (j + k) = twoPow j * D := by
    rw [twoPow_add, ← hD]
    ring
  have hlow := le_roundEven n hpos
  have hhigh := roundEven_le n hpos
  generalize roundEven n D = R at *
  constructor
  · have hlt := lt_of_shift n hd
    rw [hk, hscale] at hlt
    have hR : 2 * R * D < (2 * twoPow 53 + 1) * D := by
      rw [Nat.add_mul, Nat.one_mul, Nat.mul_assoc 2 (twoPow 53)]
      omega
    have := Nat.lt_of_mul_lt_mul_right hR
    have hpow : twoPow 53 = 2 * binade := rfl
    omega
  · rcases Nat.eq_zero_or_pos k with h0 | hkpos
    · exact .inl h0
    · right
      have hle := le_of_shift hd (show shift n d ≠ 0 by omega)
      rw [hk, hscale] at hle
      have hR : 2 * twoPow 52 * D ≤ (2 * R + 1) * D := by
        rw [Nat.mul_assoc]
        omega
      have := Nat.le_of_mul_le_mul_right hR hpos
      have hpow : twoPow 52 = binade := rfl
      omega

theorem quanta_nearestMagnitude (hd : 0 < d) : quanta (nearestMagnitude n d) =
    roundEven n (d * twoPow (shift n d)) * twoPow (shift n d) := by
  obtain ⟨hle, hfull⟩ := significand_nearest n hd
  rw [nearestMagnitude_eq, quanta_add hle hfull]

/-- The nearest magnitude is off by half of the spacing at most. -/
theorem nearest_error (hd : 0 < d) :
    2 * n ≤ 2 * (quanta (nearestMagnitude n d) * d) + d * twoPow (shift n d) ∧
      2 * (quanta (nearestMagnitude n d) * d) ≤ 2 * n + d * twoPow (shift n d) := by
  have hpos : 0 < d * twoPow (shift n d) := Nat.mul_pos hd (twoPow_pos _)
  have hlow := le_roundEven n hpos
  have hhigh := roundEven_le n hpos
  rw [quanta_nearestMagnitude n hd]
  generalize roundEven n (d * twoPow (shift n d)) = R at *
  generalize twoPow (shift n d) = t at *
  have hexpand : (2 * R + 1) * (d * t) = 2 * (R * t * d) + d * t := by ring
  have hexpand' : 2 * R * (d * t) = 2 * (R * t * d) := by ring
  omega

theorem nearestMagnitude_mono {n n' d d' : Nat} (hd : 0 < d) (hd' : 0 < d')
    (h : n * d' ≤ n' * d) : nearestMagnitude n d ≤ nearestMagnitude n' d' := by
  have hdiv : n / d ≤ n' / d' := by
    rw [Nat.le_div_iff_mul_le hd']
    refine Nat.le_of_mul_le_mul_right (h.trans' ?_) hd
    calc n / d * d' * d = n / d * d * d' := Nat.mul_right_comm _ _ _
      _ ≤ n * d' := Nat.mul_le_mul_right d' (Nat.div_mul_le_self n d)
  have hshift : shift n d ≤ shift n' d' := by
    rcases Nat.eq_zero_or_pos (n / d) with h0 | hpos
    · unfold shift
      rw [h0]
      simp
    · have hlog : (n / d).log2 ≤ (n' / d').log2 :=
        (Nat.le_log2 (by omega)).2 ((Nat.log2_self_le (by omega)).trans hdiv)
      unfold shift
      omega
  obtain ⟨hle, -⟩ := significand_nearest n hd
  obtain ⟨-, hfull⟩ := significand_nearest n' hd'
  rw [nearestMagnitude_eq, nearestMagnitude_eq]
  rcases Nat.lt_or_eq_of_le hshift with hlt | heq
  · -- One more doubling is above everything below it.
    have hfull := hfull.resolve_left (by omega)
    have hbinades : (shift n d + 1) * binade ≤ shift n' d' * binade :=
      Nat.mul_le_mul_right _ hlt
    rw [Nat.add_mul, Nat.one_mul] at hbinades
    omega
  · rw [heq]
    refine Nat.add_le_add_left (roundEven_mono (Nat.mul_pos hd (twoPow_pos _))
      (Nat.mul_pos hd' (twoPow_pos _)) ?_) _
    calc n * (d' * twoPow (shift n' d')) = n * d' * twoPow (shift n' d') := by ring
      _ ≤ n' * d * twoPow (shift n' d') := Nat.mul_le_mul_right _ h
      _ = n' * (d * twoPow (shift n' d')) := by ring

end Nearest

/-! ### Rational numbers -/

/-- The exact value of a magnitude. -/
def size (m : Nat) : Rat := quanta m / quantaPerOne

/-- The magnitude nearest to a rational number without its sign. -/
def magnitudeOf (q : Rat) : Nat := nearestMagnitude (q.num.natAbs * quantaPerOne) q.den

theorem quantaPerOne_pos : (0 : Rat) < quantaPerOne := Nat.cast_pos.2 (twoPow_pos 1074)

theorem value_finite (negative : Bool) (m : Fin magnitudeCount) :
    value (.finite negative m) = if negative then -size m else size m := by
  have hsize : mkRat (quanta m) quantaPerOne = size m := by
    rw [Rat.mkRat_eq_div, Int.cast_natCast, size]
  cases negative
  · exact hsize
  · exact congrArg Neg.neg hsize

theorem size_strictMono : StrictMono size := by
  intro m m' h
  have hlt : (quanta m : Rat) < quanta m' := Nat.cast_lt.2 (quanta_strictMono h)
  exact div_lt_div_of_pos_right hlt quantaPerOne_pos

theorem size_zero : size 0 = 0 := by
  rw [size, quanta, Nat.zero_sub, Nat.zero_mul, Nat.cast_zero, zero_div]

theorem size_nonneg (m : Nat) : 0 ≤ size m :=
  div_nonneg (Nat.cast_nonneg _) quantaPerOne_pos.le

theorem abs_eq_natAbs_div (q : Rat) : |q| = q.num.natAbs / q.den := by
  rw [Rat.abs_def, Rat.divInt_eq_div, Int.cast_natCast, Int.cast_natCast]

/-- **Rounding keeps the order.** -/
theorem magnitudeOf_mono {p q : Rat} (h : |p| ≤ |q|) : magnitudeOf p ≤ magnitudeOf q := by
  have hp : (0 : Rat) < p.den := Nat.cast_pos.2 p.den_pos
  have hq : (0 : Rat) < q.den := Nat.cast_pos.2 q.den_pos
  rw [abs_eq_natAbs_div, abs_eq_natAbs_div, div_le_div_iff₀ hp hq] at h
  have h : p.num.natAbs * q.den ≤ q.num.natAbs * p.den := by exact_mod_cast h
  refine nearestMagnitude_mono p.den_pos q.den_pos ?_
  rw [Nat.mul_right_comm, Nat.mul_right_comm q.num.natAbs]
  exact Nat.mul_le_mul_right _ h

/-- **A number of the format stays where it is.** -/
theorem magnitudeOf_size (m : Nat) : magnitudeOf (size m) = m := by
  have hden : ((size m).den : Rat) ≠ 0 := Nat.cast_ne_zero.2 (size m).den_ne_zero
  have hquotient : ((size m).num.natAbs : Rat) / (size m).den = quanta m / quantaPerOne := by
    rw [← abs_eq_natAbs_div, abs_of_nonneg (size_nonneg m), size]
  rw [div_eq_div_iff hden quantaPerOne_pos.ne', ← Nat.cast_mul, ← Nat.cast_mul,
    Nat.cast_inj] at hquotient
  rw [magnitudeOf, hquotient, nearestMagnitude_quanta m (size m).den_pos]

theorem magnitudeOf_le {q : Rat} {m : Nat} (h : |q| ≤ size m) : magnitudeOf q ≤ m := by
  rw [← magnitudeOf_size m]
  exact magnitudeOf_mono (by rwa [abs_of_nonneg (size_nonneg m)])

theorem le_magnitudeOf {q : Rat} {m : Nat} (h : size m ≤ |q|) : m ≤ magnitudeOf q := by
  rw [← magnitudeOf_size m]
  exact magnitudeOf_mono (by rwa [abs_of_nonneg (size_nonneg m)])

theorem twoPow_le_twoPow {j k : Nat} (h : j ≤ k) : twoPow j ≤ twoPow k :=
  Nat.pow_le_pow_right two_pos h

theorem cast_twoPow (k : Nat) : ((twoPow k : Nat) : Rat) = 2 ^ k := Nat.cast_pow 2 k

/-- In quanta, the nearest magnitude is off by a half or by the 2 ^ 53rd part at most. -/
theorem abs_quanta_sub_le (n : Nat) {d : Nat} (hd : 0 < d) :
    |(quanta (nearestMagnitude n d) : Rat) - n / d| ≤ max ((n : Rat) / d / 2 ^ 53) (1 / 2) := by
  obtain ⟨hlow, hhigh⟩ := nearest_error n hd
  have hcases : shift n d = 0 ∨ d * twoPow (52 + shift n d) ≤ n :=
    or_iff_not_imp_left.2 (le_of_shift hd)
  generalize quanta (nearestMagnitude n d) = Q at *
  generalize shift n d = k at *
  have hd : (0 : Rat) < d := Nat.cast_pos.2 hd
  have hlow : (2 : Rat) * n ≤ 2 * (Q * d) + d * twoPow k := by exact_mod_cast hlow
  have hhigh : (2 : Rat) * (Q * d) ≤ 2 * n + d * twoPow k := by exact_mod_cast hhigh
  have hdist : |(Q : Rat) - n / d| ≤ twoPow k / 2 := by
    have hn : (n : Rat) / d * d = n := div_mul_cancel₀ _ hd.ne'
    rw [abs_le]
    constructor
    · refine le_of_mul_le_mul_right ?_ hd
      rw [sub_mul, hn]
      linarith
    · refine le_of_mul_le_mul_right ?_ hd
      rw [sub_mul, hn]
      linarith
  refine hdist.trans ?_
  rcases hcases with rfl | hscale
  · exact le_max_of_le_right (by rw [Nat.cast_one])
  · refine le_max_of_le_left ?_
    have hscale : (d : Rat) * twoPow (52 + k) ≤ n := by exact_mod_cast hscale
    rw [cast_twoPow, pow_add] at hscale
    rw [cast_twoPow, div_div, div_le_div_iff₀ two_pos (by positivity)]
    linarith

/-- **Rounding is off by half a quantum, or by the 2 ^ 53rd part of the number, at most.** -/
theorem abs_size_sub_le {q : Rat} (hq : 0 ≤ q) :
    |size (magnitudeOf q) - q| ≤ max (q / 2 ^ 53) (1 / 2 / (quantaPerOne : Rat)) := by
  have hU := quantaPerOne_pos
  have herror := abs_quanta_sub_le (q.num.natAbs * quantaPerOne) q.den_pos
  have hquanta : ((q.num.natAbs * quantaPerOne : Nat) : Rat) / q.den = q * quantaPerOne := by
    have hquotient := abs_eq_natAbs_div q
    rw [abs_of_nonneg hq] at hquotient
    rw [Nat.cast_mul, mul_div_right_comm, ← hquotient]
  rw [hquanta] at herror
  rw [size, magnitudeOf]
  generalize quanta (nearestMagnitude (q.num.natAbs * quantaPerOne) q.den) = Q at *
  generalize quantaPerOne = U at *
  have hsplit : (Q : Rat) / U - q = (Q - q * U) / U := by
    rw [sub_div, mul_div_cancel_right₀ _ hU.ne']
  have hbound : q / 2 ^ 53 = q * U / 2 ^ 53 / U := by
    rw [div_right_comm, mul_div_cancel_right₀ _ hU.ne']
  rw [hsplit, abs_div, abs_of_pos hU, hbound, max_div_div_right hU.le]
  exact div_le_div_of_nonneg_right herror hU.le

/-! ### Rounded numbers -/

theorem round_eq (negative : Bool) (q : Rat) : round negative q =
    if h : magnitudeOf q < magnitudeCount then .finite negative ⟨magnitudeOf q, h⟩
    else .infinite negative := rfl

theorem round_size (negative : Bool) (m : Fin magnitudeCount) :
    round negative (size m) = .finite negative m := by
  rw [round_eq, dif_pos (by rw [magnitudeOf_size]; exact m.isLt)]
  congr 1
  exact Fin.ext (magnitudeOf_size m)

theorem exists_size_eq {n : Nat} (hn : n < 2 ^ 53) :
    ∃ m : Fin magnitudeCount, size m = n ∧ ∀ negative, round negative n = .finite negative m := by
  obtain ⟨m, hm, hquanta⟩ := exists_quanta hn
  have hsize : size m = n := by
    have hU := quantaPerOne_pos
    simp only [size, hquanta, Nat.cast_mul]
    generalize quantaPerOne = U at *
    exact mul_div_cancel_right₀ _ hU.ne'
  refine ⟨⟨m, hm⟩, hsize, fun negative => ?_⟩
  rw [← hsize]
  exact round_size negative ⟨m, hm⟩

theorem half_quantum_le : 1 / 2 / (quantaPerOne : Rat) ≤ 1 / 2 ^ 53 := by
  have hU : ((twoPow 53 : Nat) : Rat) ≤ quantaPerOne :=
    Nat.cast_le.2 (twoPow_le_twoPow (show 53 ≤ 1074 by decide))
  rw [cast_twoPow] at hU
  generalize quantaPerOne = U at *
  have hpos : (0 : Rat) < 2 ^ 53 := by positivity
  rw [div_div]
  exact div_le_div_of_nonneg_left zero_le_one hpos (by linarith)

theorem abs_size_sub_le_of_le {q : Rat} {n : Nat} (hpos : 0 < n) (h0 : 0 ≤ q) (hq : q ≤ n) :
    |size (magnitudeOf q) - q| ≤ n / 2 ^ 53 := by
  refine (abs_size_sub_le h0).trans (max_le ?_ ?_)
  · exact div_le_div_of_nonneg_right hq (by positivity)
  · exact half_quantum_le.trans
      (div_le_div_of_nonneg_right (Nat.one_le_cast.2 hpos) (by positivity))

end ColorTheme.Binary64
