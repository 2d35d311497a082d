import ColorTheme.Number.Power
import Mathlib.Data.Nat.Sqrt
import Mathlib.Tactic.Ring

/-!
# Square roots of whole numbers

A guess above the root comes at least half the way nearer in every step and never falls below, so the
search ends at the root itself.
-/

namespace ColorTheme

section improve

variable {n guess : Nat}

theorem sqrt_le_next (h : n.sqrt ≤ guess) : n.sqrt ≤ (guess + n / guess) / 2 := by
  rcases Nat.eq_zero_or_pos guess with rfl | hpos
  · omega
  · have hsquare : n.sqrt * n.sqrt ≤ n := Nat.sqrt_le n
    have hquotient : 2 * n.sqrt - guess ≤ n / guess := by
      rw [Nat.le_div_iff_mul_le hpos]
      refine le_trans ?_ hsquare
      obtain ⟨d, rfl⟩ := Nat.exists_eq_add_of_le h
      generalize n.sqrt = r
      have hdiff : 2 * r - (r + d) = r - d := by omega
      rw [hdiff]
      rcases Nat.le_total d r with hd | hd
      · obtain ⟨e, rfl⟩ := Nat.exists_eq_add_of_le hd
        rw [Nat.add_sub_cancel_left]
        have hexpand : (d + e) * (d + e) = e * (d + e + d) + d * d := by ring
        omega
      · rw [Nat.sub_eq_zero_of_le hd, Nat.zero_mul]
        exact Nat.zero_le _
    omega

theorem div_le_sqrt (h : n.sqrt < guess) : n / guess ≤ n.sqrt := by
  have hsquare : n < (n.sqrt + 1) * (n.sqrt + 1) := Nat.lt_succ_sqrt n
  have hquotient : n / (n.sqrt + 1) < n.sqrt + 1 := Nat.div_lt_of_lt_mul hsquare
  have hmono : n / guess ≤ n / (n.sqrt + 1) := Nat.div_le_div_left h (Nat.succ_pos _)
  omega

/-- **The search ends at the root**, if the distance can be halved often enough. -/
theorem improveRoot_eq (fuel : Nat) (h : n.sqrt ≤ guess) (hfuel : guess - n.sqrt < 2 ^ fuel) :
    improveRoot fuel n guess = n.sqrt := by
  induction fuel generalizing guess with
  | zero =>
    rw [improveRoot]
    omega
  | succ fuel ih =>
    have hnext := sqrt_le_next h
    rw [improveRoot]
    split
    · refine ih hnext ?_
      have hquotient : n / guess ≤ n.sqrt := div_le_sqrt (by omega)
      rw [Nat.pow_succ] at hfuel
      omega
    · -- Above the root the guess would have become smaller.
      by_contra hne
      have hquotient : n / guess ≤ n.sqrt := div_le_sqrt (by omega)
      omega

end improve

/-- **The root found is the whole part of the square root.** -/
theorem rootFloor_eq (n : Nat) : rootFloor n = n.sqrt := by
  have hguess : n.sqrt < Binary64.twoPow (n.log2 / 2 + 1) := by
    rw [Nat.sqrt_lt']
    have hlog : n < 2 ^ (n.log2 + 1) := Nat.lt_log2_self
    refine hlog.trans_le ?_
    have hsquare : Binary64.twoPow (n.log2 / 2 + 1) ^ 2 = 2 ^ (2 * (n.log2 / 2 + 1)) := by
      rw [Nat.mul_comm, Nat.pow_mul]
      rfl
    rw [hsquare]
    exact Nat.pow_le_pow_right two_pos (by omega)
  refine improveRoot_eq _ hguess.le ?_
  have hfuel : Binary64.twoPow (n.log2 / 2 + 1) < 2 ^ (n.log2 + 2) :=
    Nat.pow_lt_pow_right one_lt_two (by omega)
  omega

end ColorTheme
