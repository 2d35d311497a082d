import ColorTheme.Proofs.Number.Arithmetic
import ColorTheme.Proofs.Number.Root
import ColorTheme.Proofs.Number.Shortest
import ColorTheme.Proofs.Number.Nearness

/-!
# Powers of numbers up to one

A power of a number from zero to one stays in that range: the enclosure from below does, at every
precision, and rounding keeps the order.
-/

namespace ColorTheme.Binary64

/-! ### Enclosures from below -/

theorem powerFloor_le {unit base : Nat} (hbase : base ≤ unit) (digits : List Bool) :
    powerFloor unit base digits ≤ unit := by
  have hstep (r : Nat) (hr : r ≤ unit) :
      digits.foldl (fun r digit => rootFloor (r * if digit then base else unit)) r ≤ unit := by
    induction digits generalizing r with
    | nil => exact hr
    | cons digit digits ih =>
      refine ih _ ?_
      beta_reduce
      rw [rootFloor_eq]
      have hfactor : (if digit then base else unit) ≤ unit := by
        split
        · exact hbase
        · exact le_rfl
      calc (r * if digit then base else unit).sqrt ≤ (unit * unit).sqrt :=
            Nat.sqrt_le_sqrt (Nat.mul_le_mul hr hfactor)
        _ = unit := Nat.sqrt_eq unit
  exact hstep unit le_rfl

theorem mkRat_mem_unit {n d : Nat} (h : n ≤ d) : 0 ≤ mkRat n d ∧ mkRat n d ≤ 1 := by
  rw [Rat.mkRat_eq_div, Int.cast_natCast]
  exact ⟨by positivity, div_le_one_of_le₀ (Nat.cast_le.2 h) (Nat.cast_nonneg d)⟩

theorem powerBounds_mem_unit {x : Rat} (hx : x.num.natAbs ≤ x.den) (precision whole : Nat)
    (digits : List Bool) :
    0 ≤ (powerBounds precision x whole digits).1 ∧
      (powerBounds precision x whole digits).1 ≤ 1 := by
  have hbase : x.num.natAbs * twoPow precision / x.den ≤ twoPow precision := by
    refine Nat.div_le_of_le_mul ?_
    exact Nat.mul_le_mul_right _ hx
  obtain ⟨hroot, hroot'⟩ := mkRat_mem_unit (powerFloor_le hbase digits)
  obtain ⟨hpower, hpower'⟩ := mkRat_mem_unit (Nat.pow_le_pow_left hx whole)
  exact ⟨mul_nonneg hroot hpower, mul_le_one₀ hroot' hpower hpower'⟩

/-! ### Powers -/

theorem isRounding_ofRat {q : Rat} (hq : 0 ≤ q) : IsRounding (ofRat q) q := by
  have hsign : decide (q < 0) = false := decide_eq_false (not_lt.2 hq)
  exact ⟨false, by rw [ofRat, hsign], hq⟩

/-- The enclosure of the power of a number, at a given precision. -/
def enclosure (precision : Nat) (v : Rat) (y : Binary64) : Rat × Rat :=
  powerBounds precision v (y.value.num.natAbs / y.value.den)
    (binaryDigits y.value.den.log2 (y.value.num.natAbs % y.value.den))

theorem enclosure_mem_unit {v : Rat} (h0 : 0 ≤ v) (h1 : v ≤ 1) (precision : Nat) (y : Binary64) :
    0 ≤ (enclosure precision v y).1 ∧ (enclosure precision v y).1 ≤ 1 := by
  refine powerBounds_mem_unit ?_ _ _ _
  have habs := abs_eq_natAbs_div v
  rw [abs_of_nonneg h0] at habs
  rw [habs, div_le_one (Nat.cast_pos.2 v.den_pos)] at h1
  exact_mod_cast h1

section Power

variable {x : Binary64} {v : Rat}

theorem power_of_zero (hx : HasValue x 0) (y : Binary64) : HasValue (x.power y) 0 := by
  obtain ⟨s, m, rfl, hv⟩ := hx.exists_magnitude
  have hm : m.val = 0 := by
    have hsize : size m = 0 := by
      split at hv <;> linarith
    rw [← magnitudeOf_size m, hsize, ← size_zero, magnitudeOf_size]
  unfold power
  dsimp only
  rw [if_pos hm]
  exact ⟨rfl, by rw [zero, value_finite, size_zero]; rfl⟩

theorem exists_positive (hx : HasValue x v) (h0 : 0 < v) :
    ∃ m : Fin magnitudeCount, x = .finite false m ∧ m.val ≠ 0 := by
  obtain ⟨s, m, rfl, hv⟩ := hx.exists_magnitude
  have hsize := size_nonneg m
  cases s with
  | true =>
    rw [if_pos rfl] at hv
    linarith
  | false =>
    refine ⟨m, rfl, fun hm => ?_⟩
    rw [if_neg Bool.false_ne_true, hm, size_zero] at hv
    exact h0.ne hv

theorem power_of_pos (hx : HasValue x v) (h0 : 0 < v) (y : Binary64) :
    x.power y = if v = 1 then x else
      (powerPrecisions.findSome? (powerAt? v (y.value.num.natAbs / y.value.den)
        (binaryDigits y.value.den.log2 (y.value.num.natAbs % y.value.den)))).getD
        (ofRat (enclosure 2048 v y).1) := by
  have hvalue := hx.value_eq
  obtain ⟨m, rfl, hm⟩ := exists_positive hx h0
  unfold power
  dsimp only
  rw [if_neg hm, if_neg Bool.false_ne_true, hvalue, enclosure]

theorem eq_ofRat_of_powerAt? {whole precision : Nat} {digits : List Bool} {z : Binary64}
    (h : powerAt? v whole digits precision = some z) :
    z = ofRat (powerBounds precision v whole digits).1 ∧
      ofRat (powerBounds precision v whole digits).1 =
        ofRat (powerBounds precision v whole digits).2 := by
  obtain ⟨hsame, hlow⟩ := Option.ite_none_right_eq_some.1 h
  exact ⟨(Option.some.inj hlow).symm, hsame⟩

/-- **A power is an enclosure from below, rounded**: at the last precision, or at one where the enclosure
from above is rounded to the same number. -/
theorem exists_precision (hx : HasValue x v) (h0 : 0 < v) (h1 : v ≠ 1) (y : Binary64) :
    ∃ precision ≤ 2048, x.power y = ofRat (enclosure precision v y).1 ∧
      (precision = 2048 ∨ ofRat (enclosure precision v y).1 = ofRat (enclosure precision v y).2) := by
  rw [power_of_pos hx h0, if_neg h1]
  generalize hfound : powerPrecisions.findSome? _ = found
  cases found with
  | none => exact ⟨2048, le_rfl, by rw [Option.getD_none], .inl rfl⟩
  | some z =>
    obtain ⟨precision, hmem, hz⟩ := List.exists_of_findSome?_eq_some hfound
    obtain ⟨rfl, hsame⟩ := eq_ofRat_of_powerAt? hz
    have hrange : ∀ p ∈ powerPrecisions, p ≤ 2048 := by decide
    exact ⟨precision, hrange _ hmem, by rw [Option.getD_some, enclosure], .inr hsame⟩

/-- **A power of a number from zero to one** is from zero to one. -/
theorem exists_value_power (hx : HasValue x v) (h0 : 0 ≤ v) (h1 : v ≤ 1) (y : Binary64) :
    ∃ w, HasValue (x.power y) w ∧ 0 ≤ w ∧ w ≤ 1 := by
  rcases h0.eq_or_lt with rfl | hpos
  · exact ⟨0, power_of_zero hx y, le_rfl, zero_le_one⟩
  by_cases hone : v = 1
  · rw [power_of_pos hx hpos, if_pos hone]
    exact ⟨v, hx, h0, h1⟩
  · obtain ⟨precision, -, hpower, -⟩ := exists_precision hx hpos hone y
    obtain ⟨hlow, hhigh⟩ := enclosure_mem_unit h0 h1 precision y
    obtain ⟨w, hw, hw0, hw1, -⟩ := (isRounding_ofRat hlow).exists_value (n := 1) Nat.one_pos
      (by decide) hlow (by simpa using hhigh)
    rw [hpower]
    exact ⟨w, hw, hw0, by simpa using hw1⟩

end Power

/-! ### The order of enclosures

Each root keeps the order of what it is taken of, so a longer fold keeps it as well.  Bounds from below
are compared in units of which the finer one divides the coarser one; a bound from below and one from
above in any units. -/

section Order

variable {unit unit' base base' : Nat}

theorem powerFloor_mul_le {k : Nat} (hunit : unit * k = unit') (hbase : base * k ≤ base')
    (digits : List Bool) : powerFloor unit base digits * k ≤ powerFloor unit' base' digits := by
  refine List.foldl_rel (r := fun r r' => r * k ≤ r') hunit.le fun digit _ r r' hr => ?_
  have hfactor : (if digit then base else unit) * k ≤ if digit then base' else unit' := by
    cases digit
    · exact hunit.le
    · exact hbase
  generalize (if digit then base else unit) = factor at *
  generalize (if digit then base' else unit') = factor' at *
  rw [rootFloor_eq, rootFloor_eq, Nat.le_sqrt']
  calc ((r * factor).sqrt * k) ^ 2 = (r * factor).sqrt ^ 2 * k ^ 2 := Nat.mul_pow _ _ _
    _ ≤ r * factor * k ^ 2 := Nat.mul_le_mul_right _ (Nat.sqrt_le' _)
    _ = r * k * (factor * k) := by ring
    _ ≤ r' * factor' := Nat.mul_le_mul hr hfactor

theorem powerFloor_mul_le_powerCeil_mul (hbase : base * unit' ≤ base' * unit)
    (digits : List Bool) :
    powerFloor unit base digits * unit' ≤ powerCeil unit' base' digits * unit := by
  refine List.foldl_rel (r := fun r r' => r * unit' ≤ r' * unit) (Nat.mul_comm _ _).le
    fun digit _ r r' hr => ?_
  have hfactor : (if digit then base else unit) * unit' ≤ (if digit then base' else unit') * unit := by
    cases digit
    · exact (Nat.mul_comm _ _).le
    · exact hbase
  generalize (if digit then base else unit) = factor at *
  generalize (if digit then base' else unit') = factor' at *
  rw [rootFloor_eq, rootFloor_eq]
  refine (Nat.pow_le_pow_iff_left two_ne_zero).1 ?_
  calc ((r * factor).sqrt * unit') ^ 2 = (r * factor).sqrt ^ 2 * unit' ^ 2 := Nat.mul_pow _ _ _
    _ ≤ r * factor * unit' ^ 2 := Nat.mul_le_mul_right _ (Nat.sqrt_le' _)
    _ = r * unit' * (factor * unit') := by ring
    _ ≤ r' * unit * (factor' * unit) := Nat.mul_le_mul hr hfactor
    _ = r' * factor' * unit ^ 2 := by ring
    _ ≤ ((r' * factor').sqrt + 1) ^ 2 * unit ^ 2 :=
      Nat.mul_le_mul_right _ (Nat.lt_succ_sqrt' _).le
    _ = (((r' * factor').sqrt + 1) * unit) ^ 2 := (Nat.mul_pow _ _ _).symm

end Order

theorem mkRat_le_mkRat {n d n' d' : Nat} (hd : 0 < d) (hd' : 0 < d') (h : n * d' ≤ n' * d) :
    mkRat n d ≤ mkRat n' d' := by
  rw [Rat.mkRat_eq_div, Rat.mkRat_eq_div, div_le_div_iff₀ (Nat.cast_pos.2 hd) (Nat.cast_pos.2 hd')]
  exact_mod_cast h

theorem mkRat_nonneg (n d : Nat) : 0 ≤ mkRat n d := by
  rw [Rat.mkRat_eq_div]
  positivity

section Bounds

variable {v w : Rat}

theorem num_mul_den_le (h0 : 0 ≤ v) (h : v ≤ w) : v.num.natAbs * w.den ≤ w.num.natAbs * v.den := by
  have hv := abs_eq_natAbs_div v
  have hw := abs_eq_natAbs_div w
  rw [abs_of_nonneg h0] at hv
  rw [abs_of_nonneg (h0.trans h)] at hw
  rw [hv, hw, div_le_div_iff₀ (Nat.cast_pos.2 v.den_pos) (Nat.cast_pos.2 w.den_pos)] at h
  exact_mod_cast h

theorem wholePower_le (h0 : 0 ≤ v) (h : v ≤ w) (whole : Nat) :
    mkRat (Nat.pow v.num.natAbs whole) (Nat.pow v.den whole) ≤
      mkRat (Nat.pow w.num.natAbs whole) (Nat.pow w.den whole) := by
  refine mkRat_le_mkRat (Nat.pow_pos v.den_pos) (Nat.pow_pos w.den_pos) ?_
  change v.num.natAbs ^ whole * w.den ^ whole ≤ w.num.natAbs ^ whole * v.den ^ whole
  rw [← Nat.mul_pow, ← Nat.mul_pow]
  exact Nat.pow_le_pow_left (num_mul_den_le h0 h) whole

/-- **The enclosure from below grows** with the base and with the precision. -/
theorem powerBounds_low_le_low (h0 : 0 ≤ v) (h : v ≤ w) {precision precision' : Nat}
    (hprecision : precision ≤ precision') (whole : Nat) (digits : List Bool) :
    (powerBounds precision v whole digits).1 ≤ (powerBounds precision' w whole digits).1 := by
  obtain ⟨k, rfl⟩ := Nat.exists_eq_add_of_le hprecision
  have hunit : twoPow (precision + k) = twoPow precision * twoPow k := twoPow_add precision k
  have hbase : v.num.natAbs * twoPow precision / v.den * twoPow k ≤
      w.num.natAbs * twoPow (precision + k) / w.den := by
    rw [Nat.le_div_iff_mul_le w.den_pos, hunit]
    refine Nat.le_of_mul_le_mul_right ?_ v.den_pos
    calc v.num.natAbs * twoPow precision / v.den * twoPow k * w.den * v.den
        = v.num.natAbs * twoPow precision / v.den * v.den * (twoPow k * w.den) := by ring
      _ ≤ v.num.natAbs * twoPow precision * (twoPow k * w.den) :=
        Nat.mul_le_mul_right _ (Nat.div_mul_le_self _ _)
      _ = v.num.natAbs * w.den * (twoPow precision * twoPow k) := by ring
      _ ≤ w.num.natAbs * v.den * (twoPow precision * twoPow k) :=
        Nat.mul_le_mul_right _ (num_mul_den_le h0 h)
      _ = w.num.natAbs * (twoPow precision * twoPow k) * v.den := by ring
  refine mul_le_mul (mkRat_le_mkRat (twoPow_pos _) (twoPow_pos _) ?_) (wholePower_le h0 h whole)
    (mkRat_nonneg _ _) (mkRat_nonneg _ _)
  rw [hunit, Nat.mul_comm (twoPow precision), ← Nat.mul_assoc]
  refine Nat.mul_le_mul_right _ ?_
  rw [Nat.mul_comm (twoPow k), ← hunit]
  exact powerFloor_mul_le hunit.symm hbase digits

/-- **The enclosure from below is below the one from above** of a base that is not smaller. -/
theorem powerBounds_low_le_high (h0 : 0 ≤ v) (h : v ≤ w) (precision precision' : Nat)
    (whole : Nat) (digits : List Bool) :
    (powerBounds precision v whole digits).1 ≤ (powerBounds precision' w whole digits).2 := by
  have hceil (n d : Nat) (hd : 0 < d) : n ≤ (n + d - 1) / d * d := by
    have hrest := Nat.div_add_mod (n + d - 1) d
    have hlt := Nat.mod_lt (n + d - 1) hd
    rw [Nat.mul_comm] at hrest
    omega
  have hbase : v.num.natAbs * twoPow precision / v.den * twoPow precision' ≤
      (w.num.natAbs * twoPow precision' + w.den - 1) / w.den * twoPow precision := by
    refine Nat.le_of_mul_le_mul_right ?_ (Nat.mul_pos v.den_pos w.den_pos)
    calc v.num.natAbs * twoPow precision / v.den * twoPow precision' * (v.den * w.den)
        = v.num.natAbs * twoPow precision / v.den * v.den * (twoPow precision' * w.den) := by ring
      _ ≤ v.num.natAbs * twoPow precision * (twoPow precision' * w.den) :=
        Nat.mul_le_mul_right _ (Nat.div_mul_le_self _ _)
      _ = v.num.natAbs * w.den * (twoPow precision * twoPow precision') := by ring
      _ ≤ w.num.natAbs * v.den * (twoPow precision * twoPow precision') :=
        Nat.mul_le_mul_right _ (num_mul_den_le h0 h)
      _ = w.num.natAbs * twoPow precision' * (twoPow precision * v.den) := by ring
      _ ≤ (w.num.natAbs * twoPow precision' + w.den - 1) / w.den * w.den *
          (twoPow precision * v.den) := Nat.mul_le_mul_right _ (hceil _ _ w.den_pos)
      _ = (w.num.natAbs * twoPow precision' + w.den - 1) / w.den * twoPow precision *
          (v.den * w.den) := by ring
  exact mul_le_mul (mkRat_le_mkRat (twoPow_pos _) (twoPow_pos _)
    (powerFloor_mul_le_powerCeil_mul hbase digits)) (wholePower_le h0 h whole)
    (mkRat_nonneg _ _) (mkRat_nonneg _ _)

end Bounds

/-- **Powers keep the order** of the numbers from zero to one. -/
theorem UpTo.power {x z : Binary64} (h : UpTo x z) (hz : UpTo z 1) (y : Binary64) :
    UpTo (x.power y) (z.power y) := by
  obtain ⟨v, w, hx, hw, h0, hvw⟩ := h
  have h1 : w ≤ 1 := (hw.le_iff hasValue_one).1 hz.le
  obtain ⟨p, hp, hp0, hp1⟩ := exists_value_power hx h0 (hvw.trans h1) y
  obtain ⟨q, hq, hq0, hq1⟩ := exists_value_power hw (h0.trans hvw) h1 y
  refine hp.upTo hq hp0 ?_
  rcases h0.eq_or_lt with rfl | hpos
  · rwa [← hp.value_eq, (power_of_zero hx y).value_eq]
  by_cases hone : w = 1
  · rwa [← hq.value_eq, power_of_pos hw (hpos.trans_le hvw), if_pos hone, hw.value_eq, hone]
  have hsmall : v ≠ 1 := fun hv => hone (h1.antisymm (hv ▸ hvw))
  obtain ⟨precision, hprecision, hpower, -⟩ := exists_precision hx hpos hsmall y
  obtain ⟨precision', -, hpower', hlast⟩ := exists_precision hw (hpos.trans_le hvw) hone y
  rw [hpower] at hp
  rw [hpower'] at hq
  have hlow := (enclosure_mem_unit h0 (hvw.trans h1) precision y).1
  rcases hlast with rfl | hsame
  · have hle := powerBounds_low_le_low h0 hvw hprecision (y.value.num.natAbs / y.value.den)
      (binaryDigits y.value.den.log2 (y.value.num.natAbs % y.value.den))
    exact (isRounding_ofRat hlow).le_of_le (isRounding_ofRat (hlow.trans hle)) hp hq hle
  · have hle := powerBounds_low_le_high h0 hvw precision precision' (y.value.num.natAbs / y.value.den)
      (binaryDigits y.value.den.log2 (y.value.num.natAbs % y.value.den))
    rw [hsame] at hq
    exact (isRounding_ofRat hlow).le_of_le (isRounding_ofRat (hlow.trans hle)) hp hq hle

end ColorTheme.Binary64
