import ColorTheme.Proofs.Number.Numeral
import Mathlib.Data.Nat.Prime.Basic
import Mathlib.Tactic.IntervalCases

/-!
# Numbers in the fewest digits

What is written in the fewest digits is read as the same number, however the digits are laid out: every
candidate of the search has been read back, and the exact value, which closes it, is a decimal number
because the denominator is a power of two.
-/

namespace ColorTheme.Binary64

/-! ### The search -/

theorem of_first_of_two {p : Nat → Bool} {a b m : Nat}
    (h : (if p a then some a else if p b then some b else none) = some m) : p m = true := by
  split at h
  · obtain rfl := Option.some.inj h
    assumption
  · obtain ⟨hb, hm⟩ := Option.ite_none_right_eq_some.1 h
    obtain rfl := Option.some.inj hm
    exact hb

theorem reads_of_shortestOn? {x : Binary64} {q : Rat} {e : Int} {m : Nat}
    (h : shortestOn? x q e = some m) : round false (m * (10 : Rat) ^ e) = x := by
  rw [← powerOfTen_eq]
  unfold shortestOn? at h
  dsimp only at h
  exact of_decide_eq_true (of_first_of_two (p := fun m => round false (powerOfTen m e) = x) h)

theorem den_div_dvd (n d : Nat) : ((n : Rat) / d).den ∣ d := by
  have hdvd := Rat.den_dvd n d
  rw [Rat.divInt_eq_div, Int.cast_natCast, Int.cast_natCast] at hdvd
  exact Int.natCast_dvd_natCast.1 hdvd

theorem exists_pow_of_dvd {n k : Nat} (h : n ∣ twoPow k) : ∃ j, n = 2 ^ j := by
  obtain ⟨j, -, hj⟩ := (Nat.dvd_prime_pow Nat.prime_two).1 h
  exact ⟨j, hj⟩

/-- The exact value as a decimal number: the denominator is a power of two. -/
theorem exact_eq (m : Nat) :
    (((size m).num.natAbs * Nat.pow 5 (size m).den.log2 : Nat) : Rat) *
      (10 : Rat) ^ (-((size m).den.log2 : Int)) = size m := by
  obtain ⟨k, hk⟩ := exists_pow_of_dvd (den_div_dvd (quanta m) quantaPerOne)
  have hden : (size m).den = 2 ^ k := hk
  have hquotient := abs_eq_natAbs_div (size m)
  rw [abs_of_nonneg (size_nonneg m), hden] at hquotient
  have hten : (10 : Rat) ^ k = 2 ^ k * 5 ^ k := by
    rw [← mul_pow]
    norm_num
  have hfive : ((Nat.pow 5 k : Nat) : Rat) = 5 ^ k := Nat.cast_pow 5 k
  rw [hden, Nat.log2_two_pow, zpow_neg, zpow_natCast, Nat.cast_mul, hfive, hten]
  conv_rhs => rw [hquotient]
  have hpos : (5 : Rat) ^ k ≠ 0 := by positivity
  rw [Nat.cast_pow, Nat.cast_ofNat, ← div_eq_mul_inv, mul_div_mul_right _ _ hpos]

theorem getD_findSome? {α β : Type} {P : β → Prop} {f : α → Option β} {l : List α} {d : β}
    (hd : P d) (hf : ∀ a b, f a = some b → P b) : P ((l.findSome? f).getD d) := by
  cases hfound : l.findSome? f with
  | none => exact hd
  | some b =>
    obtain ⟨a, -, ha⟩ := List.exists_of_findSome?_eq_some hfound
    exact hf a b ha

/-- What the search finds reads back, if it is not the exact value. -/
theorem shortest_cases {x : Binary64} {P : Nat × Int → Prop}
    (hexact : P (x.value.num.natAbs * Nat.pow 5 x.value.den.log2, -x.value.den.log2))
    (hreads : ∀ (c : Nat) (e : Int), round false (c * (10 : Rat) ^ e) = x → P (c, e)) : P (shortest x) := by
  refine getD_findSome? hexact fun n found hfound => ?_
  obtain ⟨c, hc, rfl⟩ := Option.map_eq_some_iff.1 hfound
  have hread := reads_of_shortestOn? hc
  split
  · -- One digit more than looked for is a one and zeros.
    rename_i hcarry
    have hpow : ((Nat.pow 10 n : Nat) : Rat) = 10 ^ (n : Int) :=
      (Nat.cast_pow 10 n).trans (zpow_natCast 10 n).symm
    have hsame : ((1 : Nat) : Rat) * 10 ^ decimalExponent x.value =
        c * 10 ^ (decimalExponent x.value - n) := by
      rw [hcarry, hpow, ← zpow_add₀ (by norm_num), add_sub_cancel, Nat.cast_one, one_mul]
    refine hreads 1 _ ?_
    rw [hsame, hread]
  · exact hreads c _ hread

/-- **The fewest digits read back.** -/
theorem reads_shortest (m : Fin magnitudeCount) :
    round false ((shortest (.finite false m)).1 * (10 : Rat) ^ (shortest (.finite false m)).2) =
      .finite false m := by
  refine shortest_cases (P := fun found =>
    round false (found.1 * (10 : Rat) ^ found.2) = .finite false m) ?_ fun _ _ h => h
  rw [value_finite]
  dsimp only
  rw [if_neg Bool.false_ne_true, exact_eq, round_size]

/-! ### Digits that are laid out -/

theorem digits_zeros (k : Nat) : Numeral.Digits (List.replicate k '0') := by
  intro d hd
  rw [List.eq_of_mem_replicate hd]
  decide

theorem exists_digitsOf {n : Nat} (hn : n ≠ 0) : ∃ d ds, digitsOf n = d :: ds ∧ d ≠ '0' := by
  induction n using Nat.strong_induction_on with
  | h n ih =>
    by_cases hlt : n < 10
    · refine ⟨Nat.digitChar n, [], Nat.toDigits_of_lt_base hlt, ?_⟩
      interval_cases n
      · exact absurd rfl hn
      all_goals decide
    · obtain ⟨d, ds, hds, hd⟩ := ih (n / 10) (by omega) (by omega)
      refine ⟨d, ds ++ [Nat.digitChar (n % 10)], ?_, hd⟩
      have hdigits := Nat.toDigits_of_base_le (by decide : 1 < 10) (Nat.not_lt.1 hlt)
      rw [digitsOf, hdigits, ← List.cons_append, ← hds]
      rfl

/-- The point and the digits behind it, if there are any. -/
def point (places : List Char) : List Char := if places = [] then [] else '.' :: places

/-- A number without a sign, as it is written: a zero stands alone before the point or not in front,
and a point has digits behind it. -/
inductive Unsigned (q : Rat) : List Char → Prop
  | parts {d : Char} {ds places exponent : List Char} {e : Int} : d ≠ '0' ∨ ds = [] →
      Numeral.Digits (d :: ds) → Numeral.Digits places → Numeral.Exponent e exponent →
      ofDigits (d :: ds ++ places) * (10 : Rat) ^ (e - places.length) = q →
      Unsigned q (d :: ds ++ (point places ++ exponent))

theorem Unsigned.exists_spells {q : Rat} {cs : List Char} (h : Unsigned q cs) {negative : Bool}
    {sign : List Char} (hsign : Numeral.Sign negative sign) :
    ∃ x : Numeral, x.negative = negative ∧ x.value = q ∧ Numeral.Spells x (sign ++ cs) := by
  obtain ⟨-, hwhole, hplaces, hexponent, hvalue⟩ := h
  rename_i d ds places exponent e
  have hmantissa : Numeral.Mantissa (d :: ds) places (d :: ds ++ point places) := by
    unfold point
    split
    · next hnone =>
      rw [hnone, List.append_nil]
      exact .integer (List.cons_ne_nil d ds)
    · exact .pointed (.inl (List.cons_ne_nil d ds))
  refine ⟨⟨negative, d :: ds, places, e⟩, rfl, hvalue, hwhole, hplaces, sign, _, exponent, hsign,
    hmantissa, hexponent, ?_⟩
  rw [List.append_assoc]

/-- Digits on both sides of a point. -/
theorem unsigned_pointed {d : Char} {ds places : List Char} (hd : d ≠ '0' ∨ ds = [])
    (hds : Numeral.Digits (d :: ds)) (hplaces : Numeral.Digits places) (hne : places ≠ []) :
    Unsigned (ofDigits (d :: ds ++ places) * (10 : Rat) ^ (-(places.length : Int)))
      (d :: ds ++ '.' :: places) := by
  have hpoint : '.' :: places = point places ++ [] := by
    rw [point, if_neg hne, List.append_nil]
  rw [hpoint]
  exact .parts hd hds hplaces .absent (by rw [zero_sub])

theorem exponent_power (power : Int) : Numeral.Exponent power
    ('e' :: ((if power < 0 then ['-'] else []) ++ digitsOf power.natAbs)) := by
  have hdigits : Numeral.Digits (digitsOf power.natAbs) := fun _ => isDigit_of_mem_digitsOf
  have hne := digitsOf_ne_nil power.natAbs
  split
  · next hnegative =>
    have hform := Numeral.Exponent.present (.inl rfl) .minus hne hdigits
    rwa [ofDigits_digitsOf, if_pos rfl, Int.ofNat_natAbs_of_nonpos hnegative.le,
      Int.neg_neg] at hform
  · next hpositive =>
    have hform := Numeral.Exponent.present (.inl rfl) .absent hne hdigits
    rwa [ofDigits_digitsOf, if_neg Bool.false_ne_true,
      Int.natAbs_of_nonneg (not_lt.1 hpositive)] at hform

section layout
variable {d : Char} {ds : List Char} (hds : Numeral.Digits (d :: ds))
include hds

/-- Digits of a whole number, which ends in a zero behind the point or in nothing. -/
theorem unsigned_whole (layout : Layout) {k : Nat} (hd : d ≠ '0' ∨ ds = [] ∧ k = 0) :
    Unsigned (ofDigits (d :: ds) * (10 : Rat) ^ (k : Int)) (positional layout (d :: ds) k) := by
  obtain ⟨j, hj⟩ : ∃ j, (if layout.pointZero then ['.', '0'] else []) =
      point (List.replicate j '0') := by
    cases layout.pointZero
    · exact ⟨0, rfl⟩
    · exact ⟨1, rfl⟩
  have hwhole : Numeral.Digits (d :: (ds ++ List.replicate k '0')) :=
    List.forall_mem_append.2 ⟨hds, digits_zeros k⟩
  have hfirst : d ≠ '0' ∨ ds ++ List.replicate k '0' = [] := by
    refine hd.imp_right ?_
    rintro ⟨rfl, rfl⟩
    rfl
  have htext : positional layout (d :: ds) k =
      d :: (ds ++ List.replicate k '0') ++ (point (List.replicate j '0') ++ []) := by
    rw [← Int.ofNat_eq_natCast, positional, hj, List.append_nil, List.cons_append]
  rw [htext]
  refine .parts hfirst hwhole (digits_zeros j) .absent ?_
  rw [ofDigits_append_zeros, ← List.cons_append, ofDigits_append_zeros, List.length_replicate,
    zpow_natCast, zero_sub, zpow_neg, zpow_natCast]
  push_cast
  field_simp

/-- Digits with their last ones behind the point; zeros stand for those that are missing. -/
theorem unsigned_places (layout : Layout) (k : Nat) (hd : d ≠ '0') :
    Unsigned (ofDigits (d :: ds) * (10 : Rat) ^ Int.negSucc k)
      (positional layout (d :: ds) (.negSucc k)) := by
  unfold positional
  dsimp only
  split
  · next hk =>
    obtain ⟨n, hn⟩ : ∃ n, (d :: ds).length - (k + 1) = n + 1 :=
      ⟨(d :: ds).length - (k + 1) - 1, by omega⟩
    have hlength : (ds.drop n).length = k + 1 := by
      rw [List.length_drop]
      simp only [List.length_cons] at hn hk
      omega
    have hwhole : Numeral.Digits (d :: ds.take n) := by
      intro c hc
      rw [← List.take_succ_cons] at hc
      exact hds c (List.mem_of_mem_take hc)
    have hplaces : Numeral.Digits (ds.drop n) := fun c hc =>
      hds c (List.mem_cons_of_mem d (List.mem_of_mem_drop hc))
    have hne : ds.drop n ≠ [] := List.ne_nil_of_length_eq_add_one hlength
    have hform := unsigned_pointed (.inl hd) hwhole hplaces hne
    rw [List.cons_append, List.take_append_drop, hlength] at hform
    rw [hn, List.take_succ_cons, List.drop_succ_cons]
    exact hform
  · next hk =>
    have hplaces : Numeral.Digits (List.replicate (k + 1 - (d :: ds).length) '0' ++ d :: ds) :=
      List.forall_mem_append.2 ⟨digits_zeros _, hds⟩
    have hlength : (List.replicate (k + 1 - (d :: ds).length) '0' ++ d :: ds).length = k + 1 := by
      rw [List.length_append, List.length_replicate]
      omega
    have hzero : ['0'] = List.replicate 1 '0' := rfl
    have hform := unsigned_pointed (.inr rfl) (digits_zeros 1) hplaces (by simp)
    rw [hlength, hzero, ofDigits_zeros_append, ofDigits_zeros_append] at hform
    exact hform

/-- Digits at the place that their exponent gives them. -/
theorem unsigned_positional (layout : Layout) {e : Int} (hd : d ≠ '0' ∨ ds = [] ∧ e = 0) :
    Unsigned (ofDigits (d :: ds) * (10 : Rat) ^ e) (positional layout (d :: ds) e) := by
  cases e with
  | ofNat k => exact unsigned_whole hds layout (hd.imp_right fun h => ⟨h.1, Int.ofNat.inj h.2⟩)
  | negSucc k => exact unsigned_places hds layout k (hd.resolve_right fun h => nomatch h.2)

/-- One digit before the point, and the power of ten of this digit. -/
theorem unsigned_scientific (power : Int) :
    Unsigned (ofDigits (d :: ds) * (10 : Rat) ^ (power - ds.length))
      (scientific (d :: ds) power) := by
  have hexponent := exponent_power power
  have htext : scientific (d :: ds) power = [d] ++ (point ds ++
      'e' :: ((if power < 0 then ['-'] else []) ++ digitsOf power.natAbs)) := by
    cases ds <;> rfl
  rw [htext]
  refine .parts (.inr rfl) (fun c hc => ?_) (fun c hc => ?_) hexponent rfl
  · exact hds c (List.mem_singleton.1 hc ▸ List.mem_cons_self)
  · exact hds c (List.mem_cons_of_mem d hc)

theorem unsigned_of_place (layout : Layout) (e : Int) (hd : d ≠ '0') :
    Unsigned (ofDigits (d :: ds) * (10 : Rat) ^ e)
      (if layout.isPositional (e + (d :: ds).length - 1) then positional layout (d :: ds) e
        else scientific (d :: ds) (e + (d :: ds).length - 1)) := by
  split
  · exact unsigned_positional hds layout (.inl hd)
  · have hpower : e + ((d :: ds).length : Int) - 1 - ds.length = e := by
      rw [List.length_cons]
      omega
    have hform := unsigned_scientific hds (e + (d :: ds).length - 1)
    rwa [hpower] at hform

end layout

/-! ### Numbers that are written -/

theorem value_zero_digit : (ofDigits ['0'] : Rat) * 10 ^ (0 : Int) = 0 := by
  have hdigits : (ofDigits ['0'] : Rat) = 0 := Nat.cast_zero
  rw [hdigits, zero_mul]

theorem exists_digits_shortest {m : Fin magnitudeCount} (hm : m.val ≠ 0) :
    ∃ d ds, digitsOf (shortest (.finite false m)).1 = d :: ds ∧ d ≠ '0' := by
  refine exists_digitsOf fun hzero => hm ?_
  have hreads := reads_shortest m
  have hround := round_size false ⟨0, by decide⟩
  rw [hzero, Nat.cast_zero, zero_mul] at hreads
  rw [size_zero, hreads] at hround
  exact congrArg Fin.val (Binary64.finite.inj hround).2

/-- The digits of a finite number are the same for both signs. -/
theorem exists_unsigned (layout : Layout) (m : Fin magnitudeCount) :
    ∃ q cs, Unsigned q cs ∧ round false q = .finite false m ∧
      ∀ s, write layout (.finite s m) = (if s then ['-'] else []) ++ cs := by
  by_cases hm : m.val = 0
  · have hdigits : Numeral.Digits ['0'] := digits_zeros 1
    have hform := unsigned_positional hdigits layout (.inr ⟨rfl, rfl⟩)
    rw [value_zero_digit] at hform
    refine ⟨0, _, hform, ?_, fun s => by rw [write, if_pos hm]⟩
    have hround := round_size false m
    rwa [hm, size_zero] at hround
  · have hreads := reads_shortest m
    obtain ⟨d, ds, hdigits, hd⟩ := exists_digits_shortest hm
    have habs (s : Bool) : abs (.finite s m) = .finite false m := rfl
    generalize hfound : shortest (.finite false m) = found at hreads hdigits
    obtain ⟨c, e⟩ := found
    dsimp only at hreads hdigits
    have hds : Numeral.Digits (d :: ds) := hdigits ▸ fun _ => isDigit_of_mem_digitsOf
    refine ⟨_, _, unsigned_of_place hds layout e hd, ?_, fun s => ?_⟩
    · rw [← hdigits, ofDigits_digitsOf, hreads]
    · rw [write, if_neg hm, habs, hfound]
      simp only [hdigits]

theorem round_of_unsigned {q : Rat} {m : Fin magnitudeCount}
    (h : round false q = .finite false m) (negative : Bool) :
    round negative q = .finite negative m := by
  rw [round_eq] at h ⊢
  split at h
  · rename_i hq
    rw [dif_pos hq, (Binary64.finite.inj h).2]
  · cases h

/-- **A finite number is read back**, however it is laid out. -/
theorem isNumeral_write (layout : Layout) {x : Binary64} (hx : x.isFinite = true) :
    IsNumeral (x.write layout) x := by
  cases x with
  | finite s m =>
    obtain ⟨q, cs, hform, hround, hwrite⟩ := exists_unsigned layout m
    have hsign : Numeral.Sign s (if s then ['-'] else []) := by
      cases s
      · exact .absent
      · exact .minus
    obtain ⟨x, hnegative, hvalue, hspells⟩ := hform.exists_spells hsign
    rw [hwrite]
    refine ⟨x, hspells, ?_, rfl⟩
    rw [hnegative, hvalue, round_of_unsigned hround]
  | _ => cases hx

end ColorTheme.Binary64
