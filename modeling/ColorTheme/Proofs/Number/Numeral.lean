import ColorTheme.Proofs.Number.Decimal
import ColorTheme.Text.Blank
import Mathlib.Data.List.TakeWhile

/-!
# The grammar of numerals

A numeral is a sign if there is one, digits with at most one point among them, at least one digit, and
an exponent if there is one.  The reader takes exactly these texts apart.
-/

namespace ColorTheme

namespace Numeral

/-! ### Texts of the grammar -/

/-- A sign, or nothing, which counts as positive. -/
inductive Sign : Bool → List Char → Prop
  | absent : Sign false []
  | plus : Sign false ['+']
  | minus : Sign true ['-']

def Digits (ds : List Char) : Prop := ∀ d ∈ ds, d.isDigit = true

/-- Digits, or digits with a point among them; it may also stand before or behind all of them. -/
inductive Mantissa (whole : List Char) : List Char → List Char → Prop
  | integer : whole ≠ [] → Mantissa whole [] whole
  | pointed {places : List Char} : whole ≠ [] ∨ places ≠ [] →
      Mantissa whole places (whole ++ '.' :: places)

/-- Nothing, or `e` with a sign, if any, and digits. -/
inductive Exponent : Int → List Char → Prop
  | absent : Exponent 0 []
  | present {e : Char} {negative : Bool} {sign ds : List Char} : e = 'e' ∨ e = 'E' →
      Sign negative sign → ds ≠ [] → Digits ds →
      Exponent (if negative then -(ofDigits ds : Int) else ofDigits ds) (e :: (sign ++ ds))

/-- **The text writes the numeral.** -/
structure Spells (x : Numeral) (cs : List Char) : Prop where
  whole : Digits x.whole
  places : Digits x.places
  parts : ∃ sign mantissa exponent, Sign x.negative sign ∧ Mantissa x.whole x.places mantissa ∧
    Exponent x.exponent exponent ∧ cs = sign ++ (mantissa ++ exponent)

/-! ### Taking a text apart -/

/-- The text does not start with a character of the class. -/
def NotFirst (p : Char → Prop) (cs : List Char) : Prop := ∀ c ∈ cs.head?, ¬ p c

theorem exists_sign (cs : List Char) :
    ∃ sign, Sign (splitSign cs).1 sign ∧ cs = sign ++ (splitSign cs).2 := by
  unfold splitSign
  split
  · exact ⟨['-'], .minus, rfl⟩
  · exact ⟨['+'], .plus, rfl⟩
  · exact ⟨[], .absent, rfl⟩

theorem splitSign_append {negative : Bool} {sign cs : List Char} (hsign : Sign negative sign)
    (hcs : NotFirst (fun c => c = '-' ∨ c = '+') cs) : splitSign (sign ++ cs) = (negative, cs) := by
  cases hsign with
  | absent =>
    rw [List.nil_append]
    cases cs with
    | nil => rfl
    | cons c cs =>
      have hc := hcs c rfl
      rw [not_or] at hc
      unfold splitSign
      split
      · rename_i heq
        exact absurd (List.cons.inj heq).1 hc.1
      · rename_i heq
        exact absurd (List.cons.inj heq).1 hc.2
      · rfl
  | plus => rfl
  | minus => rfl

theorem notFirst_of_isDigit {c : Char} (hc : c.isDigit = true) (cs : List Char) :
    NotFirst (fun c => c = '-' ∨ c = '+') (c :: cs) := by
  intro d hd
  obtain rfl : c = d := Option.some.inj hd
  rintro (rfl | rfl) <;> revert hc <;> decide

theorem toLower_of_isDigit {c : Char} (hc : c.isDigit = true) : c.toLower = c := by
  simp only [Char.isDigit, Bool.and_eq_true, decide_eq_true_eq, ge_iff_le,
    UInt32.le_iff_toNat_le] at hc
  refine dif_neg fun hupper => ?_
  simp only [ge_iff_le, UInt32.le_iff_toNat_le] at hupper
  have hnine : '9'.val.toNat = 57 := rfl
  have hletter : 'A'.val.toNat = 65 := rfl
  omega

section digits
variable {ds cs : List Char}

theorem takeWhile_digits (hds : Digits ds) (hcs : NotFirst (fun c => c.isDigit = true) cs) :
    (ds ++ cs).takeWhile Char.isDigit = ds := by
  rw [List.takeWhile_append_of_pos hds]
  cases cs with
  | nil => rw [List.takeWhile_nil, List.append_nil]
  | cons c cs => rw [List.takeWhile_cons_of_neg (hcs c rfl), List.append_nil]

theorem dropWhile_digits (hds : Digits ds) (hcs : NotFirst (fun c => c.isDigit = true) cs) :
    (ds ++ cs).dropWhile Char.isDigit = cs := by
  rw [List.dropWhile_append_of_pos hds]
  cases cs with
  | nil => rfl
  | cons c cs => rw [List.dropWhile_cons_of_neg (hcs c rfl)]

theorem digits_takeWhile (cs : List Char) : Digits (cs.takeWhile Char.isDigit) :=
  fun _ hd => List.mem_takeWhile_imp hd

end digits

theorem exponent?_eq_some_iff {cs : List Char} {e : Int} :
    exponent? cs = some e ↔ Exponent e cs := by
  constructor
  · intro h
    cases cs with
    | nil =>
      obtain rfl : 0 = e := Option.some.inj h
      exact .absent
    | cons c cs =>
      simp only [exponent?, Option.ite_none_right_eq_some] at h
      obtain ⟨hc, hds, hvalue⟩ := h
      obtain ⟨sign, hsign, hcs⟩ := exists_sign cs
      obtain rfl := Option.some.inj hvalue
      have hdigits : Digits (splitSign cs).2 := List.all_eq_true.1 hds.2
      have hpresent := Exponent.present hc hsign hds.1 hdigits
      rwa [← hcs] at hpresent
  · rintro (_ | ⟨hc, hsign, hne, hds⟩)
    · rfl
    · rename_i sign ds
      obtain ⟨d, rest, rfl⟩ := List.exists_cons_of_ne_nil hne
      have hfirst := notFirst_of_isDigit (hds d List.mem_cons_self) rest
      simp only [exponent?, if_pos hc, splitSign_append hsign hfirst]
      rw [if_pos ⟨hne, List.all_eq_true.2 hds⟩]

theorem Exponent.notFirst {e : Int} {cs : List Char} (h : Exponent e cs) :
    NotFirst (fun c => c.isDigit = true ∨ c = '.') cs := by
  cases h with
  | absent => exact nofun
  | present hc _ _ _ =>
    intro c hmem
    obtain rfl := Option.some.inj hmem
    rcases hc with rfl | rfl <;> decide

theorem Mantissa.exists_first {whole places cs : List Char} (hwhole : Digits whole)
    (h : Mantissa whole places cs) :
    ∃ c rest, cs = c :: rest ∧ (c.isDigit = true ∨ c = '.') := by
  cases whole with
  | nil => cases h with
    | integer hne => exact absurd rfl hne
    | pointed => exact ⟨'.', _, rfl, .inr rfl⟩
  | cons d ds =>
    have hd := hwhole d List.mem_cons_self
    cases h with
    | integer => exact ⟨d, ds, rfl, .inl hd⟩
    | pointed => exact ⟨d, _, rfl, .inl hd⟩

theorem splitSign_signed {negative : Bool} {sign whole places mantissa : List Char}
    (hsign : Sign negative sign) (hwhole : Digits whole) (h : Mantissa whole places mantissa)
    (rest : List Char) : splitSign (sign ++ (mantissa ++ rest)) = (negative, mantissa ++ rest) := by
  obtain ⟨c, cs, rfl, hc⟩ := h.exists_first hwhole
  refine splitSign_append hsign ?_
  rcases hc with hc | rfl
  · exact notFirst_of_isDigit hc _
  · intro c hc
    obtain rfl : '.' = c := Option.some.inj hc
    decide

theorem spells_of_read? {cs : List Char} {x : Numeral} (h : read? cs = some x) : Spells x cs := by
  obtain ⟨sign, hsign, hcs⟩ := exists_sign cs
  unfold read? at h
  generalize splitSign cs = signed at *
  obtain ⟨negative, rest⟩ := signed
  have hsplit := List.takeWhile_append_dropWhile (p := Char.isDigit) (l := rest)
  have hwhole := digits_takeWhile rest
  dsimp only at h hsign hcs
  generalize rest.takeWhile Char.isDigit = whole at *
  generalize rest.dropWhile Char.isDigit = behind at *
  split at h
  · rename_i behind
    obtain ⟨hne, hx⟩ := Option.ite_none_left_eq_some.1 h
    obtain ⟨e, he, rfl⟩ := Option.map_eq_some_iff.1 hx
    refine ⟨hwhole, digits_takeWhile behind, sign, _, _, hsign, .pointed (not_and_or.1 hne),
      exponent?_eq_some_iff.1 he, ?_⟩
    rw [hcs, ← hsplit, List.append_assoc, List.cons_append, List.takeWhile_append_dropWhile]
  · obtain ⟨hne, hx⟩ := Option.ite_none_left_eq_some.1 h
    obtain ⟨e, he, rfl⟩ := Option.map_eq_some_iff.1 hx
    have hne : whole ≠ [] := fun h0 => hne ⟨h0, rfl⟩
    refine ⟨hwhole, nofun, sign, _, _, hsign, .integer hne, exponent?_eq_some_iff.1 he, ?_⟩
    rw [hcs, ← hsplit]

theorem read?_of_spells {cs : List Char} {x : Numeral} (h : Spells x cs) : read? cs = some x := by
  obtain ⟨hwhole, hplaces, sign, mantissa, exponent, hsign, hmantissa, hexponent, rfl⟩ := h
  obtain ⟨negative, whole, places, e⟩ := x
  dsimp only at *
  unfold read?
  rw [splitSign_signed hsign hwhole hmantissa]
  dsimp only
  have hread := exponent?_eq_some_iff.2 hexponent
  have hbehind : NotFirst (fun c => c.isDigit = true) exponent :=
    fun c hc hdigit => hexponent.notFirst c hc (.inl hdigit)
  cases hmantissa with
  | integer hne =>
    have hpointless (rest : List Char) : exponent ≠ '.' :: rest := by
      rintro rfl
      exact hexponent.notFirst '.' rfl (.inr rfl)
    rw [takeWhile_digits hwhole hbehind, dropWhile_digits hwhole hbehind]
    split
    · exact absurd rfl (hpointless _)
    · rw [if_neg fun h => hne h.1, hread]
      rfl
  | pointed hne =>
    have hpoint : NotFirst (fun c => c.isDigit = true) ('.' :: (places ++ exponent)) := by
      intro c hc
      obtain rfl : '.' = c := Option.some.inj hc
      decide
    rw [List.append_assoc, List.cons_append, takeWhile_digits hwhole hpoint,
      dropWhile_digits hwhole hpoint]
    simp only [takeWhile_digits hplaces hbehind, dropWhile_digits hplaces hbehind]
    rw [if_neg (not_and_or.2 hne), hread]
    rfl

/-- **The reader takes exactly the texts of the grammar apart.** -/
theorem read?_eq_some_iff {cs : List Char} {x : Numeral} : read? cs = some x ↔ Spells x cs :=
  ⟨spells_of_read?, read?_of_spells⟩

/-! ### The characters -/

def marks : List Char := ['+', '-', '.', 'e', 'E']

theorem Sign.mem_marks {negative : Bool} {sign : List Char} {c : Char} (h : Sign negative sign)
    (hc : c ∈ sign) : c ∈ marks := by
  cases h with
  | absent => cases hc
  | plus =>
    obtain rfl := List.mem_singleton.1 hc
    decide
  | minus =>
    obtain rfl := List.mem_singleton.1 hc
    decide

/-- In a numeral there are digits, signs, points and the letter of the exponent only. -/
theorem Spells.mem {x : Numeral} {cs : List Char} {c : Char} (h : Spells x cs) (hc : c ∈ cs) :
    c.isDigit = true ∨ c ∈ marks := by
  obtain ⟨hwhole, hplaces, sign, mantissa, exponent, hsign, hmantissa, hexponent, rfl⟩ := h
  obtain ⟨negative, whole, places, e⟩ := x
  dsimp only at *
  rw [List.mem_append, List.mem_append] at hc
  rcases hc with hc | hc | hc
  · exact .inr (hsign.mem_marks hc)
  · cases hmantissa with
    | integer => exact .inl (hwhole c hc)
    | pointed =>
      rcases List.mem_append.1 hc with hc | hc
      · exact .inl (hwhole c hc)
      · rcases List.mem_cons.1 hc with rfl | hc
        · exact .inr (by decide)
        · exact .inl (hplaces c hc)
  · cases hexponent with
    | absent => cases hc
    | present he hsign' _ hds =>
      rcases List.mem_cons.1 hc with rfl | hc
      · rcases he with rfl | rfl <;> exact .inr (by decide)
      · rcases List.mem_append.1 hc with hc | hc
        · exact .inr (hsign'.mem_marks hc)
        · exact .inl (hds c hc)

section lower

theorem Digits.map_toLower {ds : List Char} (hds : Digits ds) : ds.map Char.toLower = ds := by
  rw [List.map_congr_left fun d hd => toLower_of_isDigit (hds d hd), List.map_id']

theorem Sign.map_toLower {negative : Bool} {sign : List Char} (h : Sign negative sign) :
    sign.map Char.toLower = sign := by
  cases h <;> rfl

theorem Mantissa.map_toLower {whole places cs : List Char} (hwhole : Digits whole)
    (hplaces : Digits places) (h : Mantissa whole places cs) : cs.map Char.toLower = cs := by
  cases h with
  | integer => exact hwhole.map_toLower
  | pointed =>
    rw [List.map_append, List.map_cons, hwhole.map_toLower, hplaces.map_toLower]
    rfl

theorem Exponent.map_toLower {e : Int} {cs : List Char} (h : Exponent e cs) :
    Exponent e (cs.map Char.toLower) := by
  cases h with
  | absent => exact .absent
  | present he hsign hne hds =>
    rw [List.map_cons, List.map_append, hsign.map_toLower, hds.map_toLower]
    refine .present (.inl ?_) hsign hne hds
    rcases he with rfl | rfl <;> rfl

theorem Spells.map_toLower {x : Numeral} {cs : List Char} (h : Spells x cs) :
    Spells x (cs.map Char.toLower) := by
  obtain ⟨hwhole, hplaces, sign, mantissa, exponent, hsign, hmantissa, hexponent, rfl⟩ := h
  refine ⟨hwhole, hplaces, sign, mantissa, _, hsign, hmantissa, hexponent.map_toLower, ?_⟩
  rw [List.map_append, List.map_append, hsign.map_toLower,
    hmantissa.map_toLower hwhole hplaces]

end lower

/-! ### The value -/

def value (x : Numeral) : Rat :=
  ofDigits (x.whole ++ x.places) * (10 : Rat) ^ (x.exponent - x.places.length)

def signed (x : Numeral) : Rat := if x.negative then -x.value else x.value

theorem value_nonneg (x : Numeral) : 0 ≤ x.value :=
  mul_nonneg (Nat.cast_nonneg _) (zpow_nonneg (by norm_num) _)

theorem value_eq_signed {x : Numeral} (h : 0 ≤ x.signed) : x.value = x.signed := by
  have hvalue := x.value_nonneg
  by_cases hnegative : x.negative = true
  · rw [signed, if_pos hnegative] at h ⊢
    linarith
  · rw [signed, if_neg hnegative]

/-- The places behind the point that the exponent leaves. -/
def decimals (x : Numeral) : Int := x.places.length - x.exponent

theorem exists_scaled {x : Numeral} {k : Nat} (hk : x.decimals ≤ k) :
    ∃ m : Nat, x.value * 10 ^ k = m := by
  obtain ⟨j, hj⟩ := Int.eq_ofNat_of_zero_le (sub_nonneg.2 hk)
  refine ⟨ofDigits (x.whole ++ x.places) * 10 ^ j, ?_⟩
  have hexponent : x.exponent - x.places.length + k = j := by
    rw [← hj, decimals]
    ring
  rw [value, mul_assoc, ← zpow_natCast, ← zpow_add₀ (by norm_num), hexponent]
  push_cast
  rw [zpow_natCast]

end Numeral

namespace Binary64

open Numeral (Spells)

theorem ofNumeral_eq_round (x : Numeral) : ofNumeral x = round x.negative x.value :=
  ofDecimal_eq_round _ _ _

/-- **A numeral is read as what its value rounds to.** -/
theorem parse?_of_spells {cs : List Char} {x : Numeral} (h : Spells x cs) :
    parse? cs = some (round x.negative x.value) := by
  have hread := Numeral.read?_eq_some_iff.2 h
  obtain ⟨hwhole, -, sign, mantissa, exponent, hsign, hmantissa, -, rfl⟩ := h
  unfold parse?
  rw [Numeral.splitSign_signed hsign hwhole hmantissa, hread]
  -- The first character is in none of the words.
  obtain ⟨c, rest, rfl, hc⟩ := hmantissa.exists_first hwhole
  have hfirst : c.toLower ≠ 'i' ∧ c.toLower ≠ 'n' := by
    rcases hc with hc | rfl
    · rw [Numeral.toLower_of_isDigit hc]
      constructor <;> rintro rfl <;> revert hc <;> decide
    · decide
  simp [hfirst, ofNumeral_eq_round]

/-- **The finite numbers that are read** are those of numerals. -/
theorem parse?_eq_some_iff {cs : List Char} {y : Binary64} (hy : y.isFinite = true) :
    parse? cs = some y ↔ ∃ x, Spells x cs ∧ round x.negative x.value = y := by
  constructor
  · intro h
    unfold parse? at h
    dsimp only at h
    split at h
    · obtain rfl := Option.some.inj h
      cases hy
    · split at h
      · obtain rfl := Option.some.inj h
        cases hy
      · obtain ⟨x, hx, rfl⟩ := Option.map_eq_some_iff.1 h
        exact ⟨x, Numeral.read?_eq_some_iff.1 hx, (ofNumeral_eq_round x).symm⟩
  · rintro ⟨x, hx, rfl⟩
    exact parse?_of_spells hx

/-- The text is a numeral for a finite number. -/
def IsNumeral (cs : List Char) (y : Binary64) : Prop :=
  ∃ x, Spells x cs ∧ round x.negative x.value = y ∧ y.isFinite = true

theorem IsNumeral.ne_nil {cs : List Char} {y : Binary64} (h : IsNumeral cs y) : cs ≠ [] := by
  obtain ⟨x, ⟨hwhole, -, sign, mantissa, exponent, -, hmantissa, -, rfl⟩, -⟩ := h
  obtain ⟨c, rest, rfl, -⟩ := hmantissa.exists_first hwhole
  simp

theorem IsNumeral.lower {cs : List Char} {y : Binary64} (h : IsNumeral cs y) :
    IsNumeral (Text.lower cs) y := by
  obtain ⟨x, hspells, hy⟩ := h
  exact ⟨x, hspells.map_toLower, hy⟩

end Binary64

end ColorTheme
