import ColorTheme.Proofs.Color.ReadBack
import ColorTheme.Proofs.Number.Nearness
import ColorTheme.Proofs.Screening

/-!
# Dark and light

Whether a color reads as dark is decided by a rounded quotient, and the decision is the one on whole
numbers: the weighted sum is exact, and its thousandth part keeps to its side of the threshold.  So the
decision depends on the three bytes alone, and every written form carries it.
-/

namespace ColorTheme

open Binary64

namespace Color

/-! ### The exact sum -/

/-- The brightness in thousandths, as a whole number. -/
def weight (c : Color) : Nat :=
  299 * c.red.byte.toNat + 587 * c.green.byte.toNat + 114 * c.blue.byte.toNat

theorem weight_le (c : Color) : c.weight ≤ 255000 := by
  have hr : c.red.byte.toNat ≤ 255 := Nat.le_of_lt_succ c.red.byte.toNat_lt
  have hg : c.green.byte.toNat ≤ 255 := Nat.le_of_lt_succ c.green.byte.toNat_lt
  have hb : c.blue.byte.toNat ≤ 255 := Nat.le_of_lt_succ c.blue.byte.toNat_lt
  unfold weight
  omega

theorem hasValue_weighted (b : UInt8) {n : Nat} (hn : n ≤ 1000) :
    HasValue (Binary64.ofByte b * ofNat n) ((n * b.toNat : Nat) : Rat) := by
  have hb : b.toNat < 256 := b.toNat_lt
  have hbyte : HasValue (Binary64.ofByte b) b.toNat := hasValue_ofNat (by omega)
  have hweight : HasValue (ofNat n) n := hasValue_ofNat (by omega)
  have hproduct := hbyte.mul hweight
  rw [← Nat.cast_mul, Nat.mul_comm] at hproduct
  refine hproduct.hasValue_natCast ?_
  calc n * b.toNat ≤ 1000 * 256 := Nat.mul_le_mul hn hb.le
    _ < 2 ^ 53 := by decide

theorem hasValue_sum {x y : Binary64} {m n : Nat} (hx : HasValue x m) (hy : HasValue y n)
    (h : m + n < 2 ^ 53) : HasValue (x + y) ((m + n : Nat) : Rat) := by
  have hsum := hx.add hy
  rw [← Nat.cast_add] at hsum
  exact hsum.hasValue_natCast h

/-- **The one rounding of the brightness** is that of the quotient. -/
theorem isRounding_brightness (c : Color) : IsRounding c.brightness (c.weight / 1000) := by
  have hbound := c.weight_le
  unfold weight at hbound
  have hr := hasValue_weighted c.red.byte (n := 299) (by decide)
  have hg := hasValue_weighted c.green.byte (n := 587) (by decide)
  have hb := hasValue_weighted c.blue.byte (n := 114) (by decide)
  have hsum := hasValue_sum (hasValue_sum hr hg (by omega)) hb (by omega)
  have hthousand : HasValue 1000 ((1000 : Nat) : Rat) := hasValue_ofNat (by decide)
  have hquotient := hsum.div hthousand (by norm_num)
  exact_mod_cast hquotient

/-! ### The threshold -/

/-- **A color is dark exactly if the sum is below the threshold**: a thousandth below it is more than the
rounding can make up for, and from the threshold on rounding keeps the order. -/
theorem isDark_iff (c : Color) : c.isDark = true ↔ c.weight < 128000 := by
  have hround := c.isRounding_brightness
  have hthreshold : HasValue 128 ((128 : Nat) : Rat) := hasValue_ofNat (by decide)
  have hweight : (c.weight : Rat) ≤ 255000 := by exact_mod_cast c.weight_le
  obtain ⟨v, hv, -, -, herror⟩ := hround.exists_value (n := 255) (by decide) (by decide)
    (by positivity) (by push_cast; linarith)
  rw [isDark, decide_eq_true_iff, darkThreshold, hv.lt_iff hthreshold]
  constructor
  · intro hdark
    by_contra hlight
    have hexact : ((128 : Nat) : Rat) ≤ c.weight / 1000 := by
      have hle : (128000 : Rat) ≤ c.weight := by exact_mod_cast Nat.not_lt.1 hlight
      push_cast
      linarith
    exact absurd (hthreshold.isRounding.le_of_le hround hthreshold hv hexact) (not_le.2 hdark)
  · intro hlt
    have hle : (c.weight : Rat) ≤ 127999 := by exact_mod_cast Nat.le_of_lt_succ hlt
    have hslip : ((255 : Nat) : Rat) / 2 ^ 53 < 1 / 1000 := by norm_num
    obtain ⟨-, hhigh⟩ := abs_le.1 herror
    push_cast at hhigh hslip ⊢
    linarith

/-! ### Colors of one class -/

/-- Two colors read alike, and suit the same roles in the same modes. -/
structure SameClass (a b : Color) : Prop where
  tone : a.tone = b.tone
  isDark : a.isDark = b.isDark
  isLight : a.isLight = b.isLight
  suitable : ∀ role mode, isSuitable role a mode = isSuitable role b mode

theorem Alike.sameClass {a b : Color} (h : Alike a b) : SameClass a b where
  tone := by rw [Color.tone, Color.tone, h.isDark_eq]
  isDark := h.isDark_eq
  isLight := by rw [Color.isLight, Color.isLight, h.isDark_eq]
  suitable := isSuitable_congr h

/-- **The class of a color is exact and survives writing**: it is told by a sum of whole numbers, no alpha
changes it, and a color that is read from any of the written forms is of the same class. -/
theorem class_exact (c : Color) :
    (c.isDark = true ↔
      299 * c.red.byte.toNat + 587 * c.green.byte.toNat + 114 * c.blue.byte.toNat < 128000) ∧
      (∀ alpha, SameClass (c.withAlpha alpha) c) ∧
      (∃ read, parse c.hex = .ok read ∧ SameClass read c) ∧
      (∃ read, parse c.hex8 = .ok read ∧ SameClass read c) ∧
      (∃ read, parse c.css = .ok read ∧ SameClass read c) ∧
      ∃ read, parse c.text = .ok read ∧ SameClass read c := by
  have hself : Alike c c := ⟨rfl, rfl, rfl⟩
  have hcss : ∃ read, parse c.css = .ok read ∧ SameClass read c := by
    refine ⟨_, c.parse_css, ?_⟩
    split
    · exact c.alike_solid.sameClass
    · exact (c.alike_solid.withAlpha _).sameClass
  obtain ⟨read, htext, halike⟩ := c.parse_text
  exact ⟨c.isDark_iff, fun alpha => (hself.withAlpha alpha).sameClass,
    ⟨_, c.parse_hex, c.alike_solid.sameClass⟩,
    ⟨_, c.parse_hex8, (c.alike_solid.withAlpha _).sameClass⟩, hcss, read, htext, halike.sameClass⟩

/-- A color with the last sum below the threshold, and one with the first that reaches it. -/
example : (rgb 127 112 213).weight = 127999 ∧ (rgb 127 112 213).isDark = true ∧
    (rgb 128 128 128).weight = 128000 ∧ (rgb 128 128 128).isDark = false := by decide +kernel

end Color

end ColorTheme
