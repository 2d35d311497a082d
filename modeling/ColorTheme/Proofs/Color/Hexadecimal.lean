import ColorTheme.Color.Parser
import ColorTheme.Color.Printer
import ColorTheme.Proofs.Number.Whole
import Mathlib.Tactic.IntervalCases

/-!
# Reading hexadecimal forms back

What is written in six or eight digits is read as a color with the same rounded channels.  The
digits are told one at a time, so every fact about a form is a fact about sixteen characters.
-/

namespace ColorTheme

/-! ### Texts without blanks and capitals -/

namespace Text

theorem dropWhile_eq_self {p : Char → Bool} {cs : List Char} (h : ∀ c ∈ cs, p c = false) :
    cs.dropWhile p = cs := by
  cases cs with
  | nil => rfl
  | cons c rest => rw [List.dropWhile_cons, h c List.mem_cons_self, if_neg Bool.false_ne_true]

theorem trim_eq_self {cs : List Char} (h : ∀ c ∈ cs, isBlank c = false) : trim cs = cs := by
  have hreverse : ∀ c ∈ cs.reverse, isBlank c = false :=
    fun c hc => h c (List.mem_reverse.1 hc)
  rw [trim, trimStart, dropWhile_eq_self h, trimEnd, dropWhile_eq_self hreverse,
    List.reverse_reverse]

theorem lower_eq_self {cs : List Char} (h : ∀ c ∈ cs, c.toLower = c) : lower cs = cs := by
  rw [lower, List.map_congr_left h, List.map_id']

end Text

/-! ### Channels of bytes -/

theorem Amount.number_clamp {high : Binary64} (default : Amount high) {x : Binary64}
    (hx : x ≠ .nan) : (Amount.clamp default x).number = x.clamp 0 high := by
  rw [Amount.clamp, dif_neg hx]

namespace Channel

theorem number_ofByte (b : UInt8) : (ofByte b).number = Binary64.ofByte b := by
  have hb : b.toNat ≤ 255 := Nat.le_of_lt_succ b.toNat_lt
  have hne : Binary64.ofByte b ≠ .nan := by
    obtain ⟨m, hm, -⟩ := Binary64.ofNat_exact (show b.toNat < 2 ^ 53 by omega)
    rw [Binary64.ofByte, hm]
    exact nofun
  rw [ofByte, ofNumber, Amount.number_clamp off hne, Binary64.numeral_eq, Binary64.numeral_eq,
    Binary64.ofByte, Binary64.clamp_ofNat (Nat.zero_le _) hb (by decide)]

theorem byte_ofByte (b : UInt8) : (ofByte b).byte = b := by
  have hb : b.toNat < 256 := b.toNat_lt
  rw [byte, number_ofByte, Binary64.ofByte, Binary64.roundHalfAway_ofNat (by omega),
    Binary64.toByte_ofNat hb, UInt8.ofNat_toNat]

end Channel

/-! ### Digits -/

/-- The lowercase digits of hexadecimal numbers. -/
def IsHexDigit (c : Char) : Prop := ∃ n < 16, c = Nat.digitChar n

namespace IsHexDigit

variable {c : Char}

theorem not_blank (h : IsHexDigit c) : Text.isBlank c = false := by
  obtain ⟨n, hn, rfl⟩ := h
  interval_cases n <;> decide

theorem toLower_eq (h : IsHexDigit c) : c.toLower = c := by
  obtain ⟨n, hn, rfl⟩ := h
  interval_cases n <;> decide

end IsHexDigit

theorem isHexDigit_of_mem_hexByte {b : UInt8} {c : Char} (h : c ∈ hexByte b) : IsHexDigit c := by
  have hb : b.toNat < 256 := b.toNat_lt
  simp only [hexByte, List.mem_cons, List.not_mem_nil, or_false] at h
  rcases h with rfl | rfl
  · exact ⟨b.toNat / 16, by omega, rfl⟩
  · exact ⟨b.toNat % 16, by omega, rfl⟩

namespace Color

theorem isHexDigit_of_mem_hexDigits {color : Color} {c : Char} (h : c ∈ color.hexDigits) :
    IsHexDigit c := by
  rw [hexDigits, List.mem_append, List.mem_append] at h
  rcases h with (h | h) | h <;> exact isHexDigit_of_mem_hexByte h

/-! ### Reading digits -/

theorem hexValue?_digitChar {n : Nat} (hn : n < 16) : hexValue? (Nat.digitChar n) = some n := by
  interval_cases n <;> decide

theorem mapM_hexByte_append (b : UInt8) (rest : List Char) :
    (hexByte b ++ rest).mapM hexValue? =
      (rest.mapM hexValue?).map fun values => b.toNat / 16 :: b.toNat % 16 :: values := by
  have hb : b.toNat < 256 := b.toNat_lt
  have hhigh := hexValue?_digitChar (show b.toNat / 16 < 16 by omega)
  have hlow := hexValue?_digitChar (show b.toNat % 16 < 16 by omega)
  simp only [hexByte, List.cons_append, List.nil_append, List.mapM_cons, hhigh, hlow]
  cases rest.mapM hexValue? <;> rfl

theorem paired_halves (b : UInt8) : paired (b.toNat / 16) (b.toNat % 16) = b := by
  rw [paired, Nat.div_add_mod, UInt8.ofNat_toNat]

theorem parse_of_digits {ds : List Char} (hds : ∀ c ∈ ds, IsHexDigit c) {color : Color}
    (hcolor : ofHex? ds = some color) : parse (String.ofList ('#' :: ds)) = .ok color := by
  have hblank : ∀ c ∈ '#' :: ds, Text.isBlank c = false := by
    intro c hc
    rcases List.mem_cons.1 hc with rfl | hc
    · decide
    · exact (hds c hc).not_blank
  have hlower : ∀ c ∈ '#' :: ds, c.toLower = c := by
    intro c hc
    rcases List.mem_cons.1 hc with rfl | hc
    · decide
    · exact (hds c hc).toLower_eq
  have hread : ofLower? ('#' :: ds) = some color := by
    simp [ofLower?, functional?, arguments?, dropFront?, hcolor]
  rw [parse, String.toList_ofList, Text.trim_eq_self hblank, Text.lower_eq_self hlower, hread]
  rfl

/-! ### The forms -/

/-- **Six digits are read as the rounded channels.** -/
theorem parse_hex (c : Color) : parse c.hex = .ok c.solid := by
  refine parse_of_digits (fun d hd => isHexDigit_of_mem_hexDigits hd) ?_
  have hvalues := mapM_hexByte_append c.blue.byte []
  rw [List.append_nil, List.mapM_nil] at hvalues
  rw [ofHex?, hexDigits, List.append_assoc, mapM_hexByte_append, mapM_hexByte_append, hvalues]
  simp [ofHexValues, paired_halves, solid]

/-- **Eight digits are read as the rounded channels and the rounded alpha.** -/
theorem parse_hex8 (c : Color) :
    parse c.hex8 = .ok (c.solid.withAlpha (alphaOfByte c.alpha.byte)) := by
  refine parse_of_digits ?_ ?_
  · intro d hd
    rcases List.mem_append.1 hd with hd | hd
    · exact isHexDigit_of_mem_hexDigits hd
    · exact isHexDigit_of_mem_hexByte hd
  · have hvalues := mapM_hexByte_append c.alpha.byte []
    rw [List.append_nil, List.mapM_nil] at hvalues
    rw [ofHex?, hexDigits, List.append_assoc, List.append_assoc, mapM_hexByte_append,
      mapM_hexByte_append, mapM_hexByte_append, hvalues]
    simp [ofHexValues, paired_halves, solid, rgba]

/-! ### Colors that are alike -/

/-- Two colors with the same rounded channels. -/
structure Alike (a b : Color) : Prop where
  red : a.red.byte = b.red.byte
  green : a.green.byte = b.green.byte
  blue : a.blue.byte = b.blue.byte

theorem alike_solid (c : Color) : Alike c.solid c where
  red := by simp only [solid, rgb, Channel.byte_ofByte]
  green := by simp only [solid, rgb, Channel.byte_ofByte]
  blue := by simp only [solid, rgb, Channel.byte_ofByte]

theorem Alike.withAlpha {a b : Color} (h : Alike a b) (alpha : Binary64) :
    Alike (a.withAlpha alpha) b :=
  ⟨h.red, h.green, h.blue⟩

theorem Alike.isDark_eq {a b : Color} (h : Alike a b) : a.isDark = b.isDark := by
  rw [isDark, isDark, brightness, brightness, h.red, h.green, h.blue]

/-- **A color is read back from the form that it is shown in with the same rounded channels.** -/
theorem parse_text (c : Color) : ∃ read, parse c.text = .ok read ∧ Alike read c := by
  unfold text
  split
  · exact ⟨c.solid, c.parse_hex, c.alike_solid⟩
  · exact ⟨_, c.parse_hex8, c.alike_solid.withAlpha _⟩

end Color

end ColorTheme
