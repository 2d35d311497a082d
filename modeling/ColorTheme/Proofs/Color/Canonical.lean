import ColorTheme.Json.Words
import ColorTheme.Proofs.Color.ReadBack
import ColorTheme.Proofs.Json.RoundTrip

/-!
# Canonical texts

The text that a color is shown in is read back unchanged, unless the color lets so little through that
its alpha rounds to the last byte: such a color is shown with eight digits and read as an opaque one.
From then on the text does not change any more.
-/

namespace ColorTheme.Color

/-- **The text is read back as a color with the same text**, opaque or not, and in JSON too. -/
def Canonical (c : Color) : Prop :=
  ∃ read, parse c.text = .ok read ∧ ofJson c.toJson.compact = .ok read ∧
    read.text = c.text ∧ read.isOpaque = c.isOpaque

/-! ### Reading the text -/

theorem ofJson_compact {c read : Color} (h : parse c.text = .ok read) :
    ofJson c.toJson.compact = .ok read := by
  have hjson : c.toJson.compact.toList = Json.quotedChars c.text ++ [] := by
    rw [toJson, Json.compact, Json.quoted, String.toList_ofList, List.append_nil]
  rw [ofJson, Json.Reader.whole, hjson, TextMap.textValue_quoted, Except.ok_bind]
  simp only [h]
  rfl

theorem Alike.hex_eq {a b : Color} (h : Alike a b) : a.hex = b.hex := by
  rw [hex, hex, hexDigits, hexDigits, h.red, h.green, h.blue]

/-- The color of the rounded channels and the rounded alpha. -/
def rounded (c : Color) : Color := c.solid.withAlpha (alphaOfByte c.alpha.byte)

theorem parse_text_eq (c : Color) :
    parse c.text = .ok (if c.isOpaque then c.solid else c.rounded) := by
  unfold text
  split
  · exact c.parse_hex
  · exact c.parse_hex8

theorem isOpaque_rgb (r g b : UInt8) : (rgb r g b).isOpaque = true := by
  rw [isOpaque, rgb, Alpha.full, decide_eq_true_iff]
  exact Binary64.le_refl (Binary64.ne_nan_of_le Alpha.full.le_high).2

theorem isOpaque_solid (c : Color) : c.solid.isOpaque = true := isOpaque_rgb _ _ _

theorem byte_rounded (c : Color) : c.rounded.alpha.byte = c.alpha.byte := by
  rw [rounded, alpha_withAlpha, byte_alphaOfByte]

theorem isOpaque_rounded (c : Color) : c.rounded.isOpaque = true ↔ c.alpha.byte = 255 := by
  rw [isOpaque, decide_eq_true_iff, rounded, alpha_withAlpha, number_ofNumber_alphaOfByte,
    one_le_alphaOfByte_iff]

theorem text_of_isOpaque {c : Color} (h : c.isOpaque = true) : c.text = c.hex := if_pos h

theorem text_of_not_isOpaque {c : Color} (h : ¬ c.isOpaque = true) : c.text = c.hex8 := if_neg h

theorem hex_rounded (c : Color) : c.rounded.hex = c.hex := (c.alike_solid.withAlpha _).hex_eq

theorem hex8_rounded (c : Color) : c.rounded.hex8 = c.hex8 := by
  rw [hex8_eq, hex8_eq, hex_rounded, byte_rounded]

theorem canonical_of_isOpaque {c : Color} (h : c.isOpaque = true) : Canonical c := by
  have hread := c.parse_text_eq
  rw [if_pos h] at hread
  refine ⟨c.solid, hread, ofJson_compact hread, ?_, c.isOpaque_solid.trans h.symm⟩
  rw [text_of_isOpaque c.isOpaque_solid, text_of_isOpaque h, c.alike_solid.hex_eq]

/-- **Only where the alpha rounds to the last byte** the text is not read back unchanged. -/
theorem canonical_iff (c : Color) : Canonical c ↔ c.isOpaque = true ∨ c.alpha.byte ≠ 255 := by
  by_cases hopaque : c.isOpaque = true
  · exact iff_of_true (canonical_of_isOpaque hopaque) (.inl hopaque)
  · have hread := c.parse_text_eq
    rw [if_neg hopaque] at hread
    -- The alpha that is read is the rounded one, and whether it is opaque shows in its byte.
    rw [ne_eq, ← c.isOpaque_rounded]
    constructor
    · rintro ⟨read, hparse, -, -, hsame⟩
      obtain rfl := Except.ok.inj (hread.symm.trans hparse)
      rw [hsame]
      exact .inr hopaque
    · intro h
      have hrounded := h.resolve_left hopaque
      refine ⟨c.rounded, hread, ofJson_compact hread, ?_, ?_⟩
      · rw [text_of_not_isOpaque hrounded, text_of_not_isOpaque hopaque, hex8_rounded]
      · rw [Bool.eq_iff_iff]
        exact iff_of_false hrounded hopaque

/-- In hexadecimal digits the alpha is a byte, and only the last one is opaque. -/
theorem HexForm.opaque_or {ds : List Char} {c : Color} (h : HexForm ds c) :
    c.isOpaque = true ∨ c.alpha.byte ≠ 255 := by
  have hbyte (r g b a : UInt8) : (rgba r g b (alphaOfByte a)).isOpaque = true ∨
      (rgba r g b (alphaOfByte a)).alpha.byte ≠ 255 := by
    rw [isOpaque, decide_eq_true_iff, rgba, alpha_withAlpha, number_ofNumber_alphaOfByte,
      one_le_alphaOfByte_iff, byte_alphaOfByte]
    exact Decidable.em _
  obtain ⟨values, -, hc⟩ := hexForm_iff.1 h
  unfold ofHexValues at hc
  split at hc
  · obtain rfl := Option.some.inj hc
    exact .inl (isOpaque_rgb _ _ _)
  · obtain rfl := Option.some.inj hc
    exact hbyte _ _ _ _
  · obtain rfl := Option.some.inj hc
    exact .inl (isOpaque_rgb _ _ _)
  · obtain rfl := Option.some.inj hc
    exact hbyte _ _ _ _
  · cases hc

/-! ### Round trips -/

/-- **A text that is read back and written again** is canonical, and it is the first text, or that
text without the two digits of full alpha. -/
theorem text_canonical (c : Color) :
    (Canonical c ↔ c.isOpaque = true ∨ c.alpha.byte ≠ 255) ∧
      (∃ read, parse c.text = .ok read ∧ ofJson c.toJson.compact = .ok read ∧ Canonical read ∧
        (Canonical c ∨ c.text = c.hex ++ "ff" ∧ read.text = c.hex ∧ read.isOpaque = true)) ∧
      ∀ ds, HexForm ds c → Canonical c := by
  refine ⟨c.canonical_iff, ?_, fun ds h => c.canonical_iff.2 h.opaque_or⟩
  have hread := c.parse_text_eq
  by_cases hopaque : c.isOpaque = true
  · rw [if_pos hopaque] at hread
    exact ⟨c.solid, hread, ofJson_compact hread, canonical_of_isOpaque c.isOpaque_solid,
      .inl (canonical_of_isOpaque hopaque)⟩
  · rw [if_neg hopaque] at hread
    refine ⟨c.rounded, hread, ofJson_compact hread, ?_, ?_⟩
    · rw [canonical_iff, isOpaque_rounded, byte_rounded]
      exact Decidable.em _
    · by_cases hbyte : c.alpha.byte = 255
      · have hrounded := c.isOpaque_rounded.2 hbyte
        have hlast : String.ofList (hexByte 255) = "ff" := rfl
        refine .inr ⟨?_, ?_, hrounded⟩
        · rw [text_of_not_isOpaque hopaque, hex8_eq, hbyte, hlast]
        · rw [text_of_isOpaque hrounded, hex_rounded]
      · exact .inl (c.canonical_iff.2 (.inr hbyte))

theorem text_canonical_digits :
    Canonical (rgba (doubled 10) (doubled 11) (doubled 12) (alphaOfByte (doubled 8))) :=
  (text_canonical _).2.2 ['a', 'b', 'c', '8'] (hexForm_iff.2 ⟨_, mapM_hexValue?_eq_some_iff.1 rfl, rfl⟩)

/-- A color that lets a thousandth through is shown as `#ffffffff` and read back as opaque. -/
theorem text_changes_nearly_opaque : ∃ c, parse "rgba(255, 255, 255, 0.999)" = .ok c ∧
    c.text = "#ffffffff" ∧ c.isOpaque = false ∧
    ∃ read, parse c.text = .ok read ∧ read.text = "#ffffff" ∧ read.isOpaque = true := by
  refine ⟨ofNumbers 255 255 255 0.999, by decide +kernel, by decide +kernel, by decide +kernel,
    rgba 255 255 255 1, by decide +kernel, by decide +kernel, by decide +kernel⟩

end ColorTheme.Color
