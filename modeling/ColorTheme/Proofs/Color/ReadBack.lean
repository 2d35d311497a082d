import ColorTheme.Proofs.Color.Language
import ColorTheme.Proofs.Number.Shortest
import ColorTheme.Proofs.Text.Blank
import ColorTheme.Proofs.Text.Split

/-!
# Writing and reading

Each written form of a color is read as a color with the same rounded channels, and eight digits say of
a literal what it says itself, with each short digit doubled and full alpha if it gives none.
-/

namespace ColorTheme

open Binary64 (IsNumeral plainLayout)

namespace Color

/-! ### Numerals between separators -/

theorem isHexDigit_of_isDigit {c : Char} (hc : c.isDigit = true) : IsHexDigit c := by
  have hrange : '0' ≤ c ∧ c ≤ '9' := by
    rwa [Char.isDigit, Bool.and_eq_true, decide_eq_true_eq, decide_eq_true_eq] at hc
  have hvalue : hexValue? c = some (c.toNat - '0'.toNat) := if_pos hrange
  exact ⟨_, digitChar_of_hexValue? hvalue⟩

theorem isSeparator_of_isDigit {c : Char} (hc : c.isDigit = true) : isSeparator c = false := by
  have hblank := (isHexDigit_of_isDigit hc).not_blank
  have hcomma : c ≠ ',' := by
    rintro rfl
    cases hc
  simp [isSeparator, hblank, hcomma]

theorem isSeparator_of_mem_marks {c : Char} (hc : c ∈ Numeral.marks) : isSeparator c = false := by
  have hmarks : Numeral.marks.all (!isSeparator ·) = true := by decide
  simpa using List.all_eq_true.1 hmarks c hc

theorem any_isSeparator {cs : List Char} {x : Binary64} (h : IsNumeral cs x) :
    cs.any isSeparator = false := by
  obtain ⟨numeral, hspells, -⟩ := h
  rw [List.any_eq_false]
  intro c hc
  rw [Bool.not_eq_true]
  rcases hspells.mem hc with hdigit | hmark
  · exact isSeparator_of_isDigit hdigit
  · exact isSeparator_of_mem_marks hmark

section pieces
variable {cs : List Char} {x : Binary64} (h : IsNumeral cs x)
include h

theorem pieces_eq_self : pieces cs = [cs] := by
  rw [pieces, Text.split_eq_self (any_isSeparator h)]
  simp [h.ne_nil]

theorem pieces_append (rest : List Char) : pieces (cs ++ ',' :: ' ' :: rest) = cs :: pieces rest := by
  have hcomma : isSeparator ',' = true := rfl
  have hblank : isSeparator ' ' = true := rfl
  rw [pieces, pieces, Text.split_append_cons (any_isSeparator h) hcomma,
    Text.split_sep_cons hblank]
  simp [h.ne_nil]

end pieces

/-! ### The functional form -/

theorem isNumeral_byte (b : UInt8) : IsNumeral (digitsOf b.toNat) (Binary64.ofByte b) := by
  have hb : b.toNat < 256 := b.toNat_lt
  refine ⟨⟨false, digitsOf b.toNat, [], 0⟩, ⟨fun _ => isDigit_of_mem_digitsOf, nofun, [], _, [],
    .absent, .integer (digitsOf_ne_nil _), .absent, by simp⟩, ?_, ?_⟩
  · have hvalue : Numeral.value ⟨false, digitsOf b.toNat, [], 0⟩ = b.toNat := by
      simp [Numeral.value, ofDigits_digitsOf]
    rw [hvalue, Binary64.ofByte, Binary64.ofNat_eq_round]
  · exact (Binary64.hasValue_ofNat (show b.toNat < 2 ^ 53 by omega)).isFinite

theorem isNumeral_roundedAlpha (c : Color) :
    IsNumeral (c.roundedAlpha.write plainLayout) c.roundedAlpha := by
  obtain ⟨v, hv, -⟩ := c.exists_value_roundedAlpha
  exact Binary64.isNumeral_write plainLayout hv.isFinite

theorem toList_channelList (c : Color) : c.channelList.toList =
    digitsOf c.red.byte.toNat ++ ',' :: ' ' :: (digitsOf c.green.byte.toNat ++
      ',' :: ' ' :: digitsOf c.blue.byte.toNat) := by
  simp [channelList, digitsOf]

theorem parse_call {name body : List Char} {c : Color}
    (hname : name = ['r', 'g', 'b'] ∨ name = ['r', 'g', 'b', 'a'])
    (h : Arguments (pieces (Text.lower body)) c) :
    parse (String.ofList (name ++ '(' :: (body ++ [')']))) = .ok c := by
  have htrim : Text.trim (name ++ '(' :: (body ++ [')'])) = name ++ '(' :: (body ++ [')']) := by
    have hfirst : ∀ c ∈ (name ++ '(' :: (body ++ [')'])).head?, Text.isBlank c = false := by
      rcases hname with rfl | rfl <;>
        · rintro c hc
          obtain rfl := Option.some.inj hc
          decide
    have hlast : ∀ c ∈ (name ++ '(' :: (body ++ [')'])).getLast?, Text.isBlank c = false := by
      rw [← List.cons_append, ← List.append_assoc, List.getLast?_concat]
      rintro c hc
      obtain rfl := Option.some.inj hc
      decide
    simpa using Text.trim_append (List.forall_mem_nil _) (List.forall_mem_nil _) (by simp) hfirst hlast
  have hlower : Text.lower (name ++ '(' :: (body ++ [')'])) =
      name ++ '(' :: (Text.lower body ++ [')']) := by
    rcases hname with rfl | rfl <;> simp [Text.lower]
  rw [parse_eq_ok_iff, String.toList_ofList, htrim, hlower]
  exact .functional hname ⟨[], List.forall_mem_nil _, rfl⟩ h

theorem lower_numerals (cs ds : List Char) :
    Text.lower (cs ++ ',' :: ' ' :: ds) = Text.lower cs ++ ',' :: ' ' :: Text.lower ds := by
  simp [Text.lower]

theorem channel_byte (b : UInt8) :
    Quantity.channel ⟨Binary64.ofByte b, false⟩ = Binary64.ofByte b := by
  have hb : b.toNat < 2 ^ 53 := b.toNat_lt.trans (by decide)
  have hne : Binary64.ofByte b ≠ .nan := (Binary64.hasValue_ofNat hb).ne_nan
  rw [Quantity.channel, Quantity.onChannel, if_neg Bool.false_ne_true,
    ← Amount.number_clamp Channel.off hne]
  exact Channel.number_ofByte b

theorem alpha_roundedAlpha (c : Color) :
    Quantity.alpha ⟨c.roundedAlpha, false⟩ = (Alpha.ofNumber c.roundedAlpha).number := by
  obtain ⟨v, hv, -⟩ := c.exists_value_roundedAlpha
  rw [Quantity.alpha, Quantity.onAlpha, if_neg Bool.false_ne_true,
    ← Amount.number_clamp Alpha.full hv.ne_nan]
  rfl

theorem hasNumbers_solid (c : Color) : c.solid.HasNumbers
    (Quantity.channel ⟨.ofByte c.red.byte, false⟩) (Quantity.channel ⟨.ofByte c.green.byte, false⟩)
    (Quantity.channel ⟨.ofByte c.blue.byte, false⟩) 1 := by
  rw [channel_byte, channel_byte, channel_byte, hasNumbers_rgb_iff, solid]

theorem HasNumbers.withAlpha {c : Color} {r g b a : Binary64} (h : c.HasNumbers r g b a)
    (alpha : Binary64) : (c.withAlpha alpha).HasNumbers r g b (Alpha.ofNumber alpha).number :=
  ⟨h.red, h.green, h.blue, rfl⟩

theorem parse_css (c : Color) : parse c.css =
    .ok (if c.isOpaque then c.solid else c.solid.withAlpha c.roundedAlpha) := by
  -- Texts are read in lower case, which may change an exponent but no number.
  have hr := (isNumeral_byte c.red.byte).lower
  have hg := (isNumeral_byte c.green.byte).lower
  have hb := (isNumeral_byte c.blue.byte).lower
  unfold css
  split
  · have hcss : "rgb(" ++ c.channelList ++ ")" =
        String.ofList (['r', 'g', 'b'] ++ '(' :: (c.channelList.toList ++ [')'])) := by
      exact String.toList_inj.1 (by simp)
    rw [hcss]
    refine parse_call (.inl rfl) ?_
    rw [toList_channelList, lower_numerals, lower_numerals, pieces_append hr, pieces_append hg,
      pieces_eq_self hb]
    exact .three (.number hr) (.number hg) (.number hb) c.hasNumbers_solid
  · have ha := (isNumeral_roundedAlpha c).lower
    have hcss : "rgba(" ++ c.channelList ++ ", " ++
        String.ofList (c.roundedAlpha.write Binary64.plainLayout) ++ ")" =
        String.ofList (['r', 'g', 'b', 'a'] ++ '(' :: (c.channelList.toList ++
          ',' :: ' ' :: c.roundedAlpha.write plainLayout ++ [')'])) := by
      exact String.toList_inj.1 (by simp)
    rw [hcss]
    refine parse_call (.inr rfl) ?_
    rw [toList_channelList, List.append_assoc, List.cons_append, List.cons_append,
      List.append_assoc, List.cons_append, List.cons_append]
    rw [lower_numerals, lower_numerals, lower_numerals, pieces_append hr,
      pieces_append hg, pieces_append hb, pieces_eq_self ha]
    have hnumbers := c.hasNumbers_solid.withAlpha c.roundedAlpha
    rw [← alpha_roundedAlpha] at hnumbers
    exact .four (.number hr) (.number hg) (.number hb) (.number ha) hnumbers

/-! ### Hexadecimal literals -/

def hexCharacters : List Char := "0123456789abcdefABCDEF".toList

/-- Three, four, six or eight digits in any letter case. -/
structure IsHexLiteral (ds : List Char) : Prop where
  length : ds.length = 3 ∨ ds.length = 4 ∨ ds.length = 6 ∨ ds.length = 8
  digits : ∀ d ∈ ds, d ∈ hexCharacters

/-- Each digit twice, if there are four at most. -/
def expanded (ds : List Char) : List Char :=
  if ds.length ≤ 4 then ds.flatMap fun d => [d, d] else ds

/-- With the digits of full alpha, if there is none. -/
def completed (ds : List Char) : List Char := if ds.length = 6 then ds ++ ['f', 'f'] else ds

theorem isHexDigit_toLower {d : Char} (hd : d ∈ hexCharacters) : IsHexDigit d.toLower := by
  have hread : hexCharacters.all (fun d => (hexValue? d.toLower).isSome) = true := by decide
  obtain ⟨n, hn⟩ := Option.isSome_iff_exists.1 (List.all_eq_true.1 hread d hd)
  exact ⟨n, digitChar_of_hexValue? hn⟩

theorem not_blank_of_hexCharacter {d : Char} (hd : d ∈ hexCharacters) : Text.isBlank d = false := by
  have hblank : hexCharacters.all (!Text.isBlank ·) = true := by decide
  simpa using List.all_eq_true.1 hblank d hd

theorem exists_hexDigits {ds : List Char} (h : ∀ d ∈ ds, IsHexDigit d) :
    ∃ values, HexDigits ds values := by
  induction ds with
  | nil => exact ⟨[], .nil⟩
  | cons d ds ih =>
    obtain ⟨n, hn⟩ := h d List.mem_cons_self
    obtain ⟨values, hvalues⟩ := ih fun d hd => h d (List.mem_cons_of_mem _ hd)
    exact ⟨n :: values, .cons hn hvalues⟩

theorem exists_pair {n : Nat} {values : List Nat} (h : values.length = n + 2) :
    ∃ high low rest, values = high :: low :: rest ∧ rest.length = n := by
  obtain ⟨high, behind, rfl, hbehind⟩ := List.length_eq_succ_iff.1 h
  obtain ⟨low, rest, rfl, hrest⟩ := List.length_eq_succ_iff.1 hbehind
  exact ⟨high, low, rest, rfl, hrest⟩

theorem IsHexLiteral.exists_hexForm {ds : List Char} (h : IsHexLiteral ds) :
    ∃ c, HexForm (Text.lower ds) c := by
  have hdigits : ∀ d ∈ Text.lower ds, IsHexDigit d := by
    intro d hd
    obtain ⟨d, hmem, rfl⟩ := List.mem_map.1 hd
    exact isHexDigit_toLower (h.digits d hmem)
  obtain ⟨values, hvalues⟩ := exists_hexDigits hdigits
  have hlength : values.length = ds.length := by
    rw [← List.Forall₂.length_eq hvalues, Text.lower, List.length_map]
  have hcases := h.length
  rw [← hlength] at hcases
  rcases hcases with h | h | h | h
  · obtain ⟨r, g, b, rfl⟩ := List.length_eq_three.1 h
    exact ⟨_, hexForm_iff.2 ⟨_, hvalues, rfl⟩⟩
  · obtain ⟨r, g, b, a, rfl⟩ := List.length_eq_four.1 h
    exact ⟨_, hexForm_iff.2 ⟨_, hvalues, rfl⟩⟩
  · obtain ⟨r, r', rest, rfl, hrest⟩ := exists_pair h
    obtain ⟨g, g', b, b', rfl⟩ := List.length_eq_four.1 hrest
    exact ⟨_, hexForm_iff.2 ⟨_, hvalues, rfl⟩⟩
  · obtain ⟨r, r', rest, rfl, hrest⟩ := exists_pair h
    obtain ⟨g, g', later, rfl, hlater⟩ := exists_pair hrest
    obtain ⟨b, b', a, a', rfl⟩ := List.length_eq_four.1 hlater
    exact ⟨_, hexForm_iff.2 ⟨_, hvalues, rfl⟩⟩

theorem hexByte_paired {m n : Nat} (hm : m < 16) (hn : n < 16) :
    hexByte (paired m n) = [Nat.digitChar m, Nat.digitChar n] := by
  have hlt : 16 * m + n < 256 := by omega
  have hbyte : (paired m n).toNat = 16 * m + n := UInt8.toNat_ofNat_of_lt' hlt
  rw [hexByte, hbyte]
  congr 2
  · omega
  · congr 1
    omega

theorem hexByte_doubled {n : Nat} (hn : n < 16) :
    hexByte (doubled n) = [Nat.digitChar n, Nat.digitChar n] := by
  have hpaired : doubled n = paired n n := by
    rw [doubled, paired]
    congr 1
    omega
  rw [hpaired, hexByte_paired hn hn]

theorem byte_full : Alpha.full.byte = 255 := by decide +kernel

theorem hex8_rgb (r g b : UInt8) : (rgb r g b).hex8 =
    String.ofList ('#' :: (hexByte r ++ hexByte g ++ hexByte b ++ ['f', 'f'])) := by
  have hfull : hexByte Alpha.full.byte = ['f', 'f'] := by
    rw [byte_full]
    rfl
  simp only [hex8, hexDigits, rgb, Channel.byte_ofByte, hfull]

theorem hex8_rgba (r g b a : UInt8) : (rgba r g b (alphaOfByte a)).hex8 =
    String.ofList ('#' :: (hexByte r ++ hexByte g ++ hexByte b ++ hexByte a)) := by
  simp only [hex8, hexDigits, rgba, withAlpha, rgb, Channel.byte_ofByte, byte_alphaOfByte]

/-- **Eight digits of what a literal denotes** are its own, expanded and completed. -/
theorem HexForm.hex8_eq {ds : List Char} {c : Color} (h : HexForm ds c) :
    c.hex8 = String.ofList ('#' :: completed (expanded ds)) := by
  obtain ⟨values, h, hc⟩ := hexForm_iff.1 h
  obtain ⟨rfl, hvalues⟩ := h.eq_map
  unfold ofHexValues at hc
  split at hc
  · obtain rfl := Option.some.inj hc
    simp only [List.forall_mem_cons] at hvalues
    obtain ⟨h1, h2, h3, -⟩ := hvalues
    rw [hex8_rgb, hexByte_doubled h1, hexByte_doubled h2, hexByte_doubled h3]
    rfl
  · obtain rfl := Option.some.inj hc
    simp only [List.forall_mem_cons] at hvalues
    obtain ⟨h1, h2, h3, h4, -⟩ := hvalues
    rw [hex8_rgba, hexByte_doubled h1, hexByte_doubled h2, hexByte_doubled h3,
      hexByte_doubled h4]
    rfl
  · obtain rfl := Option.some.inj hc
    simp only [List.forall_mem_cons] at hvalues
    obtain ⟨h1, h2, h3, h4, h5, h6, -⟩ := hvalues
    rw [hex8_rgb, hexByte_paired h1 h2, hexByte_paired h3 h4, hexByte_paired h5 h6]
    rfl
  · obtain rfl := Option.some.inj hc
    simp only [List.forall_mem_cons] at hvalues
    obtain ⟨h1, h2, h3, h4, h5, h6, h7, h8, -⟩ := hvalues
    rw [hex8_rgba, hexByte_paired h1 h2, hexByte_paired h3 h4, hexByte_paired h5 h6,
      hexByte_paired h7 h8]
    rfl
  · cases hc

/-- A literal is read with a mark or without, and between blanks. -/
theorem parse_hexLiteral {front mark ds back : List Char}
    (hfront : ∀ b ∈ front, Text.isBlank b = true) (hback : ∀ b ∈ back, Text.isBlank b = true)
    (hmark : mark = [] ∨ mark = ['#']) (hds : IsHexLiteral ds) :
    ∃ c, parse (String.ofList (front ++ (mark ++ ds ++ back))) = .ok c ∧
      c.hex8 = String.ofList ('#' :: completed (expanded (Text.lower ds))) := by
  obtain ⟨c, hform⟩ := hds.exists_hexForm
  refine ⟨c, ?_, hform.hex8_eq⟩
  have hblank : ∀ d ∈ mark ++ ds, Text.isBlank d = false := by
    intro d hd
    rcases List.mem_append.1 hd with hd | hd
    · rcases hmark with rfl | rfl
      · cases hd
      · obtain rfl := List.mem_singleton.1 hd
        decide
    · exact not_blank_of_hexCharacter (hds.digits d hd)
  have hne : mark ++ ds ≠ [] := by
    have hlength := hds.length
    rintro hnil
    rw [(List.append_eq_nil_iff.1 hnil).2] at hlength
    simp at hlength
  have htrim : Text.trim (front ++ (mark ++ ds ++ back)) = mark ++ ds :=
    Text.trim_append hfront hback hne (fun d hd => hblank d (List.mem_of_mem_head? hd))
      fun d hd => hblank d (List.mem_of_mem_getLast? hd)
  have hlower : Text.lower (mark ++ ds) = mark ++ Text.lower ds := by
    rcases hmark with rfl | rfl <;> rfl
  rw [parse_eq_ok_iff, String.toList_ofList, htrim, hlower]
  exact .hex hmark hform

/-! ### All forms -/

/-- Each written form of the color is read, as a color with the same rounded channels. -/
structure ReadsBack (c : Color) : Prop where
  hex : ∃ read, parse c.hex = .ok read ∧ Alike read c
  hex8 : ∃ read, parse c.hex8 = .ok read ∧ Alike read c ∧ read.alpha.byte = c.alpha.byte
  css : ∃ read, parse c.css = .ok read ∧ Alike read c ∧
    read.alpha.number = if c.isOpaque then 1 else c.roundedAlpha
  text : ∃ read, parse c.text = .ok read ∧ Alike read c

/-- **Writing and reading agree**: every form of every color is read back, and hexadecimal literals are
written as they were read. -/
theorem forms_read_back :
    (∀ c : Color, ReadsBack c) ∧
      ∀ front mark ds back : List Char, (∀ b ∈ front, Text.isBlank b = true) →
        (∀ b ∈ back, Text.isBlank b = true) → mark = [] ∨ mark = ['#'] → IsHexLiteral ds →
        ∃ c, parse (String.ofList (front ++ (mark ++ ds ++ back))) = .ok c ∧
          c.hex8 = String.ofList ('#' :: completed (expanded (Text.lower ds))) := by
  refine ⟨fun c => ⟨?_, ?_, ?_, c.parse_text⟩, fun front mark ds back => parse_hexLiteral⟩
  · exact ⟨c.solid, c.parse_hex, c.alike_solid⟩
  · refine ⟨_, c.parse_hex8, c.alike_solid.withAlpha _, ?_⟩
    rw [alpha_withAlpha, byte_alphaOfByte]
  · refine ⟨_, c.parse_css, ?_⟩
    split
    · refine ⟨c.alike_solid, ?_⟩
      rw [solid, rgb, Alpha.full]
    · refine ⟨c.alike_solid.withAlpha _, ?_⟩
      rw [alpha_withAlpha, number_ofNumber_roundedAlpha]

theorem forms_read_back_capitals :
    ∃ c, parse " #AbC\n" = .ok c ∧ c.hex8 = "#aabbccff" := by
  have hspace : ∀ b ∈ [' '], Text.isBlank b = true := List.forall_mem_singleton.2 (by decide)
  have hline : ∀ b ∈ ['\n'], Text.isBlank b = true := List.forall_mem_singleton.2 (by decide)
  have hdigits : ['A', 'b', 'C'].all (hexCharacters.contains ·) = true := by decide
  exact forms_read_back.2 [' '] ['#'] ['A', 'b', 'C'] ['\n'] hspace hline (.inr rfl)
    ⟨.inl rfl, by simpa using hdigits⟩

end Color

end ColorTheme
