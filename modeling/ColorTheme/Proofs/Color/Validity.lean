import ColorTheme.Proofs.Color.Plain
import ColorTheme.Proofs.Color.ReadBack

/-!
# Every color is valid

Computing with plain numbers gives the numbers of the color and is never stopped, whatever numbers are
asked for, `nan` and the infinities among them.  So every color has its channels and its alpha in their
ranges, and its bytes are the rounded numbers themselves.
-/

namespace ColorTheme

open Binary64

/-! ### Attempts -/

namespace Attempt

variable {α β : Type}

@[simp]
theorem answer_bind (a : α) (f : α → Attempt β) : (.answer a >>= f) = f a := rfl

@[simp]
theorem refused_bind (f : α → Attempt β) : (.refused >>= f) = .refused := rfl

@[simp]
theorem pure_eq (a : α) : (pure a : Attempt α) = .answer a := rfl

@[simp]
theorem ofOption_some (a : α) : ofOption (some a) = .answer a := rfl

@[simp]
theorem ofOption_none : ofOption (none : Option α) = .refused := rfl

theorem clamp_of_le {low high : Binary64} (h : low ≤ high) (x : Binary64) :
    clamp x low high = .answer (x.clamp low high) := if_pos h

theorem doubled_eq {values : List Nat} {i n : Nat} (h : values[i]? = some n) (hn : n < 16) :
    doubled values i = .answer (Color.doubled n) := by
  rw [doubled, entry, h, answer_bind, if_pos (by omega), Color.doubled]

theorem paired_eq {values : List Nat} {i m n : Nat} (hm : values[i]? = some m)
    (hn : values[i + 1]? = some n) (hm16 : m < 16) (hn16 : n < 16) :
    paired values i = .answer (Color.paired m n) := by
  rw [paired, entry, entry, hm, hn, answer_bind, answer_bind, if_pos (by omega), Color.paired]

end Attempt

open Attempt

/-! ### The numbers of a color -/

def Color.plain (c : Color) : Plain :=
  ⟨c.red.number, c.green.number, c.blue.number, c.alpha.number⟩

namespace Plain

theorem isNan_iff (x : Binary64) : x.isNan = true ↔ x = .nan := by
  cases x <;> simp [isNan]

theorem clamp_eq {high : Binary64} (default : Amount high) (x : Binary64) :
    (if x.isNan then .answer default.number else Attempt.clamp x 0 high) =
      .answer (Amount.clamp default x).number := by
  have hrange : 0 ≤ high := Binary64.le_trans default.zero_le default.le_high
  simp only [isNan_iff, Attempt.clamp_of_le hrange]
  split
  · rename_i hx
    rw [Amount.clamp, dif_pos hx]
  · rename_i hx
    rw [Amount.number_clamp default hx]

theorem channel_eq (x : Binary64) : channel x = .answer (Channel.ofNumber x).number :=
  clamp_eq Channel.off x

theorem opacity_eq (x : Binary64) : opacity x = .answer (Alpha.ofNumber x).number :=
  clamp_eq Alpha.full x

/-! ### Making and changing colors -/

theorem ofNumbers_eq (r g b a : Binary64) :
    ofNumbers r g b a = .answer (Color.ofNumbers r g b a).plain := by
  simp only [ofNumbers, channel_eq, opacity_eq, answer_bind, pure_eq]
  rfl

theorem rgb_eq (r g b : UInt8) : rgb r g b = (Color.rgb r g b).plain := by
  simp only [rgb, Color.plain, Color.rgb, Channel.number_ofByte]
  rfl

theorem withAlpha_eq (c : Color) (a : Binary64) :
    c.plain.withAlpha a = .answer (c.withAlpha a).plain := by
  simp only [withAlpha, opacity_eq, answer_bind, pure_eq]
  rfl

theorem rgba_eq (r g b : UInt8) (a : Binary64) :
    rgba r g b a = .answer (Color.rgba r g b a).plain := by
  rw [rgba, rgb_eq, withAlpha_eq, Color.rgba]

/-- **HSL of any numbers** is a color: what is no number comes out as no light, or as full alpha. -/
theorem ofHsl_eq (x : Hsl) (a : Binary64) : ofHsl x a = .answer (Color.ofHsl x a).plain := by
  have hunit : (0 : Binary64) ≤ 1 := Binary64.le_trans Alpha.full.zero_le Alpha.full.le_high
  have hsaturation := Attempt.clamp_of_le hunit x.saturation
  have hlightness := Attempt.clamp_of_le hunit x.lightness
  unfold ofHsl
  dsimp only
  rw [hsaturation, answer_bind, hlightness, answer_bind, Color.ofHsl, Hsl.normalized]
  dsimp only
  generalize x.saturation.clamp 0 1 = s, x.lightness.clamp 0 1 = l
  split
  · exact ofNumbers_eq _ _ _ _
  · exact ofNumbers_eq _ _ _ _

theorem mapHsl_eq (f : Hsl → Hsl) (c : Color) :
    c.plain.mapHsl f = .answer (c.mapHsl f).plain := ofHsl_eq (f c.toHsl) c.alpha.number

/-! ### Reading colors -/

theorem ofHexValues_eq {values : List Nat} (h : ∀ n ∈ values, n < 16) :
    ofHexValues values = .ofOption ((Color.ofHexValues values).map Color.plain) := by
  match values, h with
  | [r, g, b], h =>
    simp only [List.forall_mem_cons] at h
    simp [ofHexValues, Color.ofHexValues, doubled_eq, rgb_eq, h]
  | [r, g, b, a], h =>
    simp only [List.forall_mem_cons] at h
    simp [ofHexValues, Color.ofHexValues, doubled_eq, rgba_eq, h]
  | [r, r', g, g', b, b'], h =>
    simp only [List.forall_mem_cons] at h
    simp [ofHexValues, Color.ofHexValues, paired_eq, rgb_eq, h]
  | [r, r', g, g', b, b', a, a'], h =>
    simp only [List.forall_mem_cons] at h
    simp [ofHexValues, Color.ofHexValues, paired_eq, rgba_eq, h]
  | [], _ => rfl
  | [_], _ => rfl
  | [_, _], _ => rfl
  | [_, _, _, _, _], _ => rfl
  | [_, _, _, _, _, _, _], _ => rfl
  | _ :: _ :: _ :: _ :: _ :: _ :: _ :: _ :: _ :: _, _ => rfl

theorem ofHex_eq (cs : List Char) : ofHex cs = .ofOption ((Color.ofHex? cs).map Color.plain) := by
  rw [ofHex, Color.ofHex?]
  cases hvalues : cs.mapM Color.hexValue? with
  | none => rfl
  | some values =>
    have hdigits := Color.HexDigits.eq_map (Color.mapM_hexValue?_eq_some_iff.1 hvalues)
    exact ofHexValues_eq hdigits.2

theorem channelNumber_eq (cs : List Char) :
    channelNumber cs = .ofOption (Color.channelNumber? cs) := by
  have hpercent : (0 : Binary64) ≤ 100 := by decide +kernel
  unfold channelNumber Color.channelNumber?
  cases Color.dropLast? '%' cs with
  | none => rfl
  | some percent =>
    dsimp only
    cases Color.finiteNumber? percent with
    | none => rfl
    | some p => simp [Attempt.clamp_of_le hpercent]

theorem ofArguments_eq (cs : List Char) :
    ofArguments cs = .ofOption ((Color.ofArguments? cs).map Color.plain) := by
  unfold ofArguments Color.ofArguments?
  simp only [channelNumber_eq]
  generalize Color.pieces cs = ps
  rcases ps with _ | ⟨r, _ | ⟨g, _ | ⟨b, _ | ⟨a, _ | ⟨_, _⟩⟩⟩⟩⟩
  · rfl
  · rfl
  · rfl
  · dsimp only
    cases Color.channelNumber? r <;> cases Color.channelNumber? g <;>
      cases Color.channelNumber? b <;> simp [ofNumbers_eq]
  · dsimp only
    cases Color.channelNumber? r <;> cases Color.channelNumber? g <;>
      cases Color.channelNumber? b <;> cases Color.alphaNumber? a <;> simp [ofNumbers_eq]
  · rfl

/-- **Reading a text** is never stopped. -/
theorem parse_eq (text : String) :
    parse text = .ofOption ((Color.parse text).toOption.map Color.plain) := by
  unfold parse Color.parse Color.ofLower?
  dsimp only
  generalize Text.trim text.toList = cs
  split
  · rfl
  · cases Color.functional? (Text.lower cs) with
    | some arguments =>
      dsimp only
      rw [ofArguments_eq]
      cases Color.ofArguments? arguments <;> rfl
    | none =>
      dsimp only
      rw [ofHex_eq]
      cases Color.ofHex? _ <;> rfl

end Plain

/-! ### Bytes -/

theorem cast_of_hasValue {x : Binary64} {n : Nat} (hx : HasValue x n) (hn : n ≤ 255) :
    Attempt.cast x = .answer (.ofNat n) ∧ x.toByte = .ofNat n := by
  have hrange : 0 ≤ x ∧ x ≤ 255 :=
    hx.mem_range (n := 255) (by decide) (Nat.cast_nonneg n) (Nat.cast_le.2 hn)
  have hbyte := hx.toByte (by omega)
  exact ⟨by rw [Attempt.cast, if_pos hrange, hbyte], hbyte⟩

theorem cast_roundHalfAway {x : Binary64} {v : Rat} (hx : HasValue x v) (h0 : 0 ≤ v)
    (h1 : v ≤ (255 : Nat)) :
    Attempt.cast x.roundHalfAway = .answer x.roundHalfAway.toByte ∧
      x.roundHalfAway.toByte.toNat = ⌊v + 1 / 2⌋₊ := by
  have hfloor := floor_le_of_le h1
  obtain ⟨hcast, hbyte⟩ :=
    cast_of_hasValue ((hx.roundHalfAway h0).hasValue_natCast (by omega)) hfloor
  rw [hcast, hbyte]
  exact ⟨rfl, UInt8.toNat_ofNat_of_lt' (Nat.lt_succ_of_le hfloor)⟩

namespace Plain

/-- The number is a channel, and the byte is the number rounded, a half upward. -/
def IsChannel (x : Binary64) (byte : UInt8) : Prop :=
  ∃ v, HasValue x v ∧ 0 ≤ v ∧ v ≤ 255 ∧ channelByte x = .answer byte ∧ byte.toNat = ⌊v + 1 / 2⌋₊

/-- The number is an alpha, and the byte is its 255 fold rounded, a half upward. -/
def IsAlpha (x : Binary64) (byte : UInt8) : Prop :=
  ∃ v w, HasValue x v ∧ 0 ≤ v ∧ v ≤ 1 ∧ HasValue (x * 255) w ∧ |w - 255 * v| ≤ 255 / 2 ^ 53 ∧
    alphaByte x = .answer byte ∧ byte.toNat = ⌊w + 1 / 2⌋₊

/-- The numbers are in their ranges, and the bytes are the rounded numbers. -/
structure Valid (c : Plain) (red green blue alpha : UInt8) : Prop where
  red : IsChannel c.red red
  green : IsChannel c.green green
  blue : IsChannel c.blue blue
  alpha : IsAlpha c.alpha alpha

theorem isChannel_number (c : Channel) : IsChannel c.number c.byte := by
  obtain ⟨v, hv, h0, h1⟩ := Amount.exists_value (n := 255) (by decide) c
  obtain ⟨hcast, hbyte⟩ := cast_roundHalfAway hv h0 h1
  have hsame : (Channel.ofNumber c.number).number = c.number :=
    Amount.number_clamp_of_le Channel.off c.zero_le c.le_high
  refine ⟨v, hv, h0, by exact_mod_cast h1, ?_, hbyte⟩
  rw [channelByte, channel_eq, answer_bind, hsame, hcast, Channel.byte]

theorem isAlpha_number (a : Alpha) : IsAlpha a.number a.byte := by
  obtain ⟨v, hv, h0, h1⟩ := Amount.exists_value (n := 1) (by decide) a
  have hfull : HasValue 255 ((255 : Nat) : Rat) := hasValue_ofNat (by decide)
  have hscale : v * (255 : Nat) ≤ (255 : Nat) := by
    push_cast at h1 ⊢
    linarith
  obtain ⟨w, hw, hw0, hw1, herror⟩ :=
    (hv.mul hfull).exists_value (by decide) (by decide) (by positivity) hscale
  obtain ⟨hcast, hbyte⟩ := cast_roundHalfAway hw hw0 hw1
  refine ⟨v, w, hv, h0, by exact_mod_cast h1, hw, ?_, hcast, hbyte⟩
  rw [mul_comm (255 : Rat)]
  exact_mod_cast herror

end Plain

theorem Color.valid_plain (c : Color) :
    c.plain.Valid c.red.byte c.green.byte c.blue.byte c.alpha.byte :=
  ⟨Plain.isChannel_number _, Plain.isChannel_number _, Plain.isChannel_number _,
    Plain.isAlpha_number _⟩

/-! ### Constructions -/

namespace Construction

/-- **Plain numbers give the numbers of the color**, and no step is stopped. -/
theorem plain_eq (t : Construction) : t.plain = .ofOption (t.color?.map Color.plain) := by
  have hderive {f : Plain → Attempt Plain} {g : Color → Color}
      (h : ∀ c : Color, f c.plain = .answer (g c).plain) (c? : Option Color) :
      (Attempt.ofOption (c?.map Color.plain) >>= f) =
        .ofOption ((c?.map g).map Color.plain) := by
    cases c? with
    | none => rfl
    | some c => exact h c
  induction t with
  | parse text => exact Plain.parse_eq text
  | rgb r g b => exact congrArg Attempt.answer (Plain.rgb_eq r g b)
  | rgba r g b a => exact Plain.rgba_eq r g b a
  | ofHsl x a => exact Plain.ofHsl_eq x a
  | lighten c points ih =>
    rw [plain, ih]
    exact hderive (fun c => Plain.mapHsl_eq _ c) _
  | darken c points ih =>
    rw [plain, ih]
    exact hderive (fun c => Plain.mapHsl_eq _ c) _
  | saturate c points ih =>
    rw [plain, ih]
    exact hderive (fun c => Plain.mapHsl_eq _ c) _
  | withAlpha c a ih =>
    rw [plain, ih]
    exact hderive (fun c => Plain.withAlpha_eq c a) _

/-- Only a text can be no color. -/
theorem exists_text_of_none {t : Construction} (h : t.color? = none) :
    ∃ text e, t.text? = some text ∧ Color.parse text = .error e := by
  induction t with
  | parse text =>
    rw [color?] at h
    cases hparse : Color.parse text with
    | error e => exact ⟨text, e, rfl, hparse⟩
    | ok c =>
      rw [hparse] at h
      cases h
  | rgb | rgba | ofHsl => cases h
  | lighten c _ ih | darken c _ ih | saturate c _ ih | withAlpha c _ ih =>
    exact ih (Option.map_eq_none_iff.1 h)

/-- **Every color is valid**, however it is made and from whatever numbers: computing it without any
look at the ranges is never stopped, leaves every number in its range, and gives the bytes by casts
that change nothing. -/
theorem always_valid (t : Construction) :
    (∃ text e, t.text? = some text ∧ Color.parse text = .error e ∧ t.plain = .refused) ∨
      ∃ c, t.color? = some c ∧ t.plain = .answer c.plain ∧
        c.plain.Valid c.red.byte c.green.byte c.blue.byte c.alpha.byte := by
  have hplain := t.plain_eq
  cases hcolor : t.color? with
  | none =>
    rw [hcolor] at hplain
    obtain ⟨text, e, htext, hparse⟩ := exists_text_of_none hcolor
    exact .inl ⟨text, e, htext, hparse, hplain⟩
  | some c =>
    rw [hcolor] at hplain
    exact .inr ⟨c, rfl, hplain, c.valid_plain⟩

example : (saturate (ofHsl ⟨.nan, .infinite false, .nan⟩ .nan) (.infinite true)).plain =
    .answer ⟨0, 0, 0, 1⟩ := by decide +kernel

end Construction

end ColorTheme
