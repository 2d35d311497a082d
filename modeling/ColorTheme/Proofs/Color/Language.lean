import ColorTheme.Proofs.Color.Alpha
import ColorTheme.Proofs.Number.Nearness
import ColorTheme.Proofs.Number.Numeral

/-!
# The language of colors

The texts that are read as colors, as a grammar: hexadecimal digits, and the functional form with its
arguments.  What a text says is four numbers, the channels from 0 to 255 and the alpha from 0 to 1.
Reading goes by the trimmed text in lower case and finds the color with these numbers for exactly the
texts that have some.
-/

namespace ColorTheme

open Binary64 (HasValue IsNumeral)

namespace Color

/-! ### Numbers -/

/-- The channels and the alpha of the color are these numbers. -/
structure HasNumbers (c : Color) (red green blue alpha : Binary64) : Prop where
  red : c.red.number = red
  green : c.green.number = green
  blue : c.blue.number = blue
  alpha : c.alpha.number = alpha

/-! ### Arguments -/

/-- An argument of the functional form: a number, or so many percent. -/
structure Quantity where
  number : Binary64
  isPercent : Bool

namespace Quantity

/-- Percentages of a channel are cut to the range before they are scaled. -/
def onChannel (q : Quantity) : Binary64 :=
  if q.isPercent then q.number.clamp 0 100 * 2.55 else q.number

def onAlpha (q : Quantity) : Binary64 := if q.isPercent then q.number / 100 else q.number

def channel (q : Quantity) : Binary64 := q.onChannel.clamp 0 255

def alpha (q : Quantity) : Binary64 := q.onAlpha.clamp 0 1

end Quantity

/-- A numeral, or a numeral and one `%`. -/
inductive Writes : List Char → Quantity → Prop
  | number {cs : List Char} {x : Binary64} : IsNumeral cs x → Writes cs ⟨x, false⟩
  | percent {cs : List Char} {x : Binary64} : IsNumeral cs x → Writes (cs ++ ['%']) ⟨x, true⟩

/-- Three arguments, or four with the alpha, which is full if it is not given. -/
inductive Arguments : List (List Char) → Color → Prop
  | three {cs ds es : List Char} {r g b : Quantity} {c : Color} : Writes cs r → Writes ds g →
      Writes es b → c.HasNumbers r.channel g.channel b.channel 1 → Arguments [cs, ds, es] c
  | four {cs ds es fs : List Char} {r g b a : Quantity} {c : Color} : Writes cs r → Writes ds g →
      Writes es b → Writes fs a → c.HasNumbers r.channel g.channel b.channel a.alpha →
      Arguments [cs, ds, es, fs] c

/-! ### Texts -/

def HexDigits (ds : List Char) (values : List Nat) : Prop :=
  List.Forall₂ (fun d n => n < 16 ∧ d = Nat.digitChar n) ds values

/-- Three, four, six or eight digits: two for each byte, or one that stands for itself twice. -/
inductive HexForm : List Char → Color → Prop
  | three {ds : List Char} {r g b : Nat} {c : Color} : HexDigits ds [r, g, b] →
      c.HasNumbers (.ofNat (17 * r)) (.ofNat (17 * g)) (.ofNat (17 * b)) 1 → HexForm ds c
  | four {ds : List Char} {r g b a : Nat} {c : Color} : HexDigits ds [r, g, b, a] →
      c.HasNumbers (.ofNat (17 * r)) (.ofNat (17 * g)) (.ofNat (17 * b))
        (.ofNat (17 * a) / 255) → HexForm ds c
  | six {ds : List Char} {r r' g g' b b' : Nat} {c : Color} : HexDigits ds [r, r', g, g', b, b'] →
      c.HasNumbers (.ofNat (16 * r + r')) (.ofNat (16 * g + g')) (.ofNat (16 * b + b')) 1 →
      HexForm ds c
  | eight {ds : List Char} {r r' g g' b b' a a' : Nat} {c : Color} :
      HexDigits ds [r, r', g, g', b, b', a, a'] →
      c.HasNumbers (.ofNat (16 * r + r')) (.ofNat (16 * g + g')) (.ofNat (16 * b + b'))
        (.ofNat (16 * a + a') / 255) → HexForm ds c

/-- The text is the name, blanks if any, and parentheses around the body. -/
def IsCall (name body cs : List Char) : Prop :=
  ∃ blanks, (∀ b ∈ blanks, Text.isBlank b = true) ∧ cs = name ++ (blanks ++ '(' :: (body ++ [')']))

/-- **The text, in lower case and without blanks around it, denotes the color.** -/
inductive Denotes : List Char → Color → Prop
  | hex {mark ds : List Char} {c : Color} : mark = [] ∨ mark = ['#'] → HexForm ds c →
      Denotes (mark ++ ds) c
  | functional {name body cs : List Char} {c : Color} :
      name = ['r', 'g', 'b'] ∨ name = ['r', 'g', 'b', 'a'] → IsCall name body cs →
      Arguments (pieces body) c → Denotes cs c

/-! ### Colors with given numbers -/

section numbers
variable {c c' : Color}

theorem HasNumbers.unique {r g b a : Binary64} (h : c.HasNumbers r g b a)
    (h' : c'.HasNumbers r g b a) : c = c' := by
  have hred := Amount.eq_of_number (h.red.trans h'.red.symm)
  have hgreen := Amount.eq_of_number (h.green.trans h'.green.symm)
  have hblue := Amount.eq_of_number (h.blue.trans h'.blue.symm)
  have halpha := Amount.eq_of_number (h.alpha.trans h'.alpha.symm)
  cases c
  cases c'
  rw [Color.mk.injEq]
  exact ⟨hred, hgreen, hblue, halpha⟩

theorem hasNumbers_rgb_iff {r g b : UInt8} :
    c.HasNumbers (.ofByte r) (.ofByte g) (.ofByte b) 1 ↔ rgb r g b = c := by
  have hrgb : (rgb r g b).HasNumbers (.ofByte r) (.ofByte g) (.ofByte b) 1 :=
    ⟨Channel.number_ofByte r, Channel.number_ofByte g, Channel.number_ofByte b,
      by rw [rgb, Alpha.full]⟩
  constructor
  · exact hrgb.unique
  · rintro rfl
    exact hrgb

theorem hasNumbers_rgba_iff {r g b a : UInt8} :
    c.HasNumbers (.ofByte r) (.ofByte g) (.ofByte b) (.ofByte a / 255) ↔
      rgba r g b (alphaOfByte a) = c := by
  have hrgba : (rgba r g b (alphaOfByte a)).HasNumbers (.ofByte r) (.ofByte g) (.ofByte b)
      (.ofByte a / 255) :=
    ⟨Channel.number_ofByte r, Channel.number_ofByte g, Channel.number_ofByte b,
      number_ofNumber_alphaOfByte a⟩
  constructor
  · exact hrgba.unique
  · rintro rfl
    exact hrgba

end numbers

/-! ### Reading arguments -/

theorem finiteNumber?_eq_some_iff {cs : List Char} {x : Binary64} :
    finiteNumber? cs = some x ↔ IsNumeral cs x := by
  rw [finiteNumber?, Option.filter_eq_some_iff]
  constructor
  · rintro ⟨hparse, hx⟩
    obtain ⟨numeral, hspells, hround⟩ := (Binary64.parse?_eq_some_iff hx).1 hparse
    exact ⟨numeral, hspells, hround, hx⟩
  · rintro ⟨numeral, hspells, hround, hx⟩
    exact ⟨(Binary64.parse?_eq_some_iff hx).2 ⟨numeral, hspells, hround⟩, hx⟩

theorem dropLast?_eq_some_iff {last : Char} {cs ds : List Char} :
    dropLast? last cs = some ds ↔ cs = ds ++ [last] := by
  rw [dropLast?, Option.ite_none_right_eq_some, List.getLast?_eq_some_iff]
  constructor
  · rintro ⟨⟨es, rfl⟩, hds⟩
    rw [List.dropLast_concat] at hds
    rw [Option.some.inj hds]
  · rintro rfl
    exact ⟨⟨ds, rfl⟩, by rw [List.dropLast_concat]⟩

theorem dropFront?_eq_some_iff {front cs ds : List Char} :
    dropFront? front cs = some ds ↔ cs = front ++ ds := by
  rw [dropFront?, Option.ite_none_right_eq_some, List.isPrefixOf_iff_prefix]
  constructor
  · rintro ⟨⟨es, rfl⟩, hds⟩
    rw [List.drop_left] at hds
    rw [Option.some.inj hds]
  · rintro rfl
    exact ⟨List.prefix_append front ds, by rw [List.drop_left]⟩

theorem not_mem_of_isNumeral {cs : List Char} {x : Binary64} (h : IsNumeral cs x) : '%' ∉ cs := by
  obtain ⟨numeral, hspells, -⟩ := h
  intro hmem
  exact absurd (hspells.mem hmem) (by decide)

section percent
variable (read? : List Char → Option Binary64) (scale : Binary64 → Binary64)
variable (hread : ∀ cs, read? cs = match dropLast? '%' cs with
  | some percent => (finiteNumber? percent).map scale
  | none => finiteNumber? cs)
include hread

theorem percent?_eq_some_iff {cs : List Char} {y : Binary64} : read? cs = some y ↔
    ∃ q, Writes cs q ∧ (if q.isPercent then scale q.number else q.number) = y := by
  rw [hread]
  constructor
  · intro h
    cases hlast : dropLast? '%' cs with
    | none =>
      rw [hlast] at h
      exact ⟨⟨y, false⟩, .number (finiteNumber?_eq_some_iff.1 h), rfl⟩
    | some ds =>
      rw [hlast] at h
      obtain ⟨p, hp, rfl⟩ := Option.map_eq_some_iff.1 h
      rw [dropLast?_eq_some_iff.1 hlast]
      exact ⟨⟨p, true⟩, .percent (finiteNumber?_eq_some_iff.1 hp), rfl⟩
  · rintro ⟨q, hq, rfl⟩
    cases hq with
    | number hx =>
      cases hlast : dropLast? '%' cs with
      | none => exact finiteNumber?_eq_some_iff.2 hx
      | some ds =>
        rw [dropLast?_eq_some_iff.1 hlast] at hx
        exact absurd (by simp) (not_mem_of_isNumeral hx)
    | percent hx =>
      rw [dropLast?_eq_some_iff.2 rfl]
      exact Option.map_eq_some_iff.2 ⟨_, finiteNumber?_eq_some_iff.2 hx, rfl⟩

end percent

theorem channelNumber?_eq_some_iff {cs : List Char} {y : Binary64} :
    channelNumber? cs = some y ↔ ∃ q, Writes cs q ∧ q.onChannel = y :=
  percent?_eq_some_iff channelNumber? (fun p => p.clamp 0 100 * 2.55) fun _ => rfl

theorem alphaNumber?_eq_some_iff {cs : List Char} {y : Binary64} :
    alphaNumber? cs = some y ↔ ∃ q, Writes cs q ∧ q.onAlpha = y :=
  percent?_eq_some_iff alphaNumber? (fun p => p / 100) fun _ => rfl

section quantities
variable {cs ds es : List Char} {q r g b : Quantity}

theorem Writes.hasValue (h : Writes cs q) : HasValue q.number q.number.value := by
  cases h with
  | number hx | percent hx =>
    obtain ⟨_, -, -, hfinite⟩ := hx
    exact ⟨hfinite, rfl⟩

theorem Writes.onChannel_ne_nan (h : Writes cs q) : q.onChannel ≠ .nan := by
  rw [Quantity.onChannel]
  split
  · have hlow : HasValue 0 ((0 : Nat) : Rat) := Binary64.hasValue_ofNat (by decide)
    have hhigh : HasValue 100 ((100 : Nat) : Rat) := Binary64.hasValue_ofNat (by decide)
    have hfactor := Binary64.hasValue_value (x := 2.55) (by decide +kernel)
    exact ((h.hasValue.clamp hlow hhigh (by norm_num)).mul hfactor).ne_nan
  · exact h.hasValue.ne_nan

theorem Writes.onAlpha_ne_nan (h : Writes cs q) : q.onAlpha ≠ .nan := by
  rw [Quantity.onAlpha]
  split
  · have hhundred : HasValue 100 ((100 : Nat) : Rat) := Binary64.hasValue_ofNat (by decide)
    exact (h.hasValue.div hhundred (by norm_num)).ne_nan
  · exact h.hasValue.ne_nan

theorem Writes.number_ofNumber (h : Writes cs q) :
    (Channel.ofNumber q.onChannel).number = q.channel :=
  Amount.number_clamp Channel.off h.onChannel_ne_nan

/-- The color of three quantities and an alpha is made of the numbers that these stand for. -/
theorem hasNumbers_iff (hr : Writes cs r) (hg : Writes ds g) (hb : Writes es b) {a : Binary64}
    (ha : a ≠ .nan) {c : Color} :
    c.HasNumbers r.channel g.channel b.channel (a.clamp 0 1) ↔
      ofNumbers r.onChannel g.onChannel b.onChannel a = c := by
  have hnumbers : (ofNumbers r.onChannel g.onChannel b.onChannel a).HasNumbers r.channel g.channel
      b.channel (a.clamp 0 1) :=
    ⟨hr.number_ofNumber, hg.number_ofNumber, hb.number_ofNumber, Amount.number_clamp Alpha.full ha⟩
  constructor
  · exact hnumbers.unique
  · rintro rfl
    exact hnumbers

theorem hasNumbers_opaque_iff (hr : Writes cs r) (hg : Writes ds g) (hb : Writes es b) {c : Color} :
    c.HasNumbers r.channel g.channel b.channel 1 ↔
      ofNumbers r.onChannel g.onChannel b.onChannel 1 = c := by
  have hone : (1 : Binary64).clamp 0 1 = 1 :=
    Binary64.clamp_eq_self Alpha.full.zero_le Alpha.full.le_high
  rw [← hasNumbers_iff hr hg hb Binary64.hasValue_one.ne_nan, hone]

end quantities

/-- **The arguments** are read as the grammar says. -/
theorem ofArguments?_eq_some_iff {body : List Char} {c : Color} :
    ofArguments? body = some c ↔ Arguments (pieces body) c := by
  unfold ofArguments?
  generalize pieces body = ps
  constructor
  · intro h
    split at h
    · simp only [Option.pure_def, Option.bind_eq_bind, Option.bind_eq_some_iff,
        channelNumber?_eq_some_iff, Option.some.injEq] at h
      obtain ⟨_, ⟨r, hr, rfl⟩, _, ⟨g, hg, rfl⟩, _, ⟨b, hb, rfl⟩, hc⟩ := h
      exact .three hr hg hb ((hasNumbers_opaque_iff hr hg hb).2 hc)
    · simp only [Option.pure_def, Option.bind_eq_bind, Option.bind_eq_some_iff,
        channelNumber?_eq_some_iff, alphaNumber?_eq_some_iff, Option.some.injEq] at h
      obtain ⟨_, ⟨r, hr, rfl⟩, _, ⟨g, hg, rfl⟩, _, ⟨b, hb, rfl⟩, _, ⟨a, ha, rfl⟩, hc⟩ := h
      exact .four hr hg hb ha ((hasNumbers_iff hr hg hb ha.onAlpha_ne_nan).2 hc)
    · cases h
  · intro h
    cases h with
    | three hr hg hb hc =>
      have hr' := channelNumber?_eq_some_iff.2 ⟨_, hr, rfl⟩
      have hg' := channelNumber?_eq_some_iff.2 ⟨_, hg, rfl⟩
      have hb' := channelNumber?_eq_some_iff.2 ⟨_, hb, rfl⟩
      simp only [hr', hg', hb', ← (hasNumbers_opaque_iff hr hg hb).1 hc]
      rfl
    | four hr hg hb ha hc =>
      have hr' := channelNumber?_eq_some_iff.2 ⟨_, hr, rfl⟩
      have hg' := channelNumber?_eq_some_iff.2 ⟨_, hg, rfl⟩
      have hb' := channelNumber?_eq_some_iff.2 ⟨_, hb, rfl⟩
      have ha' := alphaNumber?_eq_some_iff.2 ⟨_, ha, rfl⟩
      simp only [hr', hg', hb', ha', ← (hasNumbers_iff hr hg hb ha.onAlpha_ne_nan).1 hc]
      rfl

/-! ### Reading texts -/

theorem digitChar_of_hexValue? {d : Char} {n : Nat} (h : hexValue? d = some n) :
    n < 16 ∧ d = Nat.digitChar n := by
  have hd : d = Char.ofNat d.toNat := (Char.ofNat_toNat d).symm
  have hle (a b : Char) : a ≤ b ↔ a.toNat ≤ b.toNat := Iff.rfl
  have h0 : '0'.toNat = 48 := rfl
  have h9 : '9'.toNat = 57 := rfl
  have ha : 'a'.toNat = 97 := rfl
  have hf : 'f'.toNat = 102 := rfl
  unfold hexValue? at h
  simp only [hle] at h
  rw [h0, h9, ha, hf] at h
  -- There are sixteen codes to look at.
  generalize d.toNat = k at *
  subst hd
  split at h
  · rename_i hk
    obtain ⟨hlow, hhigh⟩ := hk
    obtain rfl := Option.some.inj h
    interval_cases k <;> decide
  · obtain ⟨⟨hlow, hhigh⟩, hn⟩ := Option.ite_none_right_eq_some.1 h
    obtain rfl := Option.some.inj hn
    interval_cases k <;> decide

theorem hexValue?_eq_some_iff {d : Char} {n : Nat} :
    hexValue? d = some n ↔ n < 16 ∧ d = Nat.digitChar n := by
  constructor
  · exact digitChar_of_hexValue?
  · rintro ⟨hn, rfl⟩
    exact hexValue?_digitChar hn

theorem mapM_hexValue?_eq_some_iff {ds : List Char} {values : List Nat} :
    ds.mapM hexValue? = some values ↔ HexDigits ds values := by
  unfold HexDigits
  induction ds generalizing values with
  | nil =>
    rw [List.mapM_nil, List.forall₂_nil_left_iff]
    exact ⟨fun h => (Option.some.inj h).symm, fun h => h ▸ rfl⟩
  | cons d ds ih =>
    simp only [List.mapM_cons, Option.pure_def, Option.bind_eq_bind, Option.bind_eq_some_iff,
      hexValue?_eq_some_iff, ih, List.forall₂_cons_left_iff, Option.some.injEq]
    constructor
    · rintro ⟨n, hn, rest, hrest, rfl⟩
      exact ⟨n, rest, hn, hrest, rfl⟩
    · rintro ⟨n, rest, hn, hrest, rfl⟩
      exact ⟨n, hn, rest, hrest, rfl⟩

theorem HexDigits.eq_map {ds : List Char} {values : List Nat} (h : HexDigits ds values) :
    ds = values.map Nat.digitChar ∧ ∀ n ∈ values, n < 16 := by
  induction h with
  | nil => exact ⟨rfl, nofun⟩
  | cons hd _ ih =>
    obtain ⟨hn, rfl⟩ := hd
    obtain ⟨rfl, hvalues⟩ := ih
    exact ⟨rfl, List.forall_mem_cons.2 ⟨hn, hvalues⟩⟩

theorem ofByte_doubled {n : Nat} (hn : n < 16) : Binary64.ofByte (doubled n) = .ofNat (17 * n) := by
  have hlt : 17 * n < 256 := by omega
  rw [Binary64.ofByte, doubled, UInt8.toNat_ofNat_of_lt' hlt]

theorem ofByte_paired {m n : Nat} (hm : m < 16) (hn : n < 16) :
    Binary64.ofByte (paired m n) = .ofNat (16 * m + n) := by
  have hlt : 16 * m + n < 256 := by omega
  rw [Binary64.ofByte, paired, UInt8.toNat_ofNat_of_lt' hlt]

section digits
variable {ds : List Char} {c : Color}

theorem hasNumbers_three_iff {r g b : Nat} (h : HexDigits ds [r, g, b]) :
    c.HasNumbers (.ofNat (17 * r)) (.ofNat (17 * g)) (.ofNat (17 * b)) 1 ↔
      rgb (doubled r) (doubled g) (doubled b) = c := by
  have hlt := h.eq_map.2
  simp only [List.forall_mem_cons] at hlt
  obtain ⟨hr, hg, hb, -⟩ := hlt
  rw [← ofByte_doubled hr, ← ofByte_doubled hg, ← ofByte_doubled hb, hasNumbers_rgb_iff]

theorem hasNumbers_four_iff {r g b a : Nat} (h : HexDigits ds [r, g, b, a]) :
    c.HasNumbers (.ofNat (17 * r)) (.ofNat (17 * g)) (.ofNat (17 * b)) (.ofNat (17 * a) / 255) ↔
      rgba (doubled r) (doubled g) (doubled b) (alphaOfByte (doubled a)) = c := by
  have hlt := h.eq_map.2
  simp only [List.forall_mem_cons] at hlt
  obtain ⟨hr, hg, hb, ha, -⟩ := hlt
  rw [← ofByte_doubled hr, ← ofByte_doubled hg, ← ofByte_doubled hb, ← ofByte_doubled ha,
    hasNumbers_rgba_iff]

theorem hasNumbers_six_iff {r r' g g' b b' : Nat} (h : HexDigits ds [r, r', g, g', b, b']) :
    c.HasNumbers (.ofNat (16 * r + r')) (.ofNat (16 * g + g')) (.ofNat (16 * b + b')) 1 ↔
      rgb (paired r r') (paired g g') (paired b b') = c := by
  have hlt := h.eq_map.2
  simp only [List.forall_mem_cons] at hlt
  obtain ⟨hr, hr', hg, hg', hb, hb', -⟩ := hlt
  rw [← ofByte_paired hr hr', ← ofByte_paired hg hg', ← ofByte_paired hb hb', hasNumbers_rgb_iff]

theorem hasNumbers_eight_iff {r r' g g' b b' a a' : Nat}
    (h : HexDigits ds [r, r', g, g', b, b', a, a']) :
    c.HasNumbers (.ofNat (16 * r + r')) (.ofNat (16 * g + g')) (.ofNat (16 * b + b'))
        (.ofNat (16 * a + a') / 255) ↔
      rgba (paired r r') (paired g g') (paired b b') (alphaOfByte (paired a a')) = c := by
  have hlt := h.eq_map.2
  simp only [List.forall_mem_cons] at hlt
  obtain ⟨hr, hr', hg, hg', hb, hb', ha, ha', -⟩ := hlt
  rw [← ofByte_paired hr hr', ← ofByte_paired hg hg', ← ofByte_paired hb hb',
    ← ofByte_paired ha ha', hasNumbers_rgba_iff]

/-- The color of digits is made of the numbers that they write. -/
theorem hexForm_iff :
    HexForm ds c ↔ ∃ values, HexDigits ds values ∧ ofHexValues values = some c := by
  constructor
  · intro h
    cases h with
    | three h hc => exact ⟨_, h, congrArg some ((hasNumbers_three_iff h).1 hc)⟩
    | four h hc => exact ⟨_, h, congrArg some ((hasNumbers_four_iff h).1 hc)⟩
    | six h hc => exact ⟨_, h, congrArg some ((hasNumbers_six_iff h).1 hc)⟩
    | eight h hc => exact ⟨_, h, congrArg some ((hasNumbers_eight_iff h).1 hc)⟩
  · rintro ⟨values, h, hc⟩
    unfold ofHexValues at hc
    split at hc
    · exact .three h ((hasNumbers_three_iff h).2 (Option.some.inj hc))
    · exact .four h ((hasNumbers_four_iff h).2 (Option.some.inj hc))
    · exact .six h ((hasNumbers_six_iff h).2 (Option.some.inj hc))
    · exact .eight h ((hasNumbers_eight_iff h).2 (Option.some.inj hc))
    · cases hc

end digits

theorem ofHex?_eq_some_iff {ds : List Char} {c : Color} :
    ofHex? ds = some c ↔ HexForm ds c := by
  simp only [ofHex?, Option.bind_eq_some_iff, mapM_hexValue?_eq_some_iff, hexForm_iff]

theorem arguments?_eq_some_iff {name cs body : List Char} :
    arguments? name cs = some body ↔ IsCall name body cs := by
  unfold arguments? IsCall
  simp only [Option.bind_eq_bind, Option.bind_eq_some_iff, dropFront?_eq_some_iff,
    dropLast?_eq_some_iff]
  constructor
  · rintro ⟨rest, rfl, inner, hinner, rfl⟩
    refine ⟨rest.takeWhile Text.isBlank, fun b hb => List.mem_takeWhile_imp hb, ?_⟩
    have hrest := List.takeWhile_append_dropWhile (p := Text.isBlank) (l := rest)
    rw [Text.trimStart] at hinner
    rw [hinner] at hrest
    exact congrArg (name ++ ·) hrest.symm
  · rintro ⟨blanks, hblanks, rfl⟩
    refine ⟨_, rfl, body ++ [')'], ?_, rfl⟩
    rw [Text.trimStart, List.dropWhile_append_of_pos hblanks,
      List.dropWhile_cons_of_neg (by decide)]
    rfl

/-- The two names are told apart by what follows the `b`. -/
theorem not_isCall_of_isCall {cs body body' : List Char} (h : IsCall ['r', 'g', 'b'] body cs) :
    ¬ IsCall ['r', 'g', 'b', 'a'] body' cs := by
  obtain ⟨blanks, hblanks, rfl⟩ := h
  rintro ⟨blanks', -, heq⟩
  cases blanks with
  | nil => simp at heq
  | cons b blanks =>
    have hb := hblanks b List.mem_cons_self
    simp only [List.cons_append, List.nil_append, List.cons.injEq, true_and] at heq
    rw [heq.1] at hb
    revert hb
    decide

theorem functional?_eq_some_iff {cs body : List Char} : functional? cs = some body ↔
    ∃ name, (name = ['r', 'g', 'b'] ∨ name = ['r', 'g', 'b', 'a']) ∧ IsCall name body cs := by
  rw [functional?, Option.orElse_eq_orElse, Option.orElse_eq_or, Option.or_eq_some_iff]
  simp only [arguments?_eq_some_iff]
  constructor
  · rintro (h | ⟨-, h⟩)
    · exact ⟨_, .inr rfl, h⟩
    · exact ⟨_, .inl rfl, h⟩
  · rintro ⟨name, rfl | rfl, h⟩
    · refine .inr ⟨?_, h⟩
      rw [Option.eq_none_iff_forall_ne_some]
      intro body' hbody'
      exact not_isCall_of_isCall h (arguments?_eq_some_iff.1 hbody')
    · exact .inl h

theorem HexForm.exists_first {ds : List Char} {c : Color} (h : HexForm ds c) :
    ∃ d rest, ds = d :: rest ∧ IsHexDigit d := by
  rcases h with ⟨h, -⟩ | ⟨h, -⟩ | ⟨h, -⟩ | ⟨h, -⟩ <;>
    · obtain ⟨d, rest, hd, -, rfl⟩ := List.forall₂_cons_right_iff.1 h
      exact ⟨d, rest, rfl, _, hd⟩

section mark
variable {mark ds : List Char} {c : Color} (hmark : mark = [] ∨ mark = ['#']) (h : HexForm ds c)
include hmark h

theorem dropMark_eq : (dropFront? ['#'] (mark ++ ds)).getD (mark ++ ds) = ds := by
  rcases hmark with rfl | rfl
  · obtain ⟨d, rest, rfl, hd⟩ := h.exists_first
    have hnone : dropFront? ['#'] (d :: rest) = none := by
      rw [Option.eq_none_iff_forall_ne_some]
      intro es hes
      obtain ⟨rfl, -⟩ := List.cons.inj (dropFront?_eq_some_iff.1 hes)
      obtain ⟨n, hn, heq⟩ := hd
      revert heq
      interval_cases n <;> decide
    rw [List.nil_append, hnone, Option.getD_none]
  · rw [dropFront?_eq_some_iff.2 rfl, Option.getD_some]

/-- Digits are no call: they do not start with an `r`. -/
theorem functional?_of_hexForm : functional? (mark ++ ds) = none := by
  obtain ⟨d, rest, rfl, n, hn, rfl⟩ := h.exists_first
  rw [Option.eq_none_iff_forall_ne_some]
  intro body hbody
  obtain ⟨name, hname, blanks, -, heq⟩ := functional?_eq_some_iff.1 hbody
  have hfirst : (mark ++ Nat.digitChar n :: rest).head? = some 'r' := by
    rw [heq]
    rcases hname with rfl | rfl <;> rfl
  rcases hmark with rfl | rfl
  · revert hfirst
    simp only [List.nil_append, List.head?_cons, Option.some.injEq]
    interval_cases n <;> decide
  · simp at hfirst

end mark

/-- **Reading the text in lower case** finds what it denotes. -/
theorem ofLower?_eq_some_iff {cs : List Char} {c : Color} : ofLower? cs = some c ↔ Denotes cs c := by
  unfold ofLower?
  constructor
  · intro h
    split at h
    · rename_i body hbody
      obtain ⟨name, hname, hcall⟩ := functional?_eq_some_iff.1 hbody
      exact .functional hname hcall (ofArguments?_eq_some_iff.1 h)
    · rw [ofHex?_eq_some_iff] at h
      cases hdrop : dropFront? ['#'] cs with
      | none =>
        rw [hdrop] at h
        exact .hex (.inl rfl) h
      | some ds =>
        rw [hdrop] at h
        rw [dropFront?_eq_some_iff.1 hdrop]
        exact .hex (.inr rfl) h
  · rintro (⟨hmark, h⟩ | ⟨hname, hcall, h⟩)
    · rw [functional?_of_hexForm hmark h, dropMark_eq hmark h]
      exact ofHex?_eq_some_iff.2 h
    · rw [functional?_eq_some_iff.2 ⟨_, hname, hcall⟩]
      exact ofArguments?_eq_some_iff.2 h

theorem parse_eq (text : String) : parse text =
    if Text.trim text.toList = [] then .error .empty
    else match ofLower? (Text.lower (Text.trim text.toList)) with
      | some c => .ok c
      | none => .error (.malformed (trimmed text)) := by
  simp only [parse, List.isEmpty_iff]
  rfl

theorem parse_eq_ok_iff {text : String} {c : Color} :
    parse text = .ok c ↔ Denotes (Text.lower (Text.trim text.toList)) c := by
  rw [parse_eq, ← ofLower?_eq_some_iff]
  by_cases hempty : Text.trim text.toList = []
  · rw [if_pos hempty, hempty]
    exact ⟨nofun, nofun⟩
  · rw [if_neg hempty]
    cases ofLower? (Text.lower (Text.trim text.toList)) with
    | some c => simp
    | none => simp

/-- **Colors are read from exactly the texts of the language**, and every other text is given back in
the error, without the blanks around it. -/
theorem parse_language (text : String) :
    (parse text = .error .empty ↔ Text.trim text.toList = []) ∧
      (∀ c, parse text = .ok c ↔ Denotes (Text.lower (Text.trim text.toList)) c) ∧
      ∀ shown, parse text = .error (.malformed shown) ↔
        shown = trimmed text ∧ Text.trim text.toList ≠ [] ∧
          ¬ ∃ c, Denotes (Text.lower (Text.trim text.toList)) c := by
  have hread := parse_eq text
  refine ⟨?_, fun c => parse_eq_ok_iff, fun shown => ?_⟩
  · rw [hread]
    split
    · simp [*]
    · cases ofLower? (Text.lower (Text.trim text.toList)) <;> simp [*]
  · simp only [← ofLower?_eq_some_iff]
    rw [hread]
    by_cases hempty : Text.trim text.toList = []
    · simp [hempty]
    · rw [if_neg hempty]
      cases ofLower? (Text.lower (Text.trim text.toList)) with
      | some c => simp
      | none => simp [hempty, eq_comm]

end Color

end ColorTheme
