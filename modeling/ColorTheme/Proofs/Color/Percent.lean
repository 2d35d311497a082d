import ColorTheme.Proofs.Color.Language
import ColorTheme.Proofs.Color.Validity

/-!
# Percentages

A channel is written as a number from 0 to 255 or as a percentage, and both are read as the byte nearest
to what they mean.  The factor of the percentages is a little too small, though, and this shows at two of
the five percentages that are half way between two bytes: 50 and 90 percent come out one byte lower
than the numbers 127.5 and 229.5.
-/

namespace ColorTheme

open Binary64

/-! ### Exact values -/

theorem Numeral.isRounding_signed {x : Numeral} (h : 0 ≤ x.signed) :
    IsRounding (round x.negative x.value) x.signed := by
  have hvalue := x.value_nonneg
  have hsame := Numeral.value_eq_signed h
  rw [← hsame]
  refine ⟨x.negative, rfl, ?_⟩
  split
  · rename_i hnegative
    rw [Numeral.signed, if_pos hnegative] at hsame
    linarith
  · exact hvalue

/-! ### Half way between two bytes -/

/-- Half way between two whole numbers, or not near to any such half. -/
def Decided (q : Rat) : Prop := ∀ n : Nat, q = n + 1 / 2 ∨ 1 / 2 ^ 43 < |q - (n + 1 / 2)|

/-- A number in steps of `1 / (2 * 10 ^ 12)` is far enough from a half that it is not. -/
theorem decided_of_scaled {q : Rat} {s : Nat} (h : q * (2 * 10 ^ 12) = s) : Decided q := by
  intro n
  have hsteps : (q - (n + 1 / 2)) * (2 * 10 ^ 12) = ((s - (2 * n + 1) * 10 ^ 12 : Int) : Rat) := by
    push_cast
    linarith
  generalize (s - (2 * n + 1) * 10 ^ 12 : Int) = z at hsteps
  rcases eq_or_ne z 0 with rfl | hz
  · left
    rw [Int.cast_zero] at hsteps
    linarith
  · right
    have hone : (1 : Rat) ≤ |(z : Rat)| := by exact_mod_cast Int.one_le_abs hz
    rw [← hsteps, abs_mul, abs_of_pos (by norm_num : (0 : Rat) < 2 * 10 ^ 12)] at hone
    linarith

/-- What is near to a number that is not near to a half has the same halves below it. -/
theorem floor_eq_of_near {q v : Rat} (hv : 0 ≤ v) (hq : 0 ≤ q) (hnear : |v - q| ≤ 1 / 2 ^ 43)
    (hfar : ∀ n : Nat, 1 / 2 ^ 43 < |q - (n + 1 / 2)|) : ⌊v + 1 / 2⌋₊ = ⌊q + 1 / 2⌋₊ := by
  obtain ⟨hlow, hhigh⟩ := abs_le.1 hnear
  refine floor_eq_of_halves hv hq fun n => ?_
  rcases lt_abs.1 (hfar n) with h | h
  · constructor <;> intro <;> linarith
  · constructor <;> intro <;> linarith

/-- The factor is a little less than 2.55. -/
theorem hasValue_factor : HasValue (2.55 : Binary64) (5742089524897382 / 2 ^ 51) :=
  ⟨by decide +kernel, by decide +kernel⟩

/-! ### Literals -/

namespace Color

/-- A number that is written as a channel, with a `%` behind it or not. -/
structure Literal where
  numeral : Numeral
  isPercent : Bool

namespace Literal

variable {l : Literal} {cs : List Char}

def Spells (l : Literal) (cs : List Char) : Prop :=
  ∃ ds, Numeral.Spells l.numeral ds ∧ cs = ds ++ if l.isPercent then ['%'] else []

def full (l : Literal) : Nat := if l.isPercent then 100 else 255

/-- How much light it means, exactly. -/
def exact (l : Literal) : Rat := 255 * (l.numeral.signed / l.full)

def number (l : Literal) : Binary64 := round l.numeral.negative l.numeral.value

def quantity (l : Literal) : Quantity := ⟨l.number, l.isPercent⟩

/-- The percentages that are half way between two bytes and come out below. -/
def FallsShort (l : Literal) : Prop :=
  l.isPercent = true ∧ (l.numeral.signed = 50 ∨ l.numeral.signed = 90)

instance (l : Literal) : Decidable l.FallsShort := inferInstanceAs (Decidable (_ ∧ _))

/-- The byte is the nearest one to the exact light, a half upward but for two percentages; what is
next to a half is decided by rounding. -/
structure ReadAs (l : Literal) (byte : UInt8) : Prop where
  near : |(byte.toNat : Rat) - l.exact| ≤ 1 / 2 + 1 / 2 ^ 43
  nearest : Decided l.exact →
    byte.toNat = if l.FallsShort then ⌊l.exact⌋₊ else ⌊l.exact + 1 / 2⌋₊

/-- With eleven places behind the point or fewer there is nothing to decide by rounding. -/
theorem decided_of_decimals (h0 : 0 ≤ l.numeral.signed) (h : l.numeral.decimals ≤ 11) :
    Decided l.exact := by
  obtain ⟨m, hm⟩ := Numeral.exists_scaled (k := 11) h
  rw [Numeral.value_eq_signed h0] at hm
  refine decided_of_scaled (s := (if l.isPercent then 51 else 20) * m) ?_
  unfold exact full
  split
  · push_cast
    rw [← hm]
    ring
  · push_cast
    rw [← hm]
    ring

/-! #### Reading -/

theorem onChannel_of_percent (h : l.isPercent = true) :
    l.quantity.onChannel = l.number.clamp 0 100 * 2.55 := by
  simp only [quantity, Quantity.onChannel, h, if_true]

theorem onChannel_of_number (h : l.isPercent = false) : l.quantity.onChannel = l.number := by
  simp only [quantity, Quantity.onChannel, h, Bool.false_eq_true, if_false]

theorem full_mem (l : Literal) : 0 < l.full ∧ l.full < 2 ^ 53 := by
  unfold full
  split <;> decide

section range
variable (h0 : 0 ≤ l.exact) (h1 : l.exact ≤ 255)
include h0 h1

theorem signed_mem : 0 ≤ l.numeral.signed ∧ l.numeral.signed ≤ l.full := by
  have hfull : (0 : Rat) < l.full := Nat.cast_pos.2 l.full_mem.1
  have hshare0 : 0 ≤ l.numeral.signed / l.full := by
    unfold exact at h0
    linarith
  have hshare1 : l.numeral.signed / l.full ≤ 1 := by
    unfold exact at h1
    linarith
  have hsame : l.numeral.signed = l.numeral.signed / l.full * l.full := by
    rw [div_mul_cancel₀ _ hfull.ne']
  refine ⟨?_, (div_le_one hfull).1 hshare1⟩
  rw [hsame]
  exact mul_nonneg hshare0 hfull.le

theorem isRounding_number : IsRounding l.number l.numeral.signed :=
  Numeral.isRounding_signed (signed_mem h0 h1).1

theorem exists_value_number : ∃ v, HasValue l.number v ∧ 0 ≤ v ∧ v ≤ l.full ∧
    |v - l.numeral.signed| ≤ l.full / 2 ^ 53 := by
  obtain ⟨hsigned0, hsigned1⟩ := signed_mem h0 h1
  exact (isRounding_number h0 h1).exists_value l.full_mem.1 l.full_mem.2 hsigned0 hsigned1

theorem writes_quantity (hspells : l.Spells cs) : Writes cs l.quantity := by
  obtain ⟨v, hv, -⟩ := exists_value_number h0 h1
  obtain ⟨ds, hds, rfl⟩ := hspells
  have hnumeral : IsNumeral ds l.number := ⟨l.numeral, hds, rfl, hv.isFinite⟩
  unfold quantity
  cases l.isPercent with
  | false =>
    rw [if_neg Bool.false_ne_true, List.append_nil]
    exact .number hnumeral
  | true => exact .percent hnumeral

/-- The number of the channel is near to the exact light: reading, the factor and the product are each
off by little. -/
theorem exists_value_onChannel : ∃ v, HasValue l.quantity.onChannel v ∧ 0 ≤ v ∧ v ≤ (255 : Nat) ∧
    |v - l.exact| ≤ 1 / 2 ^ 43 := by
  obtain ⟨v, hv, hv0, hv1, herror⟩ := exists_value_number h0 h1
  cases hpercent : l.isPercent with
  | true =>
    have hfull : l.full = 100 := if_pos hpercent
    have hclamp : l.number.clamp 0 100 = l.number := by
      obtain ⟨hlow, hbound⟩ := hv.mem_range l.full_mem.2 hv0 hv1
      rw [hfull] at hbound
      exact clamp_eq_self hlow hbound
    rw [hfull] at hv1 herror
    have hscale : v * (5742089524897382 / 2 ^ 51) ≤ (255 : Nat) := by
      push_cast at hv1 ⊢
      linarith
    obtain ⟨w, hw, hw0, hw1, herror'⟩ :=
      (hv.mul hasValue_factor).exists_value (by decide) (by decide) (by positivity) hscale
    refine ⟨w, by rw [onChannel_of_percent hpercent, hclamp]; exact hw, hw0, hw1, ?_⟩
    obtain ⟨hlow, hhigh⟩ := abs_le.1 herror
    obtain ⟨hlow', hhigh'⟩ := abs_le.1 herror'
    rw [exact, hfull, abs_le]
    push_cast at *
    constructor <;> linarith
  | false =>
    have hfull : l.full = 255 := if_neg (by rw [hpercent]; exact Bool.false_ne_true)
    rw [hfull] at hv1 herror
    refine ⟨v, by rw [onChannel_of_number hpercent]; exact hv, hv0, hv1, ?_⟩
    obtain ⟨hlow, hhigh⟩ := abs_le.1 herror
    rw [exact, hfull, abs_le]
    push_cast at *
    constructor <;> linarith

end range

def channel (l : Literal) : Channel := .ofNumber l.quantity.onChannel

theorem byte_channel {v : Rat} (hv : HasValue l.quantity.onChannel v) (hv0 : 0 ≤ v)
    (hv1 : v ≤ (255 : Nat)) : l.channel.byte.toNat = ⌊v + 1 / 2⌋₊ := by
  obtain ⟨hlow, hhigh⟩ := hv.mem_range (n := 255) (by decide) hv0 hv1
  have hnumber : l.channel.number = l.quantity.onChannel :=
    Amount.number_clamp_of_le Channel.off hlow hhigh
  rw [Channel.byte, hnumber]
  exact (cast_roundHalfAway hv hv0 hv1).2

/-! #### Halves -/

section half
variable {n : Nat} (hhalf : l.exact = n + 1 / 2)
include hhalf

theorem floor_half : ⌊l.exact⌋₊ = n ∧ ⌊l.exact + 1 / 2⌋₊ = n + 1 := by
  have hsum : l.exact + 1 / 2 = ((n + 1 : Nat) : Rat) := by
    rw [hhalf]
    push_cast
    ring
  constructor
  · rw [Nat.floor_eq_iff (by rw [hhalf]; positivity), hhalf]
    constructor <;> linarith
  · rw [hsum, Nat.floor_natCast]

/-- A half that is written without the sign is exact. -/
theorem byte_of_number (hn : n < 255) (hnumber : l.isPercent = false) :
    l.channel.byte.toNat = n + 1 := by
  have hsigned : l.numeral.signed = n + 1 / 2 := by
    rw [← hhalf, exact, full, hnumber, if_neg Bool.false_ne_true]
    push_cast
    ring
  have hpos : (0 : Rat) < n + 1 / 2 := by positivity
  have hround := Numeral.isRounding_signed (x := l.numeral) (by rw [hsigned]; exact hpos.le)
  rw [hsigned] at hround
  have hvalue : HasValue l.quantity.onChannel (n + 1 / 2) := by
    obtain ⟨x, hexact⟩ := exists_hasValue_half (show 2 * n + 1 < 2 ^ 53 by omega)
    have hsame : l.number = x := hround.unique hexact.isRounding hpos
    rw [onChannel_of_number hnumber, hsame]
    exact hexact
  have hbound : (n : Rat) + 1 / 2 ≤ (255 : Nat) := by
    have hcast : ((n + 1 : Nat) : Rat) ≤ (255 : Nat) := Nat.cast_le.2 (by omega)
    push_cast at hcast ⊢
    linarith
  rw [byte_channel hvalue hpos.le hbound, ← hhalf]
  exact (floor_half hhalf).2

/-- Of the decimal percentages only odd tens are half way between two bytes: the 51st part of a
decimal number is no other one. -/
theorem odd_ten (hn : n < 255) (hpercent : l.isPercent = true) :
    ∃ k < 5, n = 51 * k + 25 ∧ l.numeral.signed = (20 * k + 10 : Nat) := by
  have hsigned : l.numeral.signed * 51 = 10 * (2 * n + 1) := by
    rw [exact, full, if_pos hpercent] at hhalf
    push_cast at hhalf
    linarith
  have h0 : 0 ≤ l.numeral.signed := by
    have hn0 : (0 : Rat) ≤ n := Nat.cast_nonneg n
    linarith
  obtain ⟨m, hm⟩ := Numeral.exists_scaled (Int.self_le_toNat l.numeral.decimals)
  rw [Numeral.value_eq_signed h0] at hm
  generalize l.numeral.decimals.toNat = j at hm
  have hwhole : 51 * m = 10 ^ (j + 1) * (2 * n + 1) := by
    have hcast : (51 : Rat) * m = 10 ^ (j + 1) * (2 * n + 1) := by
      calc (51 : Rat) * m = l.numeral.signed * 51 * 10 ^ j := by
            rw [← hm]
            ring
        _ = 10 ^ (j + 1) * (2 * n + 1) := by
            rw [hsigned, pow_succ]
            ring
    exact_mod_cast hcast
  have hcoprime : Nat.Coprime 51 (10 ^ (j + 1)) := Nat.Coprime.pow_right _ (by decide)
  obtain ⟨i, hi⟩ := hcoprime.dvd_of_dvd_mul_left ⟨m, hwhole.symm⟩
  have hodd : i = 2 * (i / 2) + 1 := by omega
  refine ⟨i / 2, by omega, by omega, ?_⟩
  have hcast : ((2 * n + 1 : Nat) : Rat) = (51 * (2 * (i / 2) + 1) : Nat) := by
    rw [hi, ← hodd]
  push_cast at hcast ⊢
  linarith

/-- Half way between two bytes 50 and 90 percent fall short, since the factor is below 2.55; the
products of the others are rounded up to the half. -/
theorem byte_of_percent (hn : n < 255) (hpercent : l.isPercent = true) :
    l.channel.byte.toNat = if l.FallsShort then n else n + 1 := by
  obtain ⟨k, hk, rfl, hsigned⟩ := odd_ten hhalf hn hpercent
  have hround := Numeral.isRounding_signed (x := l.numeral) (by rw [hsigned]; positivity)
  rw [hsigned] at hround
  have hnumber : l.number = ofNat (20 * k + 10) :=
    hround.unique (isRounding_ofNat _) (by positivity)
  have hchannel : l.channel =
      .ofNumber ((ofNat (20 * k + 10)).clamp 0 100 * 2.55) := by
    rw [channel, onChannel_of_percent hpercent, hnumber]
  have hshort : l.FallsShort ↔ k = 2 ∨ k = 4 := by
    rw [FallsShort, hsigned]
    constructor
    · rintro ⟨-, h | h⟩
      · left
        have h : 20 * k + 10 = 50 := by exact_mod_cast h
        omega
      · right
        have h : 20 * k + 10 = 90 := by exact_mod_cast h
        omega
    · rintro (rfl | rfl)
      · exact ⟨hpercent, .inl (by norm_num)⟩
      · exact ⟨hpercent, .inr (by norm_num)⟩
  have htens : ∀ i : Fin 5,
      (Channel.ofNumber ((ofNat (20 * i.val + 10)).clamp 0 100 * 2.55)).byte.toNat =
        if i.val = 2 ∨ i.val = 4 then 51 * i.val + 25 else 51 * i.val + 25 + 1 := by
    decide +kernel
  rw [hchannel, htens ⟨k, hk⟩]
  simp only [hshort]

end half

/-- Percentages that fall short are half way between two bytes. -/
theorem FallsShort.exists_half (h : l.FallsShort) : ∃ n : Nat, l.exact = n + 1 / 2 := by
  obtain ⟨hpercent, h | h⟩ := h
  · refine ⟨127, ?_⟩
    rw [exact, full, if_pos hpercent, h]
    norm_num
  · refine ⟨229, ?_⟩
    rw [exact, full, if_pos hpercent, h]
    norm_num

/-- **What a literal is read as.** -/
theorem readAs_byte (h0 : 0 ≤ l.exact) (h1 : l.exact ≤ 255) : l.ReadAs l.channel.byte := by
  obtain ⟨v, hv, hv0, hv1, hnear⟩ := exists_value_onChannel h0 h1
  have hbyte := byte_channel hv hv0 hv1
  constructor
  · have hrounded := abs_floor_sub_le hv0
    rw [hbyte]
    exact (abs_sub_le _ v _).trans (add_le_add hrounded hnear)
  · intro hdecided
    by_cases hhalf : ∃ n : Nat, l.exact = n + 1 / 2
    · obtain ⟨n, hn⟩ := hhalf
      obtain ⟨hfloor, hfloor'⟩ := floor_half hn
      have hn255 : n < 255 := by
        have hcast : (n : Rat) < (255 : Nat) := by
          push_cast
          linarith
        exact_mod_cast hcast
      rw [hfloor, hfloor']
      cases hpercent : l.isPercent with
      | true => exact byte_of_percent hn hn255 hpercent
      | false =>
        have hshort : ¬ l.FallsShort := fun h => by
          rw [FallsShort, hpercent] at h
          exact absurd h.1 Bool.false_ne_true
        rw [if_neg hshort]
        exact byte_of_number hn hn255 hpercent
    · have hshort : ¬ l.FallsShort := fun h => hhalf h.exists_half
      rw [if_neg hshort, hbyte]
      refine floor_eq_of_near hv0 h0 hnear fun n => ?_
      exact (hdecided n).resolve_left fun h => hhalf ⟨n, h⟩

end Literal

/-! ### Calls -/

/-- The text is a call with these channels, and with an alpha or not; each is a finite number or so
many percent. -/
structure IsCallOf (text : String) (channels alpha : List (List Char)) : Prop where
  call : ∃ name body, (name = ['r', 'g', 'b'] ∨ name = ['r', 'g', 'b', 'a']) ∧
    IsCall name body (Text.lower (Text.trim text.toList)) ∧ pieces body = channels ++ alpha
  channels_length : channels.length = 3
  alpha_length : alpha.length ≤ 1
  writes : ∀ cs ∈ channels ++ alpha, ∃ q, Writes cs q

theorem onChannel_eq_of_writes {cs : List Char} {q q' : Quantity} (h : Writes cs q)
    (h' : Writes cs q') : q.onChannel = q'.onChannel := by
  have hread := channelNumber?_eq_some_iff.2 ⟨q, h, rfl⟩
  have hread' := channelNumber?_eq_some_iff.2 ⟨q', h', rfl⟩
  exact Option.some.inj (hread.symm.trans hread')

/-- **A call is read channel by channel.** -/
theorem exists_parse {text : String} {channels alpha : List (List Char)}
    (h : IsCallOf text channels alpha) : ∃ c, parse text = .ok c ∧
      List.Forall₂ (fun cs channel => ∃ q, Writes cs q ∧ channel = .ofNumber q.onChannel) channels
        [c.red, c.green, c.blue] := by
  obtain ⟨⟨name, body, hname, hcall, hpieces⟩, hchannels, halpha, hwrites⟩ := h
  obtain ⟨r, g, b, rfl⟩ := List.length_eq_three.1 hchannels
  simp only [List.cons_append, List.nil_append, List.forall_mem_cons] at hwrites
  obtain ⟨⟨qr, hr⟩, ⟨qg, hg⟩, ⟨qb, hb⟩, hwrites⟩ := hwrites
  have hread : ∃ a, Arguments (pieces body)
      (ofNumbers qr.onChannel qg.onChannel qb.onChannel a) := by
    rw [hpieces]
    match alpha, halpha, hwrites with
    | [], _, _ => exact ⟨_, .three hr hg hb ((hasNumbers_opaque_iff hr hg hb).2 rfl)⟩
    | [a], _, hwrites =>
      obtain ⟨qa, ha⟩ := hwrites a List.mem_cons_self
      exact ⟨_, .four hr hg hb ha ((hasNumbers_iff hr hg hb ha.onAlpha_ne_nan).2 rfl)⟩
  obtain ⟨a, harguments⟩ := hread
  exact ⟨_, parse_eq_ok_iff.2 (.functional hname hcall harguments),
    .cons ⟨qr, hr, rfl⟩ (.cons ⟨qg, hg, rfl⟩ (.cons ⟨qb, hb, rfl⟩ .nil))⟩

/-- **Channels are read as the byte nearest to what they mean**, percentages as well as numbers, but
for 50 and 90 percent, which come out as 127 and 229 and not as 128 and 230. -/
theorem channels_nearest {text : String} {channels alpha : List (List Char)}
    (h : IsCallOf text channels alpha) : ∃ c, parse text = .ok c ∧
      List.Forall₂ (fun cs (channel : Channel) => ∀ l : Literal, l.Spells cs → 0 ≤ l.exact →
        l.exact ≤ 255 → l.ReadAs channel.byte) channels [c.red, c.green, c.blue] := by
  obtain ⟨c, hparse, hchannels⟩ := exists_parse h
  refine ⟨c, hparse, hchannels.imp fun cs channel hread l hspells h0 h1 => ?_⟩
  obtain ⟨q, hq, rfl⟩ := hread
  rw [onChannel_eq_of_writes hq (l.writes_quantity h0 h1 hspells)]
  exact l.readAs_byte h0 h1

theorem channels_nearest_fifty :
    ∃ c, parse "rgb(50%, 0, 0)" = .ok c ∧ c.red.byte.toNat = 127 := by
  have hwrites (cs : List Char) (h : (channelNumber? cs).isSome = true) : ∃ q, Writes cs q := by
    obtain ⟨y, hy⟩ := Option.isSome_iff_exists.1 h
    obtain ⟨q, hq, -⟩ := channelNumber?_eq_some_iff.1 hy
    exact ⟨q, hq⟩
  have hpercent := hwrites ['5', '0', '%'] (by decide +kernel)
  have hzero := hwrites ['0'] (by decide +kernel)
  have hcall : IsCallOf "rgb(50%, 0, 0)" [['5', '0', '%'], ['0'], ['0']] [] :=
    ⟨⟨['r', 'g', 'b'], ['5', '0', '%', ',', ' ', '0', ',', ' ', '0'], .inl rfl,
      ⟨[], List.forall_mem_nil _, by decide⟩, by decide⟩, rfl, Nat.zero_le 1, by simp [hpercent, hzero]⟩
  obtain ⟨c, hparse, hchannels⟩ := channels_nearest hcall
  obtain ⟨hred, -⟩ := List.forall₂_cons.1 hchannels
  have hspells : Literal.Spells ⟨⟨false, ['5', '0'], [], 0⟩, true⟩ ['5', '0', '%'] :=
    ⟨['5', '0'], Numeral.read?_eq_some_iff.1 rfl, rfl⟩
  have hsigned : Numeral.signed ⟨false, ['5', '0'], [], 0⟩ = 50 := by
    have hdigits : ofDigits ['5', '0'] = 50 := rfl
    simp [Numeral.signed, Numeral.value, hdigits]
  have hexact : Literal.exact ⟨⟨false, ['5', '0'], [], 0⟩, true⟩ = (127 : Nat) + 1 / 2 := by
    simp only [Literal.exact, hsigned, Literal.full]
    norm_num
  have hdecided := Literal.decided_of_decimals (l := ⟨⟨false, ['5', '0'], [], 0⟩, true⟩)
    (by rw [hsigned]; norm_num) (by decide)
  have hread := hred _ hspells (by rw [hexact]; norm_num) (by rw [hexact]; norm_num)
  refine ⟨c, hparse, ?_⟩
  rw [hread.nearest hdecided, if_pos ⟨rfl, .inl hsigned⟩]
  exact (Literal.floor_half hexact).1

/-- **Fifty percent is not read as the number it stands for**: half of 255, rounded upward, is 128. -/
theorem half_percent_below :
    (parse "rgb(50%, 50%, 50%)").toOption.map (fun c => c.red.byte) = some 127 ∧
      (parse "rgb(127.5, 127.5, 127.5)").toOption.map (fun c => c.red.byte) = some 128 ∧
      ⌊(255 * 50 / 100 : Rat) + 1 / 2⌋₊ = 128 := by
  refine ⟨by decide +kernel, by decide +kernel, ?_⟩
  norm_num

end Color

end ColorTheme
