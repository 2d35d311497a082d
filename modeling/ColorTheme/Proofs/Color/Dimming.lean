import ColorTheme.Proofs.Color.Contrast

/-!
# Colors with less light

Brightness and luminance are sums of growing functions of the rounded channels, and every step of them,
the powers included, keeps the order when it is rounded.  The one place that needs a look is where the
share of light changes from a quotient to a power: the bytes on either side of it are in order.
-/

namespace ColorTheme

open Binary64

/-! ### Shares of light -/

section Light

variable {x y : Binary64}

theorem upTo_linearLight_of_le (h : Rising x y 1) (hy : y ≤ 0.03928) :
    UpTo (linearLight x) (linearLight y) := by
  rw [linearLight, linearLight, if_pos (Binary64.le_trans h.upTo.le hy), if_pos hy]
  exact (rising_linearQuotient h).upTo

theorem upTo_linearLight_of_not_le (h : Rising x y 1) (hx : ¬ x ≤ 0.03928) :
    UpTo (linearLight x) (linearLight y) := by
  rw [linearLight, linearLight, if_neg hx, if_neg fun hy => hx (Binary64.le_trans h.upTo.le hy)]
  exact (rising_powerBase h).upTo.power (upTo_powerBase (h.bounded (by decide))) 2.4

end Light

/-- **The share of light grows** with the byte. -/
theorem upTo_linearLight_byteShare {m n : Nat} (h : m ≤ n) (hn : n ≤ 255) :
    UpTo (linearLight (byteShare m)) (linearLight (byteShare n)) := by
  have hlast : byteShare 10 ≤ 0.03928 := by decide +kernel
  have hfirst : ¬ byteShare 11 ≤ 0.03928 := by decide +kernel
  have hlow {k : Nat} (hk : k ≤ 10) : byteShare k ≤ 0.03928 :=
    Binary64.le_trans (rising_byteShare hk (by decide)).upTo.le hlast
  have hhigh {k : Nat} (hk : 11 ≤ k) (hk' : k ≤ 255) : ¬ byteShare k ≤ 0.03928 := fun hle =>
    hfirst (Binary64.le_trans (rising_byteShare hk hk').upTo.le hle)
  rcases Nat.lt_or_ge 10 m with hm | hm
  · exact upTo_linearLight_of_not_le (rising_byteShare h hn) (hhigh hm (h.trans hn))
  · rcases Nat.lt_or_ge 10 n with hn' | hn'
    · -- From the quotients to the powers it goes by way of the bytes 10 and 11.
      have hstep : UpTo (linearLight (byteShare 10)) (linearLight (byteShare 11)) :=
        upTo_of_le (by decide +kernel) (by decide +kernel) (by decide +kernel)
      exact ((upTo_linearLight_of_le (rising_byteShare hm (by decide)) hlast).trans hstep).trans
        (upTo_linearLight_of_not_le (rising_byteShare hn' hn) hfirst)
    · exact upTo_linearLight_of_le (rising_byteShare h hn) (hlow hn')

theorem Channel.rising_light {c d : Channel} (h : c.byte ≤ d.byte) : Rising c.light d.light 1 := by
  have hmost := d.upTo_light
  have hlight : UpTo c.light d.light :=
    upTo_linearLight_byteShare h (Nat.le_of_lt_succ d.byte.toNat_lt)
  obtain ⟨v, w, hv, hw, h0, hvw⟩ := hlight
  exact ⟨v, w, hv, hw, h0, hvw, by simpa using (hw.le_iff hasValue_one).1 hmost.le⟩

namespace Color

/-- No rounded channel of the color is greater than that of the other one. -/
structure NoLighter (a b : Color) : Prop where
  red : a.red.byte ≤ b.red.byte
  green : a.green.byte ≤ b.green.byte
  blue : a.blue.byte ≤ b.blue.byte

namespace NoLighter

variable {a b : Color}

/-- **Brightness grows** with the channels. -/
theorem brightness_le (h : NoLighter a b) : a.brightness ≤ b.brightness := by
  have hbyte {m n : UInt8} (hmn : m ≤ n) : Rising (Binary64.ofByte m) (Binary64.ofByte n) 255 :=
    rising_ofNat hmn (Nat.le_of_lt_succ n.toNat_lt)
  have hweight {n : Nat} (hn : n < 2 ^ 53) : Rising (ofNat n) (ofNat n) n :=
    (hasValue_ofNat hn).rising (Nat.cast_nonneg n) le_rfl
  have hred := (hbyte h.red).mul (hweight (n := 299) (by decide)) (by decide)
  have hgreen := (hbyte h.green).mul (hweight (n := 587) (by decide)) (by decide)
  have hblue := (hbyte h.blue).mul (hweight (n := 114) (by decide)) (by decide)
  have hsum := (hred.add hgreen (by decide)).add hblue (by decide)
  exact (hsum.div (n := 255) (hasValue_ofNat (n := 1000) (by decide)) (by norm_num) (by decide)
    (by norm_num)).upTo.le

/-- **Luminance grows** with the channels. -/
theorem luminance_le (h : NoLighter a b) : a.luminance ≤ b.luminance :=
  (rising_weighted (Channel.rising_light h.red) (Channel.rising_light h.green)
    (Channel.rising_light h.blue)).upTo.le

end NoLighter

end Color

end ColorTheme
