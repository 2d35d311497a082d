import ColorTheme.Proofs.Color.OfHsl

/-!
# Whole channels and HSL

A color keeps its form when it is converted to HSL and mixed again, so the channels come back to within a
thousandth of a byte.  That is enough for channels that are whole: each is rounded to the byte that it
was.
-/

namespace ColorTheme

open Binary64 Wheel

namespace Wheel.Form

def withLightness (f : Form) (l : Rat) : Form :=
  { f with lightness := unit l, lightness_mem := unit_mem l }

def withSaturation (f : Form) (s : Rat) : Form :=
  { f with saturation := unit s, saturation_mem := unit_mem s }

variable (f : Form)

theorem withLightness_self : f.withLightness f.lightness = f := by
  simp only [withLightness, unit_of_mem f.lightness_mem.1 f.lightness_mem.2]

theorem withSaturation_self : f.withSaturation f.saturation = f := by
  simp only [withSaturation, unit_of_mem f.saturation_mem.1 f.saturation_mem.2]

end Wheel.Form

/-! ### Changes of a form -/

namespace Hsl.Has

variable {x : Hsl} {f : Form} {y : Binary64} {v : Rat}

theorem shows (h : x.Has f) (a : Binary64) : (Color.ofHsl x a).Shows f :=
  Color.shows_ofHsl h.hue h.saturation h.lightness
    (unit_of_mem f.saturation_mem.1 f.saturation_mem.2)
    (unit_of_mem f.lightness_mem.1 f.lightness_mem.2) a

theorem shows_withLightness (h : x.Has f) (hy : HasValue y v) (a : Binary64) :
    (Color.ofHsl { x with lightness := y } a).Shows (f.withLightness v) :=
  Color.shows_ofHsl (x := { x with lightness := y }) (f := f.withLightness v) h.hue h.saturation hy
    (unit_of_mem f.saturation_mem.1 f.saturation_mem.2) rfl a

theorem shows_withSaturation (h : x.Has f) (hy : HasValue y v) (a : Binary64) :
    (Color.ofHsl { x with saturation := y } a).Shows (f.withSaturation v) :=
  Color.shows_ofHsl (x := { x with saturation := y }) (f := f.withSaturation v) h.hue hy h.lightness rfl
    (unit_of_mem f.lightness_mem.1 f.lightness_mem.2) a

end Hsl.Has

namespace Color

/-! ### Whole channels -/

theorem hex_eq_of_alike {a b : Color} (h : Alike a b) : a.hex = b.hex := by
  rw [hex, hex, hexDigits, hexDigits, h.red, h.green, h.blue]

/-- **A whole channel** is the byte of every channel that is near to what it is near to. -/
theorem byte_eq_of_near {c d : Channel} {v : Rat} (hc : Near c.number v (1 / 1000))
    (hd : Near d.number v (1 / 1000)) {b : UInt8} (hb : c = .ofByte b) : d.byte = c.byte := by
  have hrange : b.toNat < 256 := b.toNat_lt
  obtain ⟨u, hu, hnear⟩ := hc
  obtain ⟨w, hw, hnear'⟩ := hd
  obtain ⟨w', hw', h0, h1, -, hbyte⟩ := Plain.isChannel_number d
  have hwhole : u = b.toNat := by
    rw [← hu.value_eq, hb, Channel.number_ofByte]
    exact (hasValue_ofNat (by omega)).value_eq
  have hfloor : d.byte.toNat = b.toNat := by
    rw [hbyte, ← hw'.value_eq, hw.value_eq]
    refine floor_of_near ?_
    rw [← hwhole]
    rw [abs_le] at hnear hnear'
    rw [abs_lt]
    constructor <;> linarith
  rw [hb, Channel.byte_ofByte, ← UInt8.toNat_inj, hfloor]

theorem channel_rgba (r g b : UInt8) (alpha : Binary64) (p : Primary) :
    (rgba r g b alpha).channel p =
      .ofByte (match p with | .red => r | .green => g | .blue => b) := by
  rw [rgba, withAlpha, rgb]
  cases p <;> rw [channel]

theorem alike_of_channels {a b : Color} (h : ∀ p, (a.channel p).byte = (b.channel p).byte) :
    Alike a b :=
  ⟨h .red, h .green, h .blue⟩

theorem alike_of_shows {r g b : UInt8} {alpha : Binary64} {d : Color} {f : Form}
    (hc : (rgba r g b alpha).Shows f) (hd : d.Shows f) : Alike d (rgba r g b alpha) :=
  alike_of_channels fun p => byte_eq_of_near (hc p) (hd p) (channel_rgba r g b alpha p)

/-! ### Derivations -/

section Derivations

variable (c : Color) (points : Binary64)

theorem lighten_eq : c.lighten points =
    ofHsl { c.toHsl with lightness := c.toHsl.lightness + points / 100 } c.alpha.number := by
  rw [lighten, mapHsl]

theorem darken_eq : c.darken points =
    ofHsl { c.toHsl with lightness := c.toHsl.lightness - points / 100 } c.alpha.number := by
  rw [darken, mapHsl]

theorem saturate_eq : c.saturate points =
    ofHsl { c.toHsl with saturation := c.toHsl.saturation + points / 100 } c.alpha.number := by
  rw [saturate, mapHsl]

end Derivations

/-- By no points a form is not changed. -/
theorem shows_derivations {c : Color} {f : Form} (h : c.toHsl.Has f) :
    (c.lighten 0).Shows f ∧ (c.darken 0).Shows f ∧ (c.saturate 0).Shows f := by
  have hnothing : HasValue (0 / 100) 0 := by
    have hquotient := hasValue_zero.div (hasValue_ofNat (n := 100) (by decide)) (by norm_num)
    rw [zero_div] at hquotient
    exact hquotient.hasValue hasValue_zero
  have hplus {x : Binary64} {v : Rat} (hx : HasValue x v) : HasValue (x + 0 / 100) v := by
    have hsum := hx.add hnothing
    rw [add_zero] at hsum
    exact hsum.hasValue hx
  have hminus {x : Binary64} {v : Rat} (hx : HasValue x v) : HasValue (x - 0 / 100) v := by
    have hdifference := hx.sub hnothing
    rw [sub_zero] at hdifference
    exact hdifference.hasValue hx
  have hlighter := h.shows_withLightness (hplus h.lightness) c.alpha.number
  have hdarker := h.shows_withLightness (hminus h.lightness) c.alpha.number
  have hricher := h.shows_withSaturation (hplus h.saturation) c.alpha.number
  rw [f.withLightness_self, ← lighten_eq] at hlighter
  rw [f.withLightness_self, ← darken_eq] at hdarker
  rw [f.withSaturation_self, ← saturate_eq] at hricher
  exact ⟨hlighter, hdarker, hricher⟩

/-- **Nothing visible is lost through HSL**: a color of three bytes comes back with the same bytes, with
whatever alpha, and a derivation by no points keeps its hexadecimal form. -/
theorem hsl_lossless (r g b : UInt8) (alpha : Binary64) :
    let c := rgba r g b alpha
    (∀ a, Alike (ofHsl c.toHsl a) c) ∧
      (c.lighten 0).hex = c.hex ∧ (c.darken 0).hex = c.hex ∧ (c.saturate 0).hex = c.hex := by
  intro c
  obtain ⟨f, hf, hc⟩ := c.exists_form
  obtain ⟨hlighter, hdarker, hricher⟩ := shows_derivations hf
  exact ⟨fun a => alike_of_shows hc (hf.shows a), hex_eq_of_alike (alike_of_shows hc hlighter),
    hex_eq_of_alike (alike_of_shows hc hdarker), hex_eq_of_alike (alike_of_shows hc hricher)⟩

end Color

end ColorTheme
