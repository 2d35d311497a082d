import ColorTheme.Proofs.Context.Coherence
import ColorTheme.Proofs.Context.LastWrites

/-!
# What the last writes leave

The last write of a slot is what the sheet shows for it, in the properties and in the record.  Where
every slot is written, nothing of an earlier sheet shows through, and the order of the slots does not
matter.
-/

namespace ColorTheme

open Style (Property)

namespace Sheet

/-! ### What a sheet shows -/

/-- What a write sets is there, in the properties and in the record. -/
structure Shows (s : Sheet) (w : Write) : Prop where
  properties : ∀ q v, w.value? q = some v → s.properties.get? q.name = some v
  palette : w.role.hasPalette = true → s.palette? w.role w.mode = some (.generate w.color)
  text : w.role = .text → s.textColor? w.mode = some w.color

theorem shows_put (s : Sheet) (w : Write) : (s.put w).Shows w where
  properties q v hv := by rw [get?_put, hv, Option.some_or]
  palette hrole := by rw [palette?_put, if_pos ⟨hrole, rfl, rfl⟩]
  text hrole := by rw [textColor?_put, if_pos ⟨hrole, rfl⟩]

theorem Shows.put {s : Sheet} {v w : Write} (h : s.Shows w) (hne : v.slot ≠ w.slot) :
    (s.put v).Shows w where
  properties q value hvalue := by
    have hnone : v.value? q = none := by
      rcases Write.value?_eq_none_or hne q with hnone | hnone
      · exact hnone
      · rw [hnone] at hvalue
        cases hvalue
    rw [get?_put, hnone, Option.none_or]
    exact h.properties q value hvalue
  palette hrole := by
    rw [palette?_put, if_neg]
    · exact h.palette hrole
    · rintro ⟨-, hr, hm⟩
      exact hne (Prod.ext hr.symm hm.symm)
  text hrole := by
    rw [textColor?_put, if_neg]
    · exact h.text hrole
    · rintro ⟨hr, hm⟩
      exact hne (Prod.ext (hr.trans hrole.symm) hm.symm)

theorem Shows.putAll {s : Sheet} {w : Write} (h : s.Shows w) {writes : List Write}
    (hne : ∀ v ∈ writes, v.slot ≠ w.slot) : (s.putAll writes).Shows w := by
  induction writes generalizing s with
  | nil => exact h
  | cons v rest ih =>
    rw [putAll_cons]
    exact ih (h.put (hne v List.mem_cons_self)) fun u hu => hne u (List.mem_cons_of_mem _ hu)

/-- **The last write of a slot shows.** -/
theorem shows_of_isLast (s : Sheet) {writes : List Write} {w : Write}
    (h : Write.IsLast writes w) : (s.putAll writes).Shows w := by
  obtain ⟨before, after, rfl, hafter⟩ := h
  rw [putAll_append, putAll_cons]
  exact (shows_put _ w).putAll hafter

namespace Shows

variable {s : Sheet} {w : Write}

/-- A palette shows its base under the shade `500`. -/
theorem get?_base (h : s.Shows w) (hrole : w.role.hasPalette = true) :
    s.properties.get? (Style.shadeName w.mode w.role .s500) = some w.color.hex := by
  have hvalue : w.value? (.shade w.mode w.role .s500) = some w.color.hex := by
    rw [Write.value?, if_pos ⟨hrole, rfl, rfl⟩, PaletteEntry.hex_derive_base]
  exact h.properties _ _ hvalue

theorem get?_text (h : s.Shows w) (hrole : w.role = .text) :
    s.properties.get? (Style.textName w.mode) = some w.color.text := by
  have hvalue : w.value? (.text w.mode) = some w.color.text := by
    rw [Write.value?, if_pos ⟨hrole, rfl⟩]
  exact h.properties _ _ hvalue

end Shows

/-! ### Writes for every slot -/

/-- **The record of a coherent sheet tells all of it.** -/
theorem Coherent.ext {s t : Sheet} (hs : s.Coherent) (ht : t.Coherent)
    (hpalettes : ∀ role mode, s.palette? role mode = t.palette? role mode)
    (htexts : ∀ mode, s.textColor? mode = t.textColor? mode) : s = t := by
  have hexpected (q : Property) : s.expected q = t.expected q := by
    cases q <;> simp only [expected, hpalettes, htexts]
  have hunnamed {u : Sheet} (hu : u.Coherent) {k : String} (hk : ∀ q : Property, q.name ≠ k) :
      u.properties.get? k = none := by
    cases hvalue : u.properties.get? k with
    | none => rfl
    | some v =>
      obtain ⟨q, rfl⟩ := hu.named k v hvalue
      exact absurd rfl (hk q)
  refine ext_named ?_ ?_ hpalettes htexts
  · intro q
    rw [hs.get?_name, ht.get?_name, hexpected]
  · intro k hk
    rw [hunnamed hs hk, hunnamed ht hk]

end Sheet

namespace Write

section slots
variable {slots : List (Role × Mode)} {f : Role × Mode → Write} (hf : ∀ slot, (f slot).slot = slot)
include hf

theorem isLast_map (hnodup : slots.Nodup) {slot : Role × Mode} (hslot : slot ∈ slots) :
    IsLast (slots.map f) (f slot) := by
  obtain ⟨before, after, rfl⟩ := List.append_of_mem hslot
  refine ⟨before.map f, after.map f, by rw [List.map_append, List.map_cons], ?_⟩
  intro v hv
  obtain ⟨later, hlater, rfl⟩ := List.mem_map.1 hv
  rw [hf, hf]
  -- A slot that came again would be in the list twice.
  rintro rfl
  have hcons := (List.nodup_append.1 hnodup).2.1
  exact (List.nodup_cons.1 hcons).1 hlater

theorem isLast_map_iff (hnodup : slots.Nodup) {w : Write} :
    IsLast (slots.map f) w ↔ w ∈ slots.map f := by
  constructor
  · rintro ⟨before, after, hsplit, -⟩
    rw [hsplit]
    exact List.mem_append_right _ List.mem_cons_self
  · intro hw
    obtain ⟨slot, hslot, rfl⟩ := List.mem_map.1 hw
    exact isLast_map hf hnodup hslot

theorem nodup_map (hnodup : slots.Nodup) : (slots.map f).Nodup := by
  refine hnodup.map ?_
  intro slot slot' h
  rw [← hf slot, h, hf]

end slots

end Write

namespace Sheet

section slots
variable {f : Role × Mode → Write} (hf : ∀ slot, (f slot).slot = slot)
include hf

/-- **The order of the slots does not matter.** -/
theorem putAll_reordered (s : Sheet) {slots slots' : List (Role × Mode)} (hnodup : slots.Nodup)
    (hnodup' : slots'.Nodup) (hmem : ∀ slot, slot ∈ slots' ↔ slot ∈ slots) :
    s.putAll (slots'.map f) = s.putAll (slots.map f) := by
  refine (s.putAll_of_lasts (Write.nodup_map hf hnodup') ?_).symm
  intro w
  rw [Write.isLast_map_iff hf hnodup]
  simp only [List.mem_map, hmem]

/-- **Writes for every slot leave nothing of what was there before.** -/
theorem Coherent.putAll_eq {s t : Sheet} (hs : s.Coherent) (ht : t.Coherent)
    {slots : List (Role × Mode)} (hnodup : slots.Nodup) (hall : ∀ slot, slot ∈ slots) :
    s.putAll (slots.map f) = t.putAll (slots.map f) := by
  have hs' := hs.putAll (slots.map f)
  have ht' := ht.putAll (slots.map f)
  have hlast (role : Role) (mode : Mode) := Write.isLast_map hf hnodup (hall (role, mode))
  have hslot (role : Role) (mode : Mode) := Prod.mk.inj (hf (role, mode))
  refine hs'.ext ht' ?_ ?_
  · intro role mode
    obtain ⟨hrole, hmode⟩ := hslot role mode
    cases hpalette : role.hasPalette with
    | true =>
      have hshown (u : Sheet) := (u.shows_of_isLast (hlast role mode)).palette
      rw [hrole, hmode] at hshown
      rw [hshown s hpalette, hshown t hpalette]
    | false =>
      rw [← Role.eq_text_iff] at hpalette
      rw [hpalette, hs'.plain_text, ht'.plain_text]
  · intro mode
    obtain ⟨hrole, hmode⟩ := hslot .text mode
    have hshown (u : Sheet) := (u.shows_of_isLast (hlast .text mode)).text hrole
    rw [hmode] at hshown
    rw [hshown s, hshown t]

end slots

end Sheet

end ColorTheme
