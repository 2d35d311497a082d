import ColorTheme.Proofs.Context.Calls
import ColorTheme.Proofs.SortedMap

/-!
# Last writes

A write covers an earlier one for the same slot and commutes with every write for another slot.  So
of any run of calls only the last write of each slot counts, and the order of these does not matter.
-/

namespace ColorTheme

open Style (Property)

/-! ### Slots of writes -/

namespace Write

def slot (w : Write) : Role × Mode := (w.role, w.mode)

variable {v w : Write}

theorem isSome_value?_congr (h : v.slot = w.slot) (q : Property) :
    (v.value? q).isSome = (w.value? q).isSome := by
  obtain ⟨hrole, hmode⟩ := Prod.mk.inj h
  cases q <;> simp only [value?, hrole, hmode] <;> split <;>
    simp only [Option.isSome_some, Option.isSome_none]

theorem value?_eq_none_or (h : v.slot ≠ w.slot) (q : Property) :
    v.value? q = none ∨ w.value? q = none := by
  by_contra hboth
  rw [not_or] at hboth
  apply h
  -- A property tells the slot of the write that sets it.
  cases q with
  | shade m r s =>
    simp only [value?, ite_eq_right_iff, not_forall] at hboth
    obtain ⟨⟨⟨-, rfl, rfl⟩, -⟩, ⟨⟨-, hr, hm⟩, -⟩⟩ := hboth
    exact Prod.ext hr hm
  | overlay m r s =>
    simp only [value?, ite_eq_right_iff, not_forall] at hboth
    obtain ⟨⟨⟨-, rfl, rfl⟩, -⟩, ⟨⟨-, hr, hm⟩, -⟩⟩ := hboth
    exact Prod.ext hr hm
  | text m =>
    simp only [value?, ite_eq_right_iff, not_forall] at hboth
    obtain ⟨⟨⟨hv, rfl⟩, -⟩, ⟨⟨hw, hm⟩, -⟩⟩ := hboth
    exact Prod.ext (hv.trans hw.symm) hm
  | secondaryText m =>
    simp only [value?, ite_eq_right_iff, not_forall] at hboth
    obtain ⟨⟨⟨hv, rfl⟩, -⟩, ⟨⟨hw, hm⟩, -⟩⟩ := hboth
    exact Prod.ext (hv.trans hw.symm) hm

end Write

namespace Sheet

/-! ### Two writes -/

theorem ext_get {s t : Sheet} (hproperties : ∀ k, s.properties.get? k = t.properties.get? k)
    (hpalettes : ∀ role mode, s.palette? role mode = t.palette? role mode)
    (htexts : ∀ mode, s.textColor? mode = t.textColor? mode) : s = t := by
  have hp : s.properties = t.properties := SortedMap.ext_get? hproperties
  have hq : s.palettes = t.palettes := Slots.ext_get hpalettes
  have ht : s.texts = t.texts := Modes.ext_get htexts
  cases s
  cases t
  simp only [mk.injEq]
  exact ⟨hp, hq, ht⟩

/-- Sheets with the same named properties and the same record are equal, if the properties without
a name agree too. -/
theorem ext_named {s t : Sheet} (hnamed : ∀ q : Property,
      s.properties.get? q.name = t.properties.get? q.name)
    (hunnamed : ∀ k, (∀ q : Property, q.name ≠ k) → s.properties.get? k = t.properties.get? k)
    (hpalettes : ∀ role mode, s.palette? role mode = t.palette? role mode)
    (htexts : ∀ mode, s.textColor? mode = t.textColor? mode) : s = t := by
  refine ext_get ?_ hpalettes htexts
  intro k
  by_cases hk : ∃ q : Property, q.name = k
  · obtain ⟨q, rfl⟩ := hk
    exact hnamed q
  · exact hunnamed k fun q hq => hk ⟨q, hq⟩

variable (s : Sheet) {v w : Write}

/-- **A later write for a slot covers an earlier one.** -/
theorem put_put_of_same (h : v.slot = w.slot) : (s.put v).put w = s.put w := by
  obtain ⟨hrole, hmode⟩ := Prod.mk.inj h
  refine ext_named ?_ ?_ ?_ ?_
  · intro q
    have hsome := Write.isSome_value?_congr h q
    simp only [get?_put]
    cases hw : w.value? q with
    | some value => rfl
    | none =>
      rw [hw, Option.isSome_none, Option.isSome_eq_false_iff, Option.isNone_iff_eq_none] at hsome
      rw [hsome]
      rfl
  · intro k hk
    simp only [get?_put_of_unnamed _ _ hk]
  · intro role mode
    simp only [palette?_put, hrole, hmode]
    split <;> rfl
  · intro mode
    simp only [textColor?_put, hrole, hmode]
    split <;> rfl

/-- **Writes for two slots commute.** -/
theorem put_put_comm (h : v.slot ≠ w.slot) : (s.put v).put w = (s.put w).put v := by
  refine ext_named ?_ ?_ ?_ ?_
  · intro q
    simp only [get?_put]
    rcases Write.value?_eq_none_or h q with hnone | hnone
    · rw [hnone, Option.none_or, Option.none_or]
    · rw [hnone, Option.none_or, Option.none_or]
  · intro k hk
    simp only [get?_put_of_unnamed _ _ hk]
  · intro role mode
    simp only [palette?_put]
    by_cases hw : w.role.hasPalette ∧ role = w.role ∧ mode = w.mode
    · have hv : ¬(v.role.hasPalette ∧ role = v.role ∧ mode = v.mode) := by
        rintro ⟨-, hr, hm⟩
        exact h (Prod.ext (hr.symm.trans hw.2.1) (hm.symm.trans hw.2.2))
      rw [if_pos hw, if_neg hv, if_pos hw]
    · rw [if_neg hw, if_neg hw]
  · intro mode
    simp only [textColor?_put]
    by_cases hw : w.role = .text ∧ mode = w.mode
    · have hv : ¬(v.role = .text ∧ mode = v.mode) := by
        rintro ⟨hr, hm⟩
        exact h (Prod.ext (hr.trans hw.1.symm) (hm.symm.trans hw.2))
      rw [if_pos hw, if_neg hv, if_pos hw]
    · rw [if_neg hw, if_neg hw]

end Sheet

/-! ### The last write of a slot -/

namespace Write

/-- A write that no later one for the same slot follows. -/
def IsLast (writes : List Write) (w : Write) : Prop :=
  ∃ before after, writes = before ++ w :: after ∧ ∀ v ∈ after, v.slot ≠ w.slot

/-- The last write of each slot, in order. -/
def lasts : List Write → List Write
  | [] => []
  | w :: rest => if rest.any (·.slot = w.slot) then lasts rest else w :: lasts rest

theorem isLast_cons {writes : List Write} {v w : Write} :
    IsLast (v :: writes) w ↔ (w = v ∧ ∀ u ∈ writes, u.slot ≠ v.slot) ∨ IsLast writes w := by
  constructor
  · rintro ⟨before, after, hsplit, hafter⟩
    cases before with
    | nil =>
      obtain ⟨rfl, rfl⟩ := List.cons.inj hsplit
      exact .inl ⟨rfl, hafter⟩
    | cons u before =>
      obtain ⟨-, rfl⟩ := List.cons.inj hsplit
      exact .inr ⟨before, after, rfl, hafter⟩
  · rintro (⟨rfl, hafter⟩ | ⟨before, after, rfl, hafter⟩)
    · exact ⟨[], writes, rfl, hafter⟩
    · exact ⟨v :: before, after, rfl, hafter⟩

theorem mem_lasts {writes : List Write} {w : Write} : w ∈ lasts writes ↔ IsLast writes w := by
  induction writes with
  | nil => simp [lasts, IsLast]
  | cons v rest ih =>
    rw [lasts, isLast_cons]
    by_cases hlater : ∃ u ∈ rest, u.slot = v.slot
    · rw [if_pos (by simpa using hlater), ih]
      obtain ⟨u, hu, hslot⟩ := hlater
      constructor
      · exact Or.inr
      · rintro (⟨-, hnone⟩ | hw)
        · exact absurd hslot (hnone u hu)
        · exact hw
    · rw [if_neg (by simpa using hlater), List.mem_cons, ih]
      have hnone : ∀ u ∈ rest, u.slot ≠ v.slot := fun u hu hslot => hlater ⟨u, hu, hslot⟩
      rw [and_iff_left hnone]

theorem IsLast.eq_of_slot_eq {writes : List Write} {v w : Write} (hv : IsLast writes v)
    (hw : IsLast writes w) (hslot : v.slot = w.slot) : v = w := by
  induction writes with
  | nil =>
    obtain ⟨before, after, hsplit, -⟩ := hv
    simp at hsplit
  | cons u rest ih =>
    -- The head is the last of its slot only if the tail has no write for it.
    have hmem {x : Write} (hx : IsLast rest x) : x ∈ rest := by
      obtain ⟨before, after, rfl, -⟩ := hx
      simp
    rw [isLast_cons] at hv hw
    rcases hv with ⟨rfl, hnone⟩ | hv <;> rcases hw with ⟨rfl, hnone'⟩ | hw
    · rfl
    · exact absurd hslot.symm (hnone w (hmem hw))
    · exact absurd hslot (hnone' v (hmem hv))
    · exact ih hv hw

theorem nodup_lasts (writes : List Write) : (lasts writes).Nodup := by
  induction writes with
  | nil => exact List.nodup_nil
  | cons w rest ih =>
    rw [lasts]
    split
    · exact ih
    · next hlater =>
      refine List.nodup_cons.2 ⟨?_, ih⟩
      intro hmem
      obtain ⟨before, after, rfl, -⟩ := mem_lasts.1 hmem
      simp at hlater

end Write

namespace Sheet

variable (s : Sheet)

/-- A write does not count before a run that has one for the same slot. -/
theorem putAll_put_of_later {w : Write} {writes : List Write}
    (hlater : ∃ v ∈ writes, v.slot = w.slot) : (s.put w).putAll writes = s.putAll writes := by
  induction writes generalizing s with
  | nil => simp at hlater
  | cons u rest ih =>
    rw [putAll_cons, putAll_cons]
    by_cases hslot : w.slot = u.slot
    · rw [s.put_put_of_same hslot]
    · rw [s.put_put_comm hslot]
      refine ih (s.put u) ?_
      obtain ⟨v, hv, hvw⟩ := hlater
      rcases List.mem_cons.1 hv with rfl | hv
      · exact absurd hvw.symm hslot
      · exact ⟨v, hv, hvw⟩

theorem putAll_lasts (writes : List Write) : s.putAll (Write.lasts writes) = s.putAll writes := by
  induction writes generalizing s with
  | nil => rfl
  | cons w rest ih =>
    rw [Write.lasts, putAll_cons]
    split
    · next hlater =>
      rw [ih, s.putAll_put_of_later (by simpa using hlater)]
    · rw [putAll_cons, ih]

/-- **Only the last write of each slot counts**, in any order. -/
theorem putAll_of_lasts {writes l : List Write} (hnodup : l.Nodup)
    (hlast : ∀ w, w ∈ l ↔ Write.IsLast writes w) : s.putAll writes = s.putAll l := by
  have hperm : l.Perm (Write.lasts writes) := by
    rw [List.perm_ext_iff_of_nodup hnodup (Write.nodup_lasts writes)]
    intro w
    rw [hlast, Write.mem_lasts]
  rw [← putAll_lasts]
  refine (hperm.foldl_eq' ?_ s).symm
  intro v hv w hw s
  by_cases hslot : v.slot = w.slot
  · rw [((hlast v).1 hv).eq_of_slot_eq ((hlast w).1 hw) hslot]
  · exact s.put_put_comm hslot

end Sheet

namespace Context

/-! ### Runs of calls -/

/-- The error that a call answers with: that of a color that is only read. -/
def error? (c : Context) : Operation → Option ColorError
  | .applyPrimary color mode =>
    match c.applyPlain .primary color mode with
    | .ok _ => none
    | .error e => some e
  | .applyWarn color mode =>
    match c.applyPlain .warn color mode with
    | .ok _ => none
    | .error e => some e
  | _ => none

/-- A call that fails writes nothing and changes nothing. -/
theorem unchanged_of_error {c : Context} {operation : Operation} {e : ColorError}
    (h : c.error? operation = some e) :
    writes c.defaults operation = [] ∧
      ∀ s : Surroundings, (c.perform operation).run s = (c, s) := by
  have hplain (role : Role) (color : String) (mode : Mode)
      (hfail : c.applyPlain role color mode = .error e) :
      plainWrites role color mode = [] ∧
        ∀ s : Surroundings, (c.orUnchanged (c.applyPlain role color mode)).run s = (c, s) := by
    rw [hfail]
    refine ⟨?_, fun s => rfl⟩
    rw [applyPlain, Sheet.applyPlain] at hfail
    unfold plainWrites
    cases hparse : Color.parse color with
    | error e' => rfl
    | ok read =>
      rw [hparse] at hfail
      cases hfail
  cases operation with
  | applyPrimary color mode =>
    rw [error?] at h
    split at h
    · cases h
    · next hfail =>
      cases h
      exact hplain .primary color mode hfail
  | applyWarn color mode =>
    rw [error?] at h
    split at h
    · cases h
    · next hfail =>
      cases h
      exact hplain .warn color mode hfail
  | _ => cases h

/-- **The last write of each slot wins, and the slots are independent.**  After any run of calls on
any context, the sheet is the one before with one write for each slot that was written, its last
one, in whatever order.  A call that fails has no write and leaves everything as it is. -/
theorem last_writes_win (c : Context) (calls : List Call) {l : List Write} (hnodup : l.Nodup)
    (hlast : ∀ w, w ∈ l ↔
      Write.IsLast (calls.flatMap fun call => writes c.defaults call.operation) w) :
    (c.afterAll calls).sheet = c.sheet.putAll l ∧
      ∀ operation e, c.error? operation = some e →
        writes c.defaults operation = [] ∧
          ∀ s : Surroundings, (c.perform operation).run s = (c, s) := by
  constructor
  · rw [(theme_afterAll c calls).1]
    exact c.sheet.putAll_of_lasts hnodup hlast
  · intro operation e herror
    exact unchanged_of_error herror

def blank : Context := new (.memory .empty) .builtin

/-- Two palettes for one slot with a text color between them, and a color that cannot be read. -/
def repainting : List Call :=
  [Operation.applyPrimary "#ff0000" .dark, .applyText (some "#ffffff") .dark,
    .applyPrimary "#00ff00" .dark, .applyPrimary "no color" .dark].map fun operation =>
      ⟨operation, .ofFiles .empty⟩

/-- The second palette and the text color are left, and the palette may come first. -/
theorem last_writes_win_repainting :
    (blank.afterAll repainting).sheet =
        blank.sheet.putAll [⟨.primary, .dark, .rgb 0 255 0⟩, ⟨.text, .dark, .white⟩] ∧
      blank.error? (.applyPrimary "no color" .dark) = some (.malformed "no color") ∧
      ∀ s : Surroundings, (blank.perform (.applyPrimary "no color" .dark)).run s = (blank, s) := by
  have hred : Color.parse "#ff0000" = .ok (.rgb 255 0 0) := by decide +kernel
  have hgreen : Color.parse "#00ff00" = .ok (.rgb 0 255 0) := by decide +kernel
  have hunread : Color.parse "no color" = .error (.malformed "no color") := by decide +kernel
  have hwhite : screen .text (some "#ffffff") .dark = .ok .white := by decide +kernel
  have hwrites : (repainting.flatMap fun call => writes blank.defaults call.operation) =
      [⟨.primary, .dark, .rgb 255 0 0⟩, ⟨.text, .dark, .white⟩,
        ⟨.primary, .dark, .rgb 0 255 0⟩] := by
    simp [repainting, writes, plainWrites, hred, hgreen, hunread, chosen_of_ok hwhite]
  have herror : blank.error? (.applyPrimary "no color" .dark) = some (.malformed "no color") := by
    simp [error?, applyPlain, Sheet.applyPlain, hunread, Except.map]
  have hwin := last_writes_win blank repainting
    (l := [⟨.primary, .dark, .rgb 0 255 0⟩, ⟨.text, .dark, .white⟩])
    (by simp [List.nodup_cons])
    (by
      intro w
      rw [hwrites, ← Write.mem_lasts]
      simp [Write.lasts, Write.slot, or_comm])
  exact ⟨hwin.1, herror, (hwin.2 _ _ herror).2⟩

end Context

end ColorTheme
