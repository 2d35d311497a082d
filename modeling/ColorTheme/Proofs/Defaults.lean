import ColorTheme.Settings
import ColorTheme.Proofs.Screening

/-!
# Suitable defaults

All default colors of an environment suit their slots: the built-in ones do, and checking the
defaults puts a built-in one in the place of each that does not.
-/

namespace ColorTheme

namespace Defaults

/-! ### Checking defaults -/

/-- Every default color suits its slot. -/
def Suits (d : Defaults) : Prop := ∀ role mode, isSuitable role (d.get role mode) mode = true

theorem builtin_suits : Suits builtin := by
  intro role mode
  cases role <;> cases mode <;> decide +kernel

/-- A default color is kept if it suits its slot, and the built-in one takes its place if not. -/
def checked (d : Defaults) (role : Role) (mode : Mode) : Color :=
  if isSuitable role (d.get role mode) mode then d.get role mode else builtin.get role mode

theorem value_validateSlot (d : Defaults) (role : Role) (mode : Mode) :
    (d.validateSlot role mode).value =
      if isSuitable role (d.get role mode) mode then d
      else d.set role mode (builtin.get role mode) := by
  simp only [validateSlot]
  split <;> rfl

theorem get_validateSlot (d : Defaults) (role r : Role) (mode m : Mode) :
    (d.validateSlot role mode).value.get r m =
      if r = role ∧ m = mode then d.checked r m else d.get r m := by
  rw [value_validateSlot]
  by_cases hslot : r = role ∧ m = mode
  · obtain ⟨rfl, rfl⟩ := hslot
    simp only [and_self, if_true, checked]
    split
    · rfl
    · rw [Slots.get_set, if_pos ⟨rfl, rfl⟩]
  · rw [if_neg hslot]
    split
    · rfl
    · rw [Slots.get_set, if_neg hslot]

theorem checked_of_get {d d' : Defaults} {role : Role} {mode : Mode}
    (h : d'.get role mode = d.checked role mode) : d'.checked role mode = d.checked role mode := by
  have hsuits : isSuitable role (d.checked role mode) mode = true := by
    unfold checked
    split
    · assumption
    · exact builtin_suits role mode
  rw [checked, h, if_pos hsuits]

theorem get_foldl_validateSlot (slots : List (Role × Mode)) (d : Defaults) (r : Role) (m : Mode) :
    (slots.foldl (fun d slot => (validateSlot d slot.1 slot.2).value) d).get r m =
      if (r, m) ∈ slots then d.checked r m else d.get r m := by
  induction slots generalizing d with
  | nil => simp
  | cons slot rest ih =>
    have hfirst := get_validateSlot d slot.1 r slot.2 m
    rw [List.foldl_cons, ih]
    by_cases hslot : r = slot.1 ∧ m = slot.2
    · -- The slot may come again; then the checked color is checked, which keeps it.
      rw [if_pos hslot] at hfirst
      obtain ⟨rfl, rfl⟩ := hslot
      rw [checked_of_get hfirst, hfirst, if_pos List.mem_cons_self, ite_self]
    · rw [if_neg hslot] at hfirst
      have hne : (r, m) ≠ slot := fun heq => hslot ⟨by rw [← heq], by rw [← heq]⟩
      have hchecked : (validateSlot d slot.1 slot.2).value.checked r m = d.checked r m := by
        rw [checked, checked, hfirst]
      rw [hfirst, hchecked]
      simp only [List.mem_cons, hne, false_or]

/-- **Checked defaults have the checked color in every slot.** -/
theorem get_validated (d : Defaults) (role : Role) (mode : Mode) :
    d.validated.value.get role mode = d.checked role mode := by
  rw [validated, Noted.value_foldlM, get_foldl_validateSlot]
  split
  · rfl
  · next hslot =>
    have hplain : requiredTone role mode = none := by
      revert hslot
      cases role <;> cases mode <;> decide
    rw [checked, if_pos (isSuitable_of_no_tone hplain _)]

theorem validated_suits (d : Defaults) : Suits d.validated.value := by
  intro role mode
  rw [get_validated]
  unfold checked
  split
  · assumption
  · exact builtin_suits role mode

end Defaults

/-- **The default colors of every environment suit their slots.** -/
theorem Settings.ofLookup_suits (lookup : String → Option String) :
    (Settings.ofLookup lookup).value.defaults.Suits := by
  have hdefaults (path : Option String) (x : Noted Defaults) :
      (do return ⟨path, ← x⟩ : Noted Settings).value.defaults = x.value := rfl
  rw [Settings.ofLookup, Noted.value_bind, hdefaults]
  exact Defaults.validated_suits _

end ColorTheme
