import ColorTheme.Proofs.Defaults

/-!
# Default colors of an environment

Two ways to judge a color agree.  An environment is read variable by variable: what is no color is
ignored, and in the end every color that does not suit its slot gives way to the built-in one.  The
same comes out if the variable of each slot is screened on its own.
-/

namespace ColorTheme

namespace Defaults

/-! ### Checking once and twice -/

theorem validateSlots_of_suits {d : Defaults} (h : d.Suits) (slots : List (Role × Mode)) :
    slots.foldlM (fun d slot => validateSlot d slot.1 slot.2) d = (pure d : Noted Defaults) := by
  induction slots with
  | nil => rfl
  | cons slot rest ih =>
    have hslot : d.validateSlot slot.1 slot.2 = pure d := by
      simp only [validateSlot, h slot.1 slot.2, if_true]
    rw [List.foldlM_cons, hslot]
    exact ih

theorem validated_of_suits {d : Defaults} (h : d.Suits) : d.validated = pure d :=
  validateSlots_of_suits h toned

end Defaults

namespace Settings

/-! ### Variables -/

theorem find_colorVariable (role : Role) (mode : Mode) :
    slots.find? (fun slot => colorVariable slot.1 slot.2 = colorVariable role mode) =
      some (role, mode) := by
  cases role <;> cases mode <;> decide

theorem colorVariable_injective :
    Function.Injective fun slot : Role × Mode => colorVariable slot.1 slot.2 := by
  intro slot slot' h
  have hfind := find_colorVariable slot.1 slot.2
  rw [show colorVariable slot.1 slot.2 = colorVariable slot'.1 slot'.2 from h,
    find_colorVariable slot'.1 slot'.2] at hfind
  exact (Option.some.inj hfind).symm

theorem mem_slots (role : Role) (mode : Mode) : (role, mode) ∈ slots :=
  List.mem_of_find?_eq_some (find_colorVariable role mode)

variable (lookup : String → Option String)

/-- The color that the variable of a slot is set to, if it is set to a color. -/
def given? (role : Role) (mode : Mode) : Option Color :=
  (lookup (colorVariable role mode)).bind fun text => (Color.parse text).toOption

theorem value_readSlot (d : Defaults) (role : Role) (mode : Mode) :
    (readSlot lookup d role mode).value =
      (given? lookup role mode).elim d fun color => d.set role mode color := by
  rw [readSlot, given?]
  cases lookup (colorVariable role mode) with
  | none => rfl
  | some text =>
    dsimp only [Option.bind_some]
    cases Color.parse text with
    | error error => rfl
    | ok color => rfl

theorem get_readSlot (d : Defaults) (role r : Role) (mode m : Mode) :
    (readSlot lookup d role mode).value.get r m =
      if r = role ∧ m = mode then (given? lookup r m).getD (d.get r m) else d.get r m := by
  rw [value_readSlot]
  by_cases hslot : r = role ∧ m = mode
  · obtain ⟨rfl, rfl⟩ := hslot
    rw [if_pos ⟨rfl, rfl⟩]
    cases given? lookup r m with
    | none => rfl
    | some color => rw [Option.elim_some, Slots.get_set, if_pos ⟨rfl, rfl⟩, Option.getD_some]
  · rw [if_neg hslot]
    cases given? lookup role mode with
    | none => rfl
    | some color => rw [Option.elim_some, Slots.get_set, if_neg hslot]

theorem get_foldl_readSlot (slots : List (Role × Mode)) (d : Defaults) (r : Role) (m : Mode) :
    (slots.foldl (fun d slot => (readSlot lookup d slot.1 slot.2).value) d).get r m =
      if (r, m) ∈ slots then (given? lookup r m).getD (d.get r m) else d.get r m := by
  induction slots generalizing d with
  | nil => simp
  | cons slot rest ih =>
    rw [List.foldl_cons, ih, get_readSlot]
    by_cases hslot : r = slot.1 ∧ m = slot.2
    · -- The slot may come again; then its color is read again, which is the same.
      rw [if_pos hslot]
      obtain ⟨rfl, rfl⟩ := hslot
      rw [if_pos List.mem_cons_self]
      cases given? lookup slot.1 slot.2 <;> simp
    · have hne : (r, m) ≠ slot := fun heq => hslot ⟨by rw [← heq], by rw [← heq]⟩
      rw [if_neg hslot]
      simp only [List.mem_cons, hne, false_or]

theorem defaults_ofLookup : (ofLookup lookup).value.defaults =
    (slots.foldlM (fun d (role, mode) => readSlot lookup d role mode)
      Defaults.builtin).value.validated.value := by
  have hdefaults (path : Option String) (x : Noted Defaults) :
      (do return ⟨path, ← x⟩ : Noted Settings).value.defaults = x.value := rfl
  rw [ofLookup, Noted.value_bind, hdefaults]

/-- The default of a slot is the color of its variable, if there is one and it suits. -/
theorem get_ofLookup (role : Role) (mode : Mode) :
    (ofLookup lookup).value.defaults.get role mode =
      ((given? lookup role mode).filter fun color => isSuitable role color mode).getD
        (Defaults.builtin.get role mode) := by
  have hread : (slots.foldlM (fun d (role, mode) => readSlot lookup d role mode)
      Defaults.builtin).value.get role mode =
        (given? lookup role mode).getD (Defaults.builtin.get role mode) := by
    rw [Noted.value_foldlM, get_foldl_readSlot, if_pos (mem_slots role mode)]
  have hsuits := Defaults.builtin_suits role mode
  rw [defaults_ofLookup, Defaults.get_validated, Defaults.checked, hread]
  cases given? lookup role mode with
  | none => rw [Option.getD_none, if_pos hsuits, Option.filter_none, Option.getD_none]
  | some color =>
    rw [Option.getD_some, Option.filter_some]
    split <;> rfl

/-! ### Agreement with the screening -/

/-- The color that the screening lets through for a slot, and the built-in one if it rejects. -/
def screened (role : Role) (supplied : Option String) (mode : Mode) : Color :=
  match screen role supplied mode with
  | .ok color => color
  | .error _ => Defaults.builtin.get role mode

theorem get_ofLookup_eq_screened (role : Role) (mode : Mode) :
    (ofLookup lookup).value.defaults.get role mode =
      screened role (lookup (colorVariable role mode)) mode := by
  rw [get_ofLookup, given?, ← toOption_screen, screened]
  cases screen role (lookup (colorVariable role mode)) mode with
  | ok color => rfl
  | error rejection => rfl

/-- **The defaults of an environment agree with the screening.**  In every slot stands what the
screening accepts of the slot's own variable, and the built-in color if it rejects it; no two slots
have the same variable, another environment that says the same of the variable gives the same color,
and every color suits its slot.  Checking any defaults keeps what suits and puts the built-in color
in place of the rest, which a second check leaves as it is without a report; primary and warning
colors are never touched. -/
theorem defaults_screened (lookup : String → Option String) :
    (∀ role mode,
      let default := (ofLookup lookup).value.defaults.get role mode
      default = screened role (lookup (colorVariable role mode)) mode ∧
        isSuitable role default mode = true ∧
        ∀ other : String → Option String,
          other (colorVariable role mode) = lookup (colorVariable role mode) →
            (ofLookup other).value.defaults.get role mode = default) ∧
    (Function.Injective fun slot : Role × Mode => colorVariable slot.1 slot.2) ∧
    ∀ d : Defaults,
      (∀ role mode, d.validated.value.get role mode =
        if isSuitable role (d.get role mode) mode then d.get role mode
        else Defaults.builtin.get role mode) ∧
      d.validated.value.validated = pure d.validated.value ∧
      ∀ mode, d.validated.value.get .primary mode = d.get .primary mode ∧
        d.validated.value.get .warn mode = d.get .warn mode := by
  refine ⟨?_, colorVariable_injective, ?_⟩
  · intro role mode default
    refine ⟨get_ofLookup_eq_screened lookup role mode, ofLookup_suits lookup role mode, ?_⟩
    intro other hother
    rw [get_ofLookup_eq_screened, hother, ← get_ofLookup_eq_screened]
  · intro d
    refine ⟨d.get_validated, Defaults.validated_of_suits d.validated_suits, ?_⟩
    intro mode
    constructor
    · rw [d.get_validated, Defaults.checked, isSuitable_of_no_tone rfl, if_pos rfl]
    · rw [d.get_validated, Defaults.checked, isSuitable_of_no_tone rfl, if_pos rfl]

/-- An environment with a background of the wrong tone, a text color among blanks, a blank variable
and one that is no color. -/
def mixed (name : String) : Option String :=
  [("TINT_DARK_BACKGROUND", "#ffffff"), ("TINT_DARK_TEXT", " rgb(255, 255, 0) "),
    ("TINT_LIGHT_TEXT", "\t"), ("TINT_LIGHT_PRIMARY", "nope")].lookup name

/-- Only the text color is taken from it, and the other variables do not matter to that one. -/
theorem defaults_screened_mixed :
    let defaults := (ofLookup mixed).value.defaults
    let alone := (ofLookup fun name =>
      if name = "TINT_DARK_TEXT" then some " rgb(255, 255, 0) " else none).value.defaults
    defaults.get .background .dark = .rgb 0x11 0x18 0x27 ∧
      defaults.get .text .dark = .rgb 0xff 0xff 0 ∧ defaults.get .text .light = .black ∧
      defaults.get .primary .light = .rgb 0x54 0x69 0xd4 ∧
      alone.get .text .dark = defaults.get .text .dark := by
  intro defaults alone
  have hscreened := (defaults_screened mixed).1
  refine ⟨(hscreened .background .dark).1.trans ?_, (hscreened .text .dark).1.trans ?_,
    (hscreened .text .light).1.trans ?_, (hscreened .primary .light).1.trans ?_,
    (hscreened .text .dark).2.2 _ ?_⟩
  all_goals decide +kernel

end Settings

end ColorTheme
