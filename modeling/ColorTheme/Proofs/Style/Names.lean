import ColorTheme.Proofs.Text.Split
import ColorTheme.Style.Name
import Mathlib.Data.List.Nodup

/-!
# The properties of a theme

Every property that a theme can be written to, as data, and the proof that no two of them have the
same name: a name is its parts between dashes, none of the parts has a dash in it, and the parts
tell which property it is.
-/

namespace ColorTheme

/-! ### Words -/

theorem Mode.name_injective : Function.Injective Mode.name := by
  intro m m' h
  cases m <;> cases m' <;> first | rfl | exact absurd h (by decide)

theorem Role.name_injective : Function.Injective Role.name := by
  intro r r' h
  cases r <;> cases r' <;> first | rfl | exact absurd h (by decide)

theorem Shade.find_label (s : Shade) : all.toList.find? (·.label = s.label) = some s := by
  cases s <;> decide

theorem Shade.label_injective : Function.Injective Shade.label := by
  intro s s' h
  have hfind := Shade.find_label s
  rw [h, Shade.find_label s'] at hfind
  exact (Option.some.inj hfind).symm

namespace Style

/-! ### Properties -/

/-- A property of a theme. -/
inductive Property where
  | shade (mode : Mode) (role : Role) (shade : Shade)
  | overlay (mode : Mode) (role : Role) (shade : Shade)
  | text (mode : Mode)
  | secondaryText (mode : Mode)
  deriving DecidableEq, Repr

namespace Property

def name : Property → String
  | .shade m r s => shadeName m r s
  | .overlay m r s => overlayName m r s
  | .text m => textName m
  | .secondaryText m => secondaryTextName m

def parts : Property → List (List Char)
  | .shade m r s => [m.name.toList, r.name.toList, s.label.toList]
  | .overlay m r s => [m.name.toList, r.name.toList, "contrast".toList, s.label.toList]
  | .text m => [m.name.toList, "text".toList]
  | .secondaryText m => [m.name.toList, "secondary".toList, "text".toList]

/-- The test for the separator of the parts. -/
def isDash (c : Char) : Bool := c = '-'

theorem mode_dashless (m : Mode) : m.name.toList.any isDash = false := by cases m <;> decide

theorem role_dashless (r : Role) : r.name.toList.any isDash = false := by cases r <;> decide

theorem label_dashless (s : Shade) : s.label.toList.any isDash = false := by cases s <;> decide

theorem split_name (q : Property) :
    Text.split isDash q.name.toList = [] :: [] :: "theme".toList :: q.parts := by
  have hdash : isDash '-' = true := rfl
  have htheme : "theme".toList.any isDash = false := by decide
  have hstart (m : Mode) (rest : List Char) :
      Text.split isDash ((modeStart m).toList ++ rest) =
        [] :: [] :: "theme".toList :: m.name.toList :: Text.split isDash rest := by
    have hchars : (modeStart m).toList ++ rest =
        [] ++ '-' :: ([] ++ '-' :: ("theme".toList ++ '-' :: (m.name.toList ++ '-' :: rest))) := by
      simp [modeStart]
    rw [hchars, Text.split_append_cons rfl hdash, Text.split_append_cons rfl hdash,
      Text.split_append_cons htheme hdash, Text.split_append_cons (mode_dashless m) hdash]
  cases q with
  | shade m r s =>
    have hchars : (shadeName m r s).toList =
        (modeStart m).toList ++ (r.name.toList ++ '-' :: s.label.toList) := by simp [shadeName]
    rw [name, hchars, hstart, Text.split_append_cons (role_dashless r) hdash,
      Text.split_eq_self (label_dashless s)]
    rfl
  | overlay m r s =>
    have hchars : (overlayName m r s).toList = (modeStart m).toList ++
        (r.name.toList ++ '-' :: ("contrast".toList ++ '-' :: s.label.toList)) := by
      simp [overlayName]
    rw [name, hchars, hstart, Text.split_append_cons (role_dashless r) hdash,
      Text.split_append_cons (by decide) hdash, Text.split_eq_self (label_dashless s)]
    rfl
  | text m =>
    have hchars : (textName m).toList = (modeStart m).toList ++ "text".toList := by
      simp [textName]
    rw [name, hchars, hstart, Text.split_eq_self (by decide)]
    rfl
  | secondaryText m =>
    have hchars : (secondaryTextName m).toList =
        (modeStart m).toList ++ ("secondary".toList ++ '-' :: "text".toList) := by
      simp [secondaryTextName]
    rw [name, hchars, hstart, Text.split_append_cons (by decide) hdash,
      Text.split_eq_self (by decide)]
    rfl

/-- **No two properties have the same name.** -/
theorem name_injective : Function.Injective name := by
  intro q q' h
  have hparts : q.parts = q'.parts := by
    have hsplit := split_name q
    rw [h, split_name q'] at hsplit
    simpa using hsplit.symm
  -- No role has the name that stands first in the other form with three parts.
  have hrole (r : Role) : r.name.toList ≠ "secondary".toList := by cases r <;> decide
  cases q <;> cases q' <;>
    simp only [parts, List.cons.injEq, String.toList_inj, Mode.name_injective.eq_iff,
      Role.name_injective.eq_iff, Shade.label_injective.eq_iff, reduceCtorEq, and_true, and_false]
      at hparts
  case shade.shade => simp [hparts]
  case shade.secondaryText => exact absurd (String.toList_inj.2 hparts.2.1) (hrole _)
  case overlay.overlay => simp [hparts]
  case text.text => simp [hparts]
  case secondaryText.shade => exact absurd (String.toList_inj.2 hparts.2.1.symm) (hrole _)
  case secondaryText.secondaryText => simp [hparts]

end Property

end Style

end ColorTheme
