import ColorTheme.Theme

/-!
# Slots

A value for every role in every mode.  Colors that are used by default, colors that are supplied and
palettes that were written all come in this shape.
-/

namespace ColorTheme

/-- A value for every role. -/
structure Roles (α : Type) where
  primary : α
  warn : α
  background : α
  text : α
  deriving DecidableEq

namespace Roles

variable {α : Type}

def get (s : Roles α) : Role → α
  | .primary => s.primary
  | .warn => s.warn
  | .background => s.background
  | .text => s.text

def set (s : Roles α) (role : Role) (a : α) : Roles α :=
  match role with
  | .primary => { s with primary := a }
  | .warn => { s with warn := a }
  | .background => { s with background := a }
  | .text => { s with text := a }

theorem get_set (s : Roles α) (r r' : Role) (a : α) :
    (s.set r a).get r' = if r' = r then a else s.get r' := by
  cases r <;> cases r' <;> rfl

theorem ext_get {s t : Roles α} (h : ∀ r, s.get r = t.get r) : s = t := by
  obtain ⟨a, b, c, d⟩ := s
  obtain ⟨a', b', c', d'⟩ := t
  obtain rfl : a = a' := h .primary
  obtain rfl : b = b' := h .warn
  obtain rfl : c = c' := h .background
  obtain rfl : d = d' := h .text
  rfl

end Roles

/-- A value for both modes. -/
structure Modes (α : Type) where
  dark : α
  light : α
  deriving DecidableEq

namespace Modes

variable {α : Type}

def get (s : Modes α) : Mode → α
  | .dark => s.dark
  | .light => s.light

def set (s : Modes α) (mode : Mode) (a : α) : Modes α :=
  match mode with
  | .dark => { s with dark := a }
  | .light => { s with light := a }

theorem get_set (s : Modes α) (m m' : Mode) (a : α) :
    (s.set m a).get m' = if m' = m then a else s.get m' := by
  cases m <;> cases m' <;> rfl

theorem ext_get {s t : Modes α} (h : ∀ m, s.get m = t.get m) : s = t := by
  obtain ⟨a, b⟩ := s
  obtain ⟨a', b'⟩ := t
  obtain rfl : a = a' := h .dark
  obtain rfl : b = b' := h .light
  rfl

end Modes

/-- A value for every role in every mode. -/
structure Slots (α : Type) where
  modes : Modes (Roles α)
  deriving DecidableEq

namespace Slots

variable {α : Type}

def mode (s : Slots α) (mode : Mode) : Roles α := s.modes.get mode

def get (s : Slots α) (role : Role) (mode : Mode) : α := (s.mode mode).get role

def set (s : Slots α) (role : Role) (mode : Mode) (a : α) : Slots α :=
  ⟨s.modes.set mode ((s.mode mode).set role a)⟩

/-- The slots with the values of a function. -/
def ofFn (f : Role → Mode → α) : Slots α :=
  let roles (mode : Mode) : Roles α :=
    ⟨f .primary mode, f .warn mode, f .background mode, f .text mode⟩
  ⟨⟨roles .dark, roles .light⟩⟩

def fill (a : α) : Slots α := ofFn fun _ _ => a

def map {β : Type} (f : α → β) (s : Slots α) : Slots β := ofFn fun role mode => f (s.get role mode)

@[simp]
theorem get_ofFn (f : Role → Mode → α) (r : Role) (m : Mode) : (ofFn f).get r m = f r m := by
  cases r <;> cases m <;> rfl

@[simp]
theorem get_fill (a : α) (r : Role) (m : Mode) : (fill a).get r m = a := get_ofFn _ r m

theorem get_set (s : Slots α) (r r' : Role) (m m' : Mode) (a : α) :
    (s.set r m a).get r' m' = if r' = r ∧ m' = m then a else s.get r' m' := by
  simp only [get, mode, set, Modes.get_set]
  by_cases hm : m' = m
  · simp only [hm, if_true, Roles.get_set, and_true]
  · simp [hm]

theorem ext_get {s t : Slots α} (h : ∀ r m, s.get r m = t.get r m) : s = t := by
  obtain ⟨s⟩ := s
  obtain ⟨t⟩ := t
  exact congrArg _ (Modes.ext_get fun m => Roles.ext_get fun r => h r m)

end Slots

end ColorTheme
