import ColorTheme.Context.Sheet
import ColorTheme.Proofs.Style.Names

/-!
# Writes

Every way to change a sheet comes down to writing colors for roles in modes.  A write is taken apart
into the assignments of a value to a property, and what it leaves behind is told for each property,
palette and text color.
-/

namespace ColorTheme

open Style (Properties Property)

/-! ### Assignments -/

/-- Values given to properties one after the other. -/
def assign (p : Properties) (assignments : List (Property × String)) : Properties :=
  assignments.foldl (fun p a => p.insert a.1.name a.2) p

section assign
variable {assignments : List (Property × String)}

/-- A property that is assigned more than once gets the same value each time, so that its last
assignment decides without being named. -/
theorem get?_assign {value? : Property → Option String}
    (hvalue : ∀ q v, (q, v) ∈ assignments → value? q = some v) (p : Properties) (q : Property) :
    (assign p assignments).get? q.name =
      if q ∈ assignments.map (·.1) then value? q else p.get? q.name := by
  induction assignments generalizing p with
  | nil => simp [assign]
  | cons a rest ih =>
    have hrest : ∀ q v, (q, v) ∈ rest → value? q = some v :=
      fun q v hmem => hvalue q v (List.mem_cons_of_mem _ hmem)
    have ih := ih hrest (p.insert a.1.name a.2)
    rw [assign, List.foldl_cons, ← assign, ih]
    by_cases hq : q ∈ rest.map (·.1)
    · simp [hq]
    · rw [if_neg hq, SortedMap.get?_insert]
      simp only [Property.name_injective.eq_iff, List.map_cons, List.mem_cons, hq, or_false]
      by_cases ha : q = a.1
      · have hhead : value? q = some a.2 := hvalue q a.2 (by rw [ha]; exact List.mem_cons_self)
        rw [if_pos ha, if_pos ha, hhead]
      · rw [if_neg ha, if_neg ha]

theorem get?_assign_of_unnamed {k : String} (hk : ∀ q : Property, q.name ≠ k) (p : Properties) :
    (assign p assignments).get? k = p.get? k := by
  induction assignments generalizing p with
  | nil => rfl
  | cons a rest ih =>
    have hinsert : (p.insert a.1.name a.2).get? k = p.get? k := by
      rw [SortedMap.get?_insert, if_neg (Ne.symm (hk a.1))]
    rw [assign, List.foldl_cons, ← assign, ih, hinsert]

end assign

/-! ### One write -/

theorem Role.eq_text_iff {role : Role} : role = .text ↔ role.hasPalette = false := by
  cases role <;> decide

/-- A color for a role in a mode. -/
structure Write where
  role : Role
  mode : Mode
  color : Color

namespace Write

/-- What a write sets, in order. -/
def assignments (w : Write) : List (Property × String) :=
  if w.role.hasPalette then
    Shade.all.toList.flatMap fun s =>
      [(.shade w.mode w.role s, (PaletteEntry.derive w.color s).hex),
        (.overlay w.mode w.role s, (PaletteEntry.derive w.color s).overlay.css)]
  else [(.text w.mode, w.color.text), (.secondaryText w.mode, Sheet.secondaryText w.color)]

/-- The value that a property has after a write, if it is one of those that are set. -/
def value? (w : Write) : Property → Option String
  | .shade m r s =>
    if w.role.hasPalette ∧ r = w.role ∧ m = w.mode then some (PaletteEntry.derive w.color s).hex
    else none
  | .overlay m r s =>
    if w.role.hasPalette ∧ r = w.role ∧ m = w.mode then
      some (PaletteEntry.derive w.color s).overlay.css
    else none
  | .text m => if w.role = .text ∧ m = w.mode then some w.color.text else none
  | .secondaryText m =>
    if w.role = .text ∧ m = w.mode then some (Sheet.secondaryText w.color) else none

theorem mem_assignments (w : Write) (q : Property) (v : String) :
    (q, v) ∈ w.assignments ↔ w.value? q = some v := by
  have hall (s : Shade) : s ∈ Shade.all := Vector.mem_toList_iff.1 (Shade.mem_all s)
  unfold assignments
  cases q <;> by_cases hrole : w.role.hasPalette = true <;>
    simp only [value?, Role.eq_text_iff, hrole] <;> simp [hall] <;> grind

end Write

namespace Sheet

def put (s : Sheet) (w : Write) : Sheet := (s.write w.role w.mode w.color).value

def putAll (s : Sheet) (writes : List Write) : Sheet := writes.foldl put s

@[simp]
theorem putAll_nil (s : Sheet) : s.putAll [] = s := rfl

@[simp]
theorem putAll_cons (s : Sheet) (w : Write) (writes : List Write) :
    s.putAll (w :: writes) = (s.put w).putAll writes := rfl

theorem putAll_append (s : Sheet) (writes later : List Write) :
    s.putAll (writes ++ later) = (s.putAll writes).putAll later := List.foldl_append

theorem properties_put (s : Sheet) (w : Write) :
    (s.put w).properties = assign s.properties w.assignments := by
  have hshade (color : Color) (s : Shade) : (PaletteEntry.derive color s).shade = s := by
    simp only [PaletteEntry.derive]
  unfold put write Write.assignments assign
  split
  · simp only [writePalette, setPalette, Palette.toList, Palette.generate, Vector.toList_map,
      List.foldl_map, List.foldl_flatMap, List.foldl_cons, List.foldl_nil, setEntry, hshade,
      Property.name]
  · simp only [writeText, setText, List.foldl_cons, List.foldl_nil, Property.name]

theorem get?_put (s : Sheet) (w : Write) (q : Property) :
    (s.put w).properties.get? q.name = (w.value? q).or (s.properties.get? q.name) := by
  rw [properties_put, get?_assign fun q v => (w.mem_assignments q v).1]
  cases hvalue : w.value? q with
  | none =>
    -- An assignment to the property would have given it a value.
    have hq : q ∉ w.assignments.map (·.1) := by
      intro hmem
      obtain ⟨⟨q', v⟩, hmem', rfl⟩ := List.mem_map.1 hmem
      have hv : w.value? q' = some v := (w.mem_assignments q' v).1 hmem'
      rw [hvalue] at hv
      cases hv
    simp [hq]
  | some v =>
    have hq : q ∈ w.assignments.map (·.1) :=
      List.mem_map.2 ⟨(q, v), (w.mem_assignments q v).2 hvalue, rfl⟩
    simp [hq]

theorem get?_put_of_unnamed (s : Sheet) (w : Write) {k : String}
    (hk : ∀ q : Property, q.name ≠ k) : (s.put w).properties.get? k = s.properties.get? k := by
  rw [properties_put, get?_assign_of_unnamed hk]

theorem palette?_put (s : Sheet) (w : Write) (role : Role) (mode : Mode) :
    (s.put w).palette? role mode =
      if w.role.hasPalette ∧ role = w.role ∧ mode = w.mode then some (.generate w.color)
      else s.palette? role mode := by
  unfold put write palette?
  by_cases hrole : w.role.hasPalette = true
  · simp [hrole, writePalette, setPalette, Slots.get_set]
  · simp [hrole, writeText, setText]

theorem textColor?_put (s : Sheet) (w : Write) (mode : Mode) :
    (s.put w).textColor? mode =
      if w.role = .text ∧ mode = w.mode then some w.color else s.textColor? mode := by
  unfold put write textColor?
  by_cases hrole : w.role.hasPalette = true
  · simp [hrole, Role.eq_text_iff, writePalette, setPalette]
  · simp [hrole, Role.eq_text_iff, writeText, setText, Modes.get_set]

end Sheet

end ColorTheme
