import ColorTheme.Proofs.Color.Hexadecimal
import ColorTheme.Proofs.Context.Policies
import ColorTheme.Proofs.Style.Rules

/-!
# What reaches a style sheet

The texts that a context is given are read as colors and never written as they are.  Every name that
it writes is one of the scheme and every value is one of a few forms without a mark that could end a
line, so the rule of a sheet has one line for each property and is read back as the properties.
-/

namespace ColorTheme

open Style (Property Properties)

/-! ### Names -/

namespace Style

namespace Property

/-- The property is one that a theme writes: text has no palette. -/
def isWritten : Property → Bool
  | .shade _ role _ | .overlay _ role _ => role.hasPalette
  | .text _ | .secondaryText _ => true

def written : List Property := all.filter isWritten

theorem mem_written {q : Property} : q ∈ written ↔ q.isWritten = true := by
  rw [written, List.mem_filter, and_iff_right (mem_all q)]

/-- Letters, digits and dashes. -/
def isNameCharacter (c : Char) : Bool := c.isAlphanum || c = '-'

theorem all_isNameCharacter (q : Property) : q.name.toList.all isNameCharacter = true := by
  have hstart (m : Mode) : (modeStart m).toList.all isNameCharacter = true := by
    cases m <;> decide
  have hrole (r : Role) : r.name.toList.all isNameCharacter = true := by cases r <;> decide
  have hlabel (s : Shade) : s.label.toList.all isNameCharacter = true := by cases s <;> decide
  have hdash : "-".toList.all isNameCharacter = true := by decide
  have hcontrast : "-contrast-".toList.all isNameCharacter = true := by decide
  have htext : "text".toList.all isNameCharacter = true := by decide
  have hsecondary : "secondary-text".toList.all isNameCharacter = true := by decide
  cases q with
  | shade m r s =>
    simp only [name, shadeName, String.toList_append, List.all_append, hstart, hrole, hdash, hlabel,
      Bool.and_self]
  | overlay m r s =>
    simp only [name, overlayName, String.toList_append, List.all_append, hstart, hrole, hcontrast,
      hlabel, Bool.and_self]
  | text m => simp only [name, textName, String.toList_append, List.all_append, hstart, htext,
      Bool.and_self]
  | secondaryText m =>
    simp only [name, secondaryTextName, String.toList_append, List.all_append, hstart, hsecondary,
      Bool.and_self]

end Property

def names : List String := Property.written.map Property.name

theorem length_names : names.length = 172 := by
  rw [names, List.length_map]
  decide +kernel

theorem nodup_names : names.Nodup :=
  (Property.nodup_all.filter Property.isWritten).map Property.name_injective

/-! ### Values -/

/-- The value is `#` with six or eight lowercase hexadecimal digits, or black at 87%. -/
def isColorValue (value : String) : Bool :=
  value = "hsla(0,0%,0%,0.87)" ||
    match value.toList with
    | '#' :: digits =>
      (digits.length = 6 || digits.length = 8) && digits.all ("0123456789abcdef".toList.contains ·)
    | _ => false

theorem isColorValue_of_digits {digits : List Char}
    (hlength : digits.length = 6 ∨ digits.length = 8) (hdigits : ∀ d ∈ digits, IsHexDigit d) :
    isColorValue (String.ofList ('#' :: digits)) = true := by
  have hall : digits.all ("0123456789abcdef".toList.contains ·) = true := by
    rw [List.all_eq_true]
    intro d hd
    obtain ⟨n, hn, rfl⟩ := hdigits d hd
    interval_cases n <;> decide
  rw [isColorValue, String.toList_ofList]
  simp only [hlength, hall, Bool.or_eq_true, Bool.and_eq_true, decide_eq_true_eq, or_true, and_self]

theorem isColorValue_hex (color : Color) : isColorValue color.hex = true :=
  isColorValue_of_digits (.inl rfl) fun _ => Color.isHexDigit_of_mem_hexDigits

theorem isColorValue_hex8 (color : Color) : isColorValue color.hex8 = true := by
  refine isColorValue_of_digits (.inr rfl) ?_
  intro d hd
  rcases List.mem_append.1 hd with hd | hd
  · exact Color.isHexDigit_of_mem_hexDigits hd
  · exact isHexDigit_of_mem_hexByte hd

theorem isColorValue_text (color : Color) : isColorValue color.text = true := by
  unfold Color.text
  split
  · exact isColorValue_hex color
  · exact isColorValue_hex8 color

theorem isColorValue_overlay (overlay : Overlay) : isColorValue overlay.css = true := by
  cases overlay <;> decide

theorem break_not_mem_of_isColorValue {value : String} (h : isColorValue value = true) :
    '\n' ∉ value.toList := by
  rw [isColorValue, Bool.or_eq_true, decide_eq_true_eq] at h
  rcases h with rfl | h
  · decide
  · split at h
    · next digits hvalue =>
      rw [Bool.and_eq_true, List.all_eq_true] at h
      rw [hvalue, List.mem_cons, not_or]
      exact ⟨by decide, fun hbreak => absurd (h.2 _ hbreak) (by decide)⟩
    · cases h

theorem legible_of_isColorValue (q : Property) {value : String}
    (h : isColorValue value = true) : Legible (q.name, value) := by
  have hname := List.all_eq_true.1 q.all_isNameCharacter
  exact ⟨fun hcolon => absurd (hname _ hcolon) (by decide),
    fun hbreak => absurd (hname _ hbreak) (by decide), break_not_mem_of_isColorValue h⟩

end Style

/-! ### Writes -/

theorem Write.isColorValue_of_value? {w : Write} {q : Property} {value : String}
    (h : w.value? q = some value) : Style.isColorValue value = true := by
  cases q <;> simp only [value?, Option.ite_none_right_eq_some, Option.some.injEq] at h <;>
    obtain ⟨-, rfl⟩ := h
  case shade => exact Style.isColorValue_hex _
  case overlay => exact Style.isColorValue_overlay _
  case text => exact Style.isColorValue_text _
  case secondaryText => exact Style.isColorValue_hex8 _

namespace Sheet

/-- Every property has a color. -/
def Colored (s : Sheet) : Prop :=
  ∀ (q : Property) (value : String), s.properties.get? q.name = some value →
    Style.isColorValue value = true

theorem Colored.put {s : Sheet} (h : s.Colored) (w : Write) : (s.put w).Colored := by
  intro q value hvalue
  rw [get?_put, Option.or_eq_some_iff] at hvalue
  rcases hvalue with hwritten | ⟨-, hbefore⟩
  · exact Write.isColorValue_of_value? hwritten
  · exact h q value hbefore

theorem Colored.putAll {s : Sheet} (h : s.Colored) (writes : List Write) :
    (s.putAll writes).Colored := by
  induction writes generalizing s with
  | nil => exact h
  | cons w rest ih => exact ih (h.put w)

theorem Coherent.exists_written {s : Sheet} (h : s.Coherent) {name value : String}
    (hname : s.properties.get? name = some value) :
    ∃ q : Property, q.isWritten = true ∧ name = q.name := by
  rcases h.recorded_of_property hname with
    ⟨role, mode, shade, hpalette, -, rfl | rfl⟩ | ⟨mode, -, rfl | rfl⟩
  · exact ⟨.shade mode role shade, hpalette, rfl⟩
  · exact ⟨.overlay mode role shade, hpalette, rfl⟩
  · exact ⟨.text mode, rfl, rfl⟩
  · exact ⟨.secondaryText mode, rfl, rfl⟩

theorem Coherent.legible {s : Sheet} (h : s.Coherent) (hcolored : s.Colored)
    {e : String × String} (he : e ∈ s.properties.toList) : Style.Legible e := by
  have hname : s.properties.get? e.1 = some e.2 := SortedMap.get?_eq_some_iff.2 he
  obtain ⟨q, -, hq⟩ := h.exists_written hname
  rw [hq] at hname
  have hline := Style.legible_of_isColorValue q (hcolored q e.2 hname)
  rwa [← hq] at hline

end Sheet

/-! ### Sealed sheets -/

/-- Properties that hold nothing but colors under the names of the scheme, and show nothing else. -/
structure Style.Sealed (p : Properties) : Prop where
  named : ∀ name value, p.get? name = some value → name ∈ Style.names
  colored : ∀ name value, p.get? name = some value → Style.isColorValue value = true
  /-- They are listed with their names. -/
  listed : ∀ name value, (name, value) ∈ p.toList ↔ p.get? name = some value
  /-- The bytes of the names increase. -/
  ordered : p.toList.Pairwise fun e e' => Text.bytes e.1 < Text.bytes e'.1
  /-- A rule is the selector and a line for each property between braces. -/
  rule : ∀ selector, p.css selector = selector ++ " \x7b\n" ++
    String.join (p.toList.map fun e => "  " ++ e.1 ++ ": " ++ e.2 ++ ";\n") ++ "\x7d\n"
  /-- There are no other lines. -/
  lines : ∀ selector, Style.bodyLines? selector (p.css selector) =
    some (p.toList.map fun e => ("  " ++ e.1 ++ ": " ++ e.2 ++ ";").toList)
  read : ∀ selector, Style.readRule? selector (p.css selector) = some p.toList

namespace Context

theorem Reached.colored {c : Context} (h : c.Reached) : c.sheet.Colored := by
  induction h with
  | new store defaults =>
    intro q value hvalue
    cases hvalue
  | after call _ ih =>
    rw [(theme_after _ call).1]
    exact ih.putAll _
  | withDefaults defaults _ ih => exact ih

/-- **Nothing that is supplied leaks into a style sheet.**  Whatever is done to a context that
started with nothing written, its properties are colors under the 172 names of the scheme, and a
rule with any selector is read back as exactly these. -/
theorem sealed_of_reached {c : Context} (h : c.Reached) :
    Style.names.length = 172 ∧ Style.names.Nodup ∧ Style.Sealed c.sheet.properties := by
  have hlegible : ∀ e ∈ c.sheet.properties.toList, Style.Legible e :=
    fun _ => h.coherent.legible h.colored
  refine ⟨Style.length_names, Style.nodup_names, ?_⟩
  refine { named := ?_, colored := ?_, listed := ?_, ordered := ?_, rule := fun _ => rfl,
           lines := ?_, read := Style.readRule?_css hlegible }
  · intro name value hname
    obtain ⟨q, hwritten, rfl⟩ := h.coherent.exists_written hname
    exact List.mem_map.2 ⟨q, Property.mem_written.2 hwritten, rfl⟩
  · intro name value hname
    obtain ⟨q, -, rfl⟩ := h.coherent.exists_written hname
    exact h.colored q value hname
  · intro name value
    exact SortedMap.get?_eq_some_iff.symm
  · exact c.sheet.properties.sorted.imp Text.bytes_lt_bytes_of_lt
  · intro selector
    rw [Style.bodyLines?_css hlegible]
    simp [Style.lineChars]

/-- A text color that ends the rule and begins another one, a palette for the same, and a text color
that is fine. -/
def hostile : List Call :=
  [Operation.applyText (some "#ffffff;\x7d body \x7b display: none") .light,
    .applyPrimary "red; --theme-dark-text: url(evil)" .dark,
    .applyText (some " #FFFFFF ") .dark].map fun operation => ⟨operation, .ofFiles .empty⟩

/-- The default stands in place of the first text color, and there is no palette. -/
theorem sealed_of_reached_hostile :
    let p := (blank.afterAll hostile).sheet.properties
    Style.isColorValue "#ffffff;\x7d body \x7b display: none" = false ∧ Style.Sealed p ∧
      Style.readRule? "body" (p.css "body") =
        some [("--theme-dark-secondary-text", "#ffffffc7"), ("--theme-dark-text", "#ffffff"),
          ("--theme-light-secondary-text", "#000000c7"), ("--theme-light-text", "#000000")] := by
  intro p
  have hreached : (blank.afterAll hostile).Reached := (Reached.new _ _).afterAll hostile
  have hsealed : Style.Sealed p := (sealed_of_reached hreached).2.2
  have hlist : p.toList =
      [("--theme-dark-secondary-text", "#ffffffc7"), ("--theme-dark-text", "#ffffff"),
        ("--theme-light-secondary-text", "#000000c7"), ("--theme-light-text", "#000000")] := by
    decide +kernel
  exact ⟨by decide, hsealed, (hsealed.read "body").trans (congrArg some hlist)⟩

end Context

end ColorTheme
