import ColorTheme.Screening
import ColorTheme.Proofs.Color.Hexadecimal
import ColorTheme.Proofs.Text.Blank

/-!
# Screening colors

What the screening lets through suits its slot.  It reads a color as it is read everywhere else, and
the three places that look for blanks agree: nothing that was supplied is taken for missing.
-/

namespace ColorTheme

/-! ### Suitable colors -/

theorem isSuitable_congr {a b : Color} (h : a.Alike b) (role : Role) (mode : Mode) :
    isSuitable role a mode = isSuitable role b mode := by
  have hdark := h.isDark_eq
  cases role <;> cases mode <;> simp only [isSuitable, Color.isLight, hdark]

theorem isSuitable_of_no_tone {role : Role} {mode : Mode} (h : requiredTone role mode = none)
    (color : Color) : isSuitable role color mode = true := by
  cases role <;> cases mode <;> simp [requiredTone, isSuitable] at h ⊢

theorem Color.isDark_eq_tone (color : Color) : color.isDark = decide (color.tone = .dark) := by
  rw [Color.tone]
  cases color.isDark <;> rfl

theorem Color.isLight_eq_tone (color : Color) : color.isLight = decide (color.tone = .light) := by
  rw [Color.isLight, Color.tone]
  cases color.isDark <;> rfl

/-- The two tables agree: a color suits a role that needs a tone exactly if it has it. -/
theorem isSuitable_iff_tone {role : Role} {mode : Mode} {required : Tone}
    (h : requiredTone role mode = some required) (color : Color) :
    isSuitable role color mode = true ↔ color.tone = required := by
  cases role <;> cases mode <;> cases h <;>
    simp only [isSuitable, Color.isDark_eq_tone, Color.isLight_eq_tone, decide_eq_true_eq]

/-- **The tone is found fault with exactly if the color does not suit**, and then it is not the one that
is required. -/
theorem screenTone_cases (role : Role) (color : Color) (mode : Mode) :
    (isSuitable role color mode = true ∧ screenTone role color mode = .ok color) ∨
      (isSuitable role color mode = false ∧ ∃ required, requiredTone role mode = some required ∧
        color.tone ≠ required ∧
        screenTone role color mode = .error (.wrongTone color.tone required)) := by
  unfold screenTone
  split
  · next hnone => exact .inl ⟨isSuitable_of_no_tone hnone color, rfl⟩
  · next required hrequired =>
    split
    · next hsuits => exact .inl ⟨hsuits, rfl⟩
    · next hsuits =>
      have htone := hsuits
      rw [isSuitable_iff_tone hrequired] at htone
      exact .inr ⟨Bool.eq_false_iff.2 hsuits, required, hrequired, htone, rfl⟩

theorem screenTone_eq_ok_iff {role : Role} {mode : Mode} {color result : Color} :
    screenTone role color mode = .ok result ↔
      color = result ∧ isSuitable role color mode = true := by
  rcases screenTone_cases role color mode with ⟨hsuits, hscreen⟩ | ⟨hsuits, required, -, -, hscreen⟩
  · rw [hscreen, Except.ok.injEq, hsuits, and_iff_left rfl]
  · rw [hscreen, hsuits]
    exact iff_of_false nofun fun h => nomatch h.2

/-- **A color that passes the screening suits its slot.** -/
theorem isSuitable_of_screen {role : Role} {supplied : Option String} {mode : Mode} {color : Color}
    (h : screen role supplied mode = .ok color) : isSuitable role color mode = true := by
  have htone {read : Color} (h : screenTone role read mode = .ok color) :
      isSuitable role color mode = true := by
    obtain ⟨rfl, hsuits⟩ := screenTone_eq_ok_iff.1 h
    exact hsuits
  unfold screen at h
  split at h
  · cases h
  · cases h
  · split at h
    · cases h
    · exact htone h

/-! ### Blanks -/

namespace Color

theorem parse_trimmed (s : String) : parse (trimmed s) = parse s := by
  rw [parse, toList_trimmed, Text.trim_trim, parse]

theorem parse_of_blank {s : String} (h : isBlankText s = true) : parse s = .error .empty := by
  rw [← parse_trimmed, trimmed_eq_empty_iff.2 h]
  rfl

/-- Only a blank text is empty. -/
theorem parse_ne_empty {s : String} (h : isBlankText s = false) : parse s ≠ .error .empty := by
  have htrim : (Text.trim s.toList).isEmpty = false := by
    rw [← Bool.not_eq_true, List.isEmpty_iff, trim_eq_nil_iff_isBlankText, h]
    exact Bool.false_ne_true
  rw [parse]
  simp only [htrim, Bool.false_eq_true, if_false]
  split <;> simp

end Color

section screen
variable {role : Role} {mode : Mode} {text : String}

theorem screen_none (role : Role) (mode : Mode) : screen role none mode = .error .missing := rfl

/-- A text that is not blank is read, and then its tone is checked. -/
theorem screen_some (h : isBlankText text = false) (role : Role) (mode : Mode) :
    screen role (some text) mode =
      match Color.parse text with
      | .error error => .error (.malformed error)
      | .ok color => screenTone role color mode := by
  have hne : trimmed text ≠ "" := by
    rw [Ne, trimmed_eq_empty_iff, h]
    exact Bool.false_ne_true
  rw [screen, Option.map_some]
  split
  · next hnone => cases hnone
  · next hempty => exact absurd (Option.some.inj hempty) hne
  · next read hread =>
    obtain rfl := Option.some.inj hread
    have htrimmed := Color.parse_trimmed text
    cases hparse : Color.parse text with
    | error e =>
      rw [hparse] at htrimmed
      simp only [htrimmed]
    | ok color =>
      rw [hparse] at htrimmed
      simp only [htrimmed]

/-- A text that is a color is judged by its tone alone. -/
theorem screen_of_parse {color : Color} (h : Color.parse text = .ok color) (role : Role)
    (mode : Mode) : screen role (some text) mode = screenTone role color mode := by
  have hblank : isBlankText text = false := by
    rw [Bool.eq_false_iff]
    intro hblank
    rw [Color.parse_of_blank hblank] at h
    cases h
  rw [screen_some hblank, h]

theorem parse_of_screen (h : isBlankText text = false) {color : Color}
    (hscreen : screen role (some text) mode = .ok color) : Color.parse text = .ok color := by
  rw [screen_some h] at hscreen
  split at hscreen
  · cases hscreen
  · next read hread =>
    rw [hread, (screenTone_eq_ok_iff.1 hscreen).1]

/-- A role that needs no tone takes every color that can be read. -/
theorem screen_of_no_tone (h : isBlankText text = false) (hrole : requiredTone role mode = none) :
    screen role (some text) mode = (Color.parse text).mapError .malformed := by
  rw [screen_some h]
  cases Color.parse text with
  | error e => rfl
  | ok color => simp only [screenTone, hrole, Except.mapError]

/-- **What is rejected without being blank** is worth reporting: it is not missing, and not empty
either. -/
theorem rejection_of_screen (h : isBlankText text = false) {rejection : Rejection}
    (hscreen : screen role (some text) mode = .error rejection) :
    rejection ≠ .missing ∧ rejection ≠ .malformed .empty := by
  rw [screen_some h] at hscreen
  split at hscreen
  · next error herror =>
    cases hscreen
    refine ⟨Rejection.noConfusion, fun hempty => ?_⟩
    obtain rfl := Rejection.malformed.inj hempty
    exact Color.parse_ne_empty h herror
  · next read _ =>
    rcases screenTone_cases role read mode with ⟨-, hok⟩ | ⟨-, required, -, -, herror⟩
    · rw [hok] at hscreen
      cases hscreen
    · rw [herror] at hscreen
      cases hscreen
      exact ⟨Rejection.noConfusion, Rejection.noConfusion⟩

/-- **The screening accepts a text exactly if it is a suitable color.** -/
theorem toOption_screen (role : Role) (supplied : Option String) (mode : Mode) :
    (screen role supplied mode).toOption =
      (supplied.bind fun text => (Color.parse text).toOption).filter
        fun color => isSuitable role color mode := by
  cases supplied with
  | none => rfl
  | some text =>
    rw [Option.bind_some]
    cases hblank : isBlankText text with
    | true =>
      have htrimmed : trimmed text = "" := trimmed_eq_empty_iff.2 hblank
      rw [Color.parse_of_blank hblank, screen, Option.map_some, htrimmed]
      rfl
    | false =>
      rw [screen_some hblank]
      cases Color.parse text with
      | error error => rfl
      | ok color =>
        dsimp only
        rcases screenTone_cases role color mode with
          ⟨hsuits, hscreen⟩ | ⟨hsuits, required, -, -, hscreen⟩
        · simp [hscreen, Except.toOption, Option.filter_some, hsuits]
        · simp [hscreen, Except.toOption, Option.filter_some, hsuits]

theorem Rejection.isDiagnostic_iff {rejection : Rejection} :
    rejection.isDiagnostic = true ↔ rejection ≠ .missing := by
  cases rejection <;> simp [isDiagnostic]

end screen

end ColorTheme
