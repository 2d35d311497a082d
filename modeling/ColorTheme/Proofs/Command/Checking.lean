import ColorTheme.Command.Run
import ColorTheme.Proofs.Context.Stylesheet
import ColorTheme.Proofs.Json.Values

/-!
# What is said of a color

A report on a color and the end of the run that prints it agree: the run fails exactly if the report
says no for the role and the mode that were asked for.  The report judges the color that was read, and
the run reads the text once more; both come to the same, since the two tables of tones agree.
-/

namespace ColorTheme.Command

/-! ### Lines of a report -/

namespace Report

/-- The report says of a slot whether the color suits it. -/
def Says (r : Report) (role : Role) (mode : Mode) (verdict : Bool) : Prop :=
  ((role, mode), verdict) ∈ r.suitability

/-- There is a verdict for backgrounds and for text, and it is whether the color suits. -/
theorem says_ofColor_iff {color : Color} {role : Role} {mode : Mode} {verdict : Bool} :
    (ofColor color).Says role mode verdict ↔
      (role = .background ∨ role = .text) ∧ verdict = isSuitable role color mode := by
  have hslot : (role, mode) ∈ reportSlots ↔ role = .background ∨ role = .text := by
    cases role <;> cases mode <;> decide
  rw [Says, ofColor, List.mem_map, ← hslot]
  constructor
  · rintro ⟨slot, hmem, hentry⟩
    obtain ⟨rfl, rfl⟩ := Prod.mk.inj hentry
    exact ⟨hmem, rfl⟩
  · rintro ⟨hmem, rfl⟩
    exact ⟨_, hmem, rfl⟩

def summaryLines (r : Report) : List String :=
  ["color       " ++ r.color,
    "brightness  " ++ places 1 r.brightness,
    "luminance   " ++ places 4 r.luminance,
    "tone        " ++ r.tone.name,
    "contrast    " ++ places 2 r.contrastVsBlack ++ ":1 vs black, " ++
      places 2 r.contrastVsWhite ++ ":1 vs white",
    "overlay     " ++ r.overlay.css]

/-- The line of a verdict, without its end. -/
def verdictText (entry : (Role × Mode) × Bool) : String :=
  padded 11 (entry.1.2.name ++ "-" ++ entry.1.1.name) ++ " " ++ (if entry.2 then "yes" else "no")

def lines (r : Report) : List String := r.summaryLines ++ r.suitability.map verdictText

theorem toList_text (r : Report) :
    r.text.toList = (r.lines.map String.toList).flatMap (· ++ ['\n']) := by
  have hbreak : "\n".toList = ['\n'] := by decide
  have hline (entry : (Role × Mode) × Bool) :
      (verdictLine entry).toList = (verdictText entry).toList ++ "\n".toList := by
    rw [verdictLine, verdictText, String.toList_append]
  have hverdicts : (String.join (r.suitability.map verdictLine)).toList =
      ((r.suitability.map verdictText).map String.toList).flatMap (· ++ ['\n']) := by
    simp only [String.toList_join, List.flatMap_map, hline, hbreak]
  have hend : ":1 vs white\n".toList = ":1 vs white".toList ++ ['\n'] := by decide
  rw [lines, List.map_append, List.flatMap_append, ← hverdicts]
  unfold text
  simp only [summaryLines, String.toList_append, hend, hbreak, List.map_cons, List.map_nil,
    List.flatMap_cons, List.flatMap_nil, List.append_assoc, List.append_nil]

theorem break_not_mem_places (count : Nat) (x : Binary64) : '\n' ∉ (places count x).toList := by
  have hsign (s : Bool) : '\n' ∉ if s then ['-'] else [] := by cases s <;> decide
  have hdigits (n : Nat) : '\n' ∉ digitsOf n := fun h =>
    absurd (isDigit_of_mem_digitsOf h) (by decide)
  rw [places, String.toList_ofList]
  cases x with
  | nan => simp [Binary64.writeFixed]
  | infinite s => simp [Binary64.writeFixed, hsign s]
  | finite s m =>
    have hzeros (n : Nat) : '\n' ∉ List.replicate n '0' := fun h =>
      absurd (List.eq_of_mem_replicate h) (by decide)
    rw [Binary64.writeFixed]
    dsimp only
    split <;> simp [hdigits, hzeros]

theorem break_not_mem_verdictText (entry : (Role × Mode) × Bool) :
    '\n' ∉ (verdictText entry).toList := by
  obtain ⟨⟨role, mode⟩, verdict⟩ := entry
  cases role <;> cases mode <;> cases verdict <;> decide

/-- No line has a break in it, if the color has none. -/
theorem break_not_mem_lines {r : Report} (hcolor : '\n' ∉ r.color.toList) {line : String}
    (h : line ∈ r.lines) : '\n' ∉ line.toList := by
  rw [lines, List.mem_append] at h
  rcases h with h | h
  · have hoverlay := Style.break_not_mem_of_isColorValue (Style.isColorValue_overlay r.overlay)
    have htone : '\n' ∉ r.tone.name.toList := by cases r.tone <;> decide
    have hplaces := break_not_mem_places
    simp only [summaryLines, List.mem_cons, List.not_mem_nil, or_false] at h
    rcases h with rfl | rfl | rfl | rfl | rfl | rfl <;>
      simp [hcolor, hoverlay, htone, hplaces]
  · obtain ⟨entry, -, rfl⟩ := List.mem_map.1 h
    exact break_not_mem_verdictText entry

theorem color_ofColor (color : Color) : (ofColor color).color = color.text := by rw [ofColor]

/-- **The lines of a report are found again in its text.** -/
theorem split_text (color : Color) :
    Text.split (· = '\n') (ofColor color).text.toList =
      (ofColor color).lines.map String.toList ++ [[]] := by
  have hcolor : '\n' ∉ (ofColor color).color.toList := by
    rw [color_ofColor]
    exact Style.break_not_mem_of_isColorValue (Style.isColorValue_text color)
  have hlines : ∀ line ∈ (ofColor color).lines.map String.toList, '\n' ∉ line := by
    intro line hline
    obtain ⟨s, hs, rfl⟩ := List.mem_map.1 hline
    exact break_not_mem_lines (r := ofColor color) hcolor hs
  have hsplit := Text.split_lines hlines []
  rwa [List.append_nil, ← toList_text] at hsplit

/-! ### Verdicts -/

def verdicts : List ((Role × Mode) × Bool) :=
  Role.all.flatMap fun role => Mode.all.flatMap fun mode =>
    [((role, mode), true), ((role, mode), false)]

theorem mem_verdicts (entry : (Role × Mode) × Bool) : entry ∈ verdicts := by
  obtain ⟨⟨role, mode⟩, verdict⟩ := entry
  cases role <;> cases mode <;> cases verdict <;> decide

theorem verdictText_injective : Function.Injective verdictText := by
  intro entry entry' h
  have hnodup : (verdicts.map verdictText).Nodup := by decide
  exact List.inj_on_of_nodup_map hnodup (mem_verdicts entry) (mem_verdicts entry') h

theorem verdictJson_injective : Function.Injective verdictJson := by
  rintro ⟨⟨role, mode⟩, verdict⟩ ⟨⟨role', mode'⟩, verdict'⟩ h
  simp only [verdictJson, Json.record.injEq, List.cons.injEq, Prod.mk.injEq, Json.text.injEq,
    Json.bool.injEq, true_and, and_true] at h
  obtain ⟨hrole, hmode, hverdict⟩ := h
  rw [Role.name_injective hrole, Mode.name_injective hmode, hverdict]

/-- No line before the verdicts starts as one of them does. -/
theorem verdictText_not_mem_summaryLines (r : Report) (entry : (Role × Mode) × Bool) :
    verdictText entry ∉ r.summaryLines := by
  have hstart : (verdictText entry).toList.take 2 ∈ ["da".toList, "li".toList] := by
    obtain ⟨⟨role, mode⟩, verdict⟩ := entry
    cases role <;> cases mode <;> cases verdict <;> decide
  intro h
  simp only [summaryLines, List.mem_cons, List.not_mem_nil, or_false] at h
  rcases h with h | h | h | h | h | h <;> rw [h] at hstart <;> simp at hstart

theorem verdictText_mem_lines_iff (r : Report) {role : Role} {mode : Mode} {verdict : Bool} :
    verdictText ((role, mode), verdict) ∈ r.lines ↔ r.Says role mode verdict := by
  rw [lines, List.mem_append, or_iff_right (r.verdictText_not_mem_summaryLines _),
    List.mem_map_of_injective verdictText_injective]
  rfl

theorem verdictJson_mem_iff (r : Report) {role : Role} {mode : Mode} {verdict : Bool} :
    verdictJson ((role, mode), verdict) ∈ r.suitability.map verdictJson ↔
      r.Says role mode verdict :=
  List.mem_map_of_injective verdictJson_injective

end Report

/-! ### Runs -/

section run
variable {a : CheckArguments} {color : Color}

def printedReport (json : Bool) (color : Color) : String :=
  if json then jsonLines (Report.ofColor color).toJson else (Report.ofColor color).text

theorem run_of_error {e : ColorError} (h : Color.parse a.color = .error e) (s : Surroundings) :
    (runCheck a).run s = (.error (.color e), s) := by
  rw [runCheck, h]
  rfl

theorem run_of_ok (h : Color.parse a.color = .ok color) (s : Surroundings) :
    (runCheck a).run s =
      (verify a color, { s with output := s.output ++ printedReport a.json color }) := by
  rw [runCheck, h]
  rfl

/-- The color does not suit the role and the mode, and both are given. -/
def Unsuited (a : CheckArguments) (color : Color) : Prop :=
  ∃ role mode, a.role = some role ∧ a.mode = some mode ∧ isSuitable role color mode = false

theorem unsuited_iff {role : Role} {mode : Mode} (hrole : a.role = some role)
    (hmode : a.mode = some mode) : Unsuited a color ↔ isSuitable role color mode = false := by
  simp [Unsuited, hrole, hmode]

/-- **The run judges as the report does**, though it reads the text of the color once more. -/
theorem verify_cases (h : Color.parse a.color = .ok color) :
    (¬Unsuited a color ∧ verify a color = .ok ()) ∨
      ∃ role mode required, a.role = some role ∧ a.mode = some mode ∧
        isSuitable role color mode = false ∧ requiredTone role mode = some required ∧
        color.tone ≠ required ∧
        verify a color = .error (.unsuitable color role mode (.wrongTone color.tone required)) := by
  unfold verify
  cases hrole : a.role with
  | none => exact .inl ⟨by simp [Unsuited, hrole], rfl⟩
  | some role =>
    cases hmode : a.mode with
    | none => exact .inl ⟨by simp [Unsuited, hmode], rfl⟩
    | some mode =>
      dsimp only
      rw [unsuited_iff hrole hmode, screen_of_parse h]
      rcases screenTone_cases role color mode with
        ⟨hsuits, hscreen⟩ | ⟨hsuits, required, hrequired, htone, hscreen⟩
      · rw [hscreen, hsuits]
        exact .inl ⟨nofun, rfl⟩
      · rw [hscreen]
        exact .inr ⟨role, mode, required, rfl, rfl, hsuits, hrequired, htone, rfl⟩

/-- How a run ends whose color can be read, and what it has printed then. -/
structure Checked (a : CheckArguments) (color : Color) (s : Surroundings)
    (ending : Except Failure Unit × Surroundings) : Prop where
  /-- The whole report is printed in any case, and nothing else is done. -/
  printed : ending.2 = { s with output := s.output ++ printedReport a.json color }
  exitCode : ending.1 = .ok () ∨ ∃ f, ending.1 = .error f ∧ f.exitCode = 3
  /-- The run fails exactly if a role and a mode are given that the color does not suit. -/
  fails_iff : ending.1 ≠ .ok () ↔ Unsuited a color
  /-- For a background and for text that is what the report says. -/
  agrees : ∀ role mode, a.role = some role → a.mode = some mode →
    role = .background ∨ role = .text →
      (ending.1 ≠ .ok () ↔ (Report.ofColor color).Says role mode false)
  /-- The other roles take every color. -/
  tolerant : a.role = some .primary ∨ a.role = some .warn → ending.1 = .ok ()
  /-- The tone is at fault, and nothing else. -/
  rejection : ∀ f, ending.1 = .error f → ∃ role mode found required, a.role = some role ∧
    a.mode = some mode ∧ f = .unsuitable color role mode (.wrongTone found required) ∧
    found ≠ required

theorem checked_of_ok (h : Color.parse a.color = .ok color) (s : Surroundings) :
    Checked a color s ((runCheck a).run s) := by
  have hends := verify_cases h
  have hfails : verify a color ≠ .ok () ↔ Unsuited a color := by
    rcases hends with ⟨hsuited, hok⟩ | ⟨role, mode, required, hrole, hmode, hnot, -, -, herror⟩
    · exact iff_of_false (fun hne => hne hok) hsuited
    · exact iff_of_true (by rw [herror]; nofun) ⟨role, mode, hrole, hmode, hnot⟩
  rw [run_of_ok h]
  refine { printed := rfl, exitCode := ?_, fails_iff := hfails, agrees := ?_, tolerant := ?_,
           rejection := ?_ }
  · rcases hends with ⟨-, hok⟩ | ⟨_, _, _, -, -, -, -, -, herror⟩
    · exact .inl hok
    · exact .inr ⟨_, herror, rfl⟩
  · intro role mode hrole hmode hreported
    rw [hfails, Report.says_ofColor_iff, and_iff_right hreported, unsuited_iff hrole hmode,
      eq_comm]
  · intro hrole
    by_contra hfailed
    obtain ⟨role, mode, hsome, -, hnot⟩ := hfails.1 hfailed
    rw [hsome, Option.some.injEq, Option.some.injEq] at hrole
    rcases hrole with rfl | rfl <;> cases hnot
  · intro f hf
    rcases hends with ⟨-, hok⟩ | ⟨role, mode, required, hrole, hmode, -, -, htone, herror⟩
    · rw [hok] at hf
      cases hf
    · rw [herror] at hf
      exact ⟨role, mode, color.tone, required, hrole, hmode, (Except.error.inj hf).symm, htone⟩

end run

/-- What a report looks like in both formats: each verdict can be read off it. -/
structure Report.Readable (r : Report) : Prop where
  /-- The lines of the text are the values and then the verdicts. -/
  lines : Text.split (· = '\n') r.text.toList =
    (r.summaryLines ++ r.suitability.map verdictText).map String.toList ++ [[]]
  line_iff : ∀ role mode verdict, verdictText ((role, mode), verdict) ∈
    r.summaryLines ++ r.suitability.map verdictText ↔ r.Says role mode verdict
  /-- The last member of the object is the list of the verdicts. -/
  members : ∃ members, r.toJson =
    .record (members ++ [("suitability", .list (r.suitability.map verdictJson))])
  object_iff : ∀ role mode verdict, verdictJson ((role, mode), verdict) ∈
    r.suitability.map verdictJson ↔ r.Says role mode verdict
  /-- What is printed in place of the text is an object with these members. -/
  object : Json.Document
    (.record [("color", .text r.color), ("brightness", .number r.brightness),
      ("luminance", .number r.luminance), ("tone", .text r.tone.name),
      ("contrastVsBlack", .number r.contrastVsBlack),
      ("contrastVsWhite", .number r.contrastVsWhite), ("overlay", .text r.overlay.css),
      ("suitability", .list (r.suitability.map fun entry =>
        .record [("role", .text entry.1.1.name), ("mode", .text entry.1.2.name),
          ("suitable", .bool entry.2)]))])
    (jsonLines r.toJson).toList

/-- **The report and the end of a run agree.**  A color that cannot be read ends the run with the exit
code 2 and nothing is printed.  Every other color is reported on, and the exit code is 3 exactly if the
color does not suit the role and the mode that are given. -/
theorem check_agrees (a : CheckArguments) (s : Surroundings) :
    (∀ e, Color.parse a.color = .error e →
      (runCheck a).run s = (.error (.color e), s) ∧ (Failure.color e).exitCode = 2) ∧
    ∀ color, Color.parse a.color = .ok color →
      Checked a color s ((runCheck a).run s) ∧ (Report.ofColor color).Readable := by
  refine ⟨fun e h => ⟨run_of_error h s, rfl⟩, fun color h => ⟨checked_of_ok h s, ?_⟩⟩
  exact { lines := Report.split_text color
          line_iff := fun _ _ _ => Report.verdictText_mem_lines_iff _
          members := ⟨[_, _, _, _, _, _, _], rfl⟩
          object_iff := fun _ _ _ => Report.verdictJson_mem_iff _
          object := Json.document_pretty _ }

/-- White is no background for the dark mode, and what is no color is not reported on. -/
theorem check_agrees_white :
    let white : CheckArguments := ⟨" #FFFFFF ", some .background, some .dark, false⟩
    let unread : CheckArguments := ⟨"#ggg", some .text, some .light, true⟩
    let s := Surroundings.ofFiles .empty
    Color.parse white.color = .ok .white ∧ Checked white .white s ((runCheck white).run s) ∧
      ((runCheck white).run s).1 ≠ .ok () ∧
      (Report.ofColor .white).Says .background .dark false ∧
      (runCheck unread).run s = (.error (.color (.malformed "#ggg")), s) := by
  intro white unread s
  have hwhite : Color.parse white.color = .ok .white := by decide +kernel
  have hunread : Color.parse unread.color = .error (.malformed "#ggg") := by decide +kernel
  obtain ⟨hchecked, -⟩ := (check_agrees white s).2 _ hwhite
  have hunsuited : Unsuited white .white := ⟨.background, .dark, rfl, rfl, by decide +kernel⟩
  have hfails := hchecked.fails_iff.2 hunsuited
  exact ⟨hwhite, hchecked, hfails, (hchecked.agrees _ _ rfl rfl (.inl rfl)).1 hfails,
    ((check_agrees unread s).1 _ hunread).1⟩

end ColorTheme.Command
