import ColorTheme.Proofs.Command.Separation
import ColorTheme.Proofs.Json.Values

/-!
# What is written of a theme

A run that finds its policy writes all of the theme for the modes that are asked for: the properties
that a context shows with the defaults and then the policy on it, 86 for each mode.  Both formats have
them in the order of the bytes of their names.  A run that does not find its policy writes nothing.
-/

namespace ColorTheme

open Style (Properties Property)

/-! ### Sheets with every slot written -/

/-- A property of the scheme has a value once every slot was written. -/
theorem Sheet.isSome_of_isLast {s : Sheet} (hs : s.Coherent) {writes : List Write}
    (hlast : ∀ slot, ∃ w : Write, w.slot = slot ∧ Write.IsLast writes w) {q : Property}
    (hq : q.isWritten = true) : ((s.putAll writes).properties.get? q.name).isSome = true := by
  have hpalette (role : Role) (mode : Mode) (hrole : role.hasPalette = true) :
      ((s.putAll writes).palette? role mode).isSome = true := by
    obtain ⟨w, hslot, hw⟩ := hlast (role, mode)
    obtain ⟨rfl, rfl⟩ := Prod.mk.inj hslot
    rw [(s.shows_of_isLast hw).palette hrole, Option.isSome_some]
  have htext (mode : Mode) : ((s.putAll writes).textColor? mode).isSome = true := by
    obtain ⟨w, hslot, hw⟩ := hlast (.text, mode)
    obtain ⟨hrole, rfl⟩ := Prod.mk.inj hslot
    rw [(s.shows_of_isLast hw).text hrole, Option.isSome_some]
  rw [(hs.putAll writes).get?_name]
  cases q with
  | shade mode role shade =>
    rw [expected, Option.isSome_map]
    exact hpalette role mode hq
  | overlay mode role shade =>
    rw [expected, Option.isSome_map]
    exact hpalette role mode hq
  | text mode =>
    rw [expected, Option.isSome_map]
    exact htext mode
  | secondaryText mode =>
    rw [expected, Option.isSome_map]
    exact htext mode

namespace Command

/-- Each slot has a last write, with a policy and without one. -/
theorem exists_isLast (defaults : Defaults) (policy : Option Policy) (slot : Role × Mode) :
    ∃ w : Write, w.slot = slot ∧ Write.IsLast (themeWrites defaults policy) w := by
  cases policy with
  | none =>
    exact ⟨_, rfl, Write.isLast_map (f := defaultWrite defaults) (fun _ => rfl) (by decide)
      (Sheet.mem_defaultOrder slot)⟩
  | some policy =>
    exact ⟨_, rfl, Write.isLast_map (f := Context.policyWrite defaults policy) (fun _ => rfl)
      Sheet.nodup_policyOrder (Sheet.mem_policyOrder slot)⟩

/-! ### The names of a mode -/

theorem isOfMode_name {mode : Mode} {q : Property} : isOfMode mode q.name = true ↔ q.mode = mode := by
  rw [isOfMode_iff]
  constructor
  · intro h
    exact Mode.eq_of_start q.start_prefix_name h
  · rintro rfl
    exact q.start_prefix_name

theorem length_names_mode (mode : Mode) :
    (Property.written.filter fun q => q.mode = mode).length = 86 := by
  cases mode <;> decide +kernel

/-- Names of the dark mode come before those of the light one. -/
theorem lt_of_isOfMode {name name' : String} (h : isOfMode .dark name = true)
    (h' : isOfMode .light name' = true) : name < name' := by
  obtain ⟨rest, hrest⟩ := isOfMode_iff.1 h
  obtain ⟨rest', hrest'⟩ := isOfMode_iff.1 h'
  have hdark : (Style.modeStart .dark).toList = "--theme-".toList ++ 'd' :: "ark-".toList := by decide
  have hlight : (Style.modeStart .light).toList = "--theme-".toList ++ 'l' :: "ight-".toList := by decide
  change name.toList < name'.toList
  rw [← hrest, ← hrest', hdark, hlight, List.append_assoc, List.append_assoc]
  exact List.append_left_lt (.rel (by decide))

/-! ### Selected entries -/

/-- The entries whose names start as those of one of the modes do. -/
def entriesOf (p : Properties) (modes : List Mode) : List (String × String) :=
  p.toList.filter fun e => modes.any fun mode => isOfMode mode e.1

theorem toList_selection (p : Properties) (modes : List Mode) :
    (selection p modes).toList = entriesOf p modes := by
  rw [selection_eq]
  rfl

theorem mem_entriesOf {p : Properties} {modes : List Mode} {e : String × String} :
    e ∈ entriesOf p modes ↔ p.get? e.1 = some e.2 ∧ ∃ mode ∈ modes, isOfMode mode e.1 = true := by
  rw [entriesOf, List.mem_filter, List.any_eq_true, SortedMap.get?_eq_some_iff]
  rfl

/-- Entries in the order of their names are those of one kind and then those of another one, if the
names of the first kind come before the names of the second. -/
theorem filter_or_eq_append {l : List (String × String)} (hl : l.Pairwise fun a b => a.1 < b.1)
    (first second : String → Bool)
    (h : ∀ name name', first name = true → second name' = true → name < name') :
    (l.filter fun e => first e.1 || second e.1) =
      (l.filter fun e => first e.1) ++ l.filter fun e => second e.1 := by
  induction l with
  | nil => rfl
  | cons e rest ih =>
    obtain ⟨hlater, hrest⟩ := List.pairwise_cons.1 hl
    have ih := ih hrest
    cases hfirst : first e.1 with
    | true =>
      have hsecond : second e.1 = false := by
        rw [Bool.eq_false_iff]
        exact fun hsecond => String.lt_irrefl _ (h _ _ hfirst hsecond)
      simp [hfirst, hsecond, ih]
    | false =>
      cases hsecond : second e.1 with
      | false => simp [hfirst, hsecond, ih]
      | true =>
        -- What comes later is not of the first kind, which would have to stand before.
        have hnone : (rest.filter fun e => first e.1) = [] := by
          rw [List.filter_eq_nil_iff]
          intro e' he' hfirst'
          exact String.lt_asymm (hlater e' he') (h _ _ hfirst' hsecond)
        rw [hnone, List.nil_append] at ih
        simp [hfirst, hsecond, ih, hnone]

theorem entriesOf_all (p : Properties) :
    entriesOf p Mode.all = entriesOf p [.dark] ++ entriesOf p [.light] := by
  have hsplit := filter_or_eq_append p.sorted (isOfMode .dark) (isOfMode .light)
    fun _ _ => lt_of_isOfMode
  simpa [entriesOf, Mode.all, SortedMap.toList] using hsplit

theorem fst_ne_of_modes (p : Properties) :
    ∀ e ∈ entriesOf p [.dark], ∀ e' ∈ entriesOf p [.light], e.1 ≠ e'.1 := by
  intro e he e' he'
  obtain ⟨-, mode, hmode, hstart⟩ := mem_entriesOf.1 he
  obtain ⟨-, mode', hmode', hstart'⟩ := mem_entriesOf.1 he'
  rw [List.mem_singleton.1 hmode] at hstart
  rw [List.mem_singleton.1 hmode'] at hstart'
  exact String.ne_of_lt (lt_of_isOfMode hstart hstart')

theorem filter_entriesOf (p : Properties) (modes : List Mode) (mode : Mode) :
    ((entriesOf p modes).filter fun e => isOfMode mode e.1) =
      if mode ∈ modes then entriesOf p [mode] else [] := by
  rw [entriesOf, List.filter_filter]
  split
  · next hmode =>
    rw [entriesOf]
    refine List.filter_congr fun e _ => ?_
    cases hstart : isOfMode mode e.1 with
    | false => simp [hstart]
    | true =>
      have hany : (modes.any fun mode => isOfMode mode e.1) = true :=
        List.any_eq_true.2 ⟨mode, hmode, hstart⟩
      simp [hstart, hany]
  · next hmode =>
    rw [List.filter_eq_nil_iff]
    intro e _ he
    obtain ⟨hstart, hany⟩ := Bool.and_eq_true_iff.1 he
    obtain ⟨mode', hmode', hstart'⟩ := List.any_eq_true.1 hany
    have hsame : mode' = mode := Mode.eq_of_start (isOfMode_iff.1 hstart') (isOfMode_iff.1 hstart)
    exact hmode (hsame ▸ hmode')

/-- The selected entries of a theme: in the order of the bytes of their names, and neither more nor
fewer than the scheme has for the modes. -/
structure Complete (entries : List (String × String)) (modes : List Mode) : Prop where
  ordered : entries.Pairwise fun e e' => Text.bytes e.1 < Text.bytes e'.1
  /-- The names are those of the scheme. -/
  names : ∀ name, name ∈ entries.map Prod.fst ↔
    ∃ q : Property, q.isWritten = true ∧ q.mode ∈ modes ∧ q.name = name
  /-- There are 86 for each of the modes, and none for another one. -/
  count : ∀ mode, entries.countP (fun e => isOfMode mode e.1) = if mode ∈ modes then 86 else 0

section complete
variable {s : Sheet} (hs : s.Coherent)
  (hall : ∀ q : Property, q.isWritten = true → (s.properties.get? q.name).isSome = true)
include hs hall

theorem mem_names_entriesOf {modes : List Mode} {name : String} :
    name ∈ (entriesOf s.properties modes).map Prod.fst ↔
      ∃ q : Property, q.isWritten = true ∧ q.mode ∈ modes ∧ q.name = name := by
  rw [List.mem_map]
  constructor
  · rintro ⟨e, he, rfl⟩
    obtain ⟨hvalue, mode, hmode, hstart⟩ := mem_entriesOf.1 he
    obtain ⟨q, hwritten, hq⟩ := hs.exists_written hvalue
    rw [hq, isOfMode_name] at hstart
    exact ⟨q, hwritten, hstart ▸ hmode, hq.symm⟩
  · rintro ⟨q, hwritten, hmode, rfl⟩
    obtain ⟨value, hvalue⟩ := Option.isSome_iff_exists.1 (hall q hwritten)
    exact ⟨(q.name, value), mem_entriesOf.2 ⟨hvalue, q.mode, hmode, isOfMode_name.2 rfl⟩, rfl⟩

theorem length_entriesOf_singleton (mode : Mode) :
    (entriesOf s.properties [mode]).length = 86 := by
  have hnodup : ((entriesOf s.properties [mode]).map Prod.fst).Nodup := by
    refine List.pairwise_map.2 ((s.properties.sorted.filter _).imp ?_)
    exact fun hlt => String.ne_of_lt hlt
  have hnames : ((Property.written.filter fun q => q.mode = mode).map Property.name).Nodup :=
    ((Property.nodup_all.filter _).filter _).map Property.name_injective
  have hperm : ((entriesOf s.properties [mode]).map Prod.fst).Perm
      ((Property.written.filter fun q => q.mode = mode).map Property.name) := by
    rw [List.perm_ext_iff_of_nodup hnodup hnames]
    intro name
    rw [mem_names_entriesOf hs hall]
    simp [Property.mem_written, and_assoc]
  have hlength := hperm.length_eq
  rwa [List.length_map, List.length_map, length_names_mode] at hlength

theorem complete_entriesOf (modes : List Mode) : Complete (entriesOf s.properties modes) modes where
  ordered := (s.properties.sorted.filter _).imp Text.bytes_lt_bytes_of_lt
  names name := mem_names_entriesOf hs hall
  count mode := by
    rw [List.countP_eq_length_filter, filter_entriesOf]
    split
    · exact length_entriesOf_singleton hs hall mode
    · rfl

end complete

/-! ### Written forms -/

/-- One rule with the entries in their order. -/
def ruleOf (selector : String) (entries : List (String × String)) : String :=
  selector ++ " \x7b\n" ++
    String.join (entries.map fun e => "  " ++ e.1 ++ ": " ++ e.2 ++ ";\n") ++ "\x7d\n"

def textMembers (entries : List (String × String)) : List (String × Json.Meaning) :=
  entries.map fun e => (e.1, .text e.2)

/-- What is said of a color that was replaced. -/
def reported (f : Fallback) : List (String × String) :=
  [("role", f.role.name), ("mode", f.mode.name), ("supplied", f.supplied),
    ("reason", f.rejection.message), ("used", f.used)]

open Json (HeadForm ListForm ObjectForm) in
/-- The text is an object with two members, an object of texts and a list of such objects. -/
inductive ThemeForm (properties : List (String × String)) (reports : List (List (String × String))) :
    List Char → Prop
  | object {head object head' before list after rest : List Char} :
      HeadForm .record "properties" head → ObjectForm (textMembers properties) object →
      HeadForm .record "fallbacks" head' → Json.Blanks before →
      ListForm (reports.map textMembers) list → Json.Blanks after → Json.Blanks rest →
      ThemeForm properties reports ('\x7b' :: (head ++ (object ++ ',' :: (head' ++
        (before ++ (list ++ (after ++ '\x7d' :: rest)))))))

def textsJson (entries : List (String × String)) : Json :=
  .record (entries.map fun e => (e.1, .text e.2))

theorem meanings_texts (entries : List (String × String)) :
    Json.meanings (entries.map fun e => (e.1, .text e.2)) = textMembers entries := by
  simp [Json.meanings, textMembers, Json.meaning, Function.comp_def]

theorem objectForm_texts (entries : List (String × String)) (level : Nat) :
    Json.ObjectForm (textMembers entries) ((textsJson entries).prettyAt level).toList := by
  rw [← meanings_texts]
  exact (Json.writes_prettyAt level (textsJson entries)).objectForm

theorem listForm_texts (objects : List (List (String × String))) (level : Nat) :
    Json.ListForm (objects.map textMembers)
      ((Json.list (objects.map textsJson)).prettyAt level).toList := by
  obtain ⟨members, hmembers⟩ : ∃ members, members =
      objects.map fun entries => entries.map fun e => (e.1, Json.text e.2) := ⟨_, rfl⟩
  have hvalues : objects.map textsJson = members.map .record := by
    rw [hmembers, List.map_map]
    rfl
  have hmeanings : objects.map textMembers = members.map Json.meanings := by
    rw [hmembers, List.map_map]
    exact List.map_congr_left fun entries _ => (meanings_texts entries).symm
  rw [hvalues, hmeanings]
  exact (Json.writes_prettyAt level _).listForm

theorem map_fallbackJson (report : List Fallback) :
    report.map fallbackJson = (report.map reported).map textsJson := by
  rw [List.map_map]
  rfl

/-- **The indented object is in the form of a theme.** -/
theorem themeForm_selectionJson (p : Properties) (report : List Fallback) :
    ThemeForm p.toList (report.map reported) (jsonLines (selectionJson p report)).toList := by
  have hlead : Json.Blanks ['\n', ' ', ' '] := by decide
  have hmid : Json.Blanks [' '] := by decide
  have hobject := (objectForm_texts p.toList 1).prepend_blanks hmid
  have hhead (key : String) : Json.HeadForm .record key
      (['\n', ' ', ' '] ++ (Json.quotedChars key ++ ([] ++ [':']))) :=
    .member hlead (Json.textForm_quoted key) Json.blanks_nil
  have hform := ThemeForm.object (hhead "properties") hobject (hhead "fallbacks") hmid
    (listForm_texts (report.map reported) 1) Json.blanks_break Json.blanks_break
  have hindent : (Json.indent 1).toList = [' ', ' '] := by decide
  have hlast : (Json.indent 0).toList = [] := by decide
  simpa [jsonLines, selectionJson, Json.pretty, Json.prettyAt, Json.prettyMembers, Json.block,
    Json.quoted, textsJson, map_fallbackJson, hindent, hlast] using hform

/-! ### Policies -/

/-- The policy that a path leads to: for a dash the one in the input, and for all else the one in a
file.  Without a path there is none. -/
inductive PolicyAt (s : Surroundings) : Option String → Option Policy → Prop
  | absent : PolicyAt s none none
  | input {text : String} {policy : Policy} : s.input = .ok text →
      Policy.ofJson text = .ok policy → PolicyAt s (some "-") (some policy)
  | file {path text : String} {policy : Policy} : path ≠ "-" →
      s.files.readText path = .ok text → Policy.ofJson text = .ok policy →
      PolicyAt s (some path) (some policy)

theorem readPolicyText_eq_ok_iff {path text : String} {s : Surroundings} :
    ((readPolicyText path).run s).1 = .ok text ↔
      (if path = "-" then s.input else s.files.readText path) = .ok text := by
  unfold readPolicyText
  split
  · rw [Plan.run]
    cases s.input <;> simp [Plan.run]
  · rw [Plan.run]
    cases s.files.readText path <;> simp [Plan.run]

/-- **A policy is read exactly where there is one.** -/
theorem readPolicy_eq_ok_iff {path : Option String} {policy : Option Policy} {s : Surroundings} :
    ((readPolicy path).run s).1 = .ok policy ↔ PolicyAt s path policy := by
  cases path with
  | none =>
    constructor
    · rintro ⟨⟩
      exact .absent
    · rintro ⟨⟩
      rfl
  | some path =>
    have hsome : ((readPolicy (some path)).run s).1 = .ok policy ↔
        ∃ text p, (if path = "-" then s.input else s.files.readText path) = .ok text ∧
          Policy.ofJson text = .ok p ∧ some p = policy := by
      rw [readPolicy, Plan.run_bind]
      simp only [← readPolicyText_eq_ok_iff]
      cases ((readPolicyText path).run s).1 with
      | error f => simp
      | ok text => cases hjson : Policy.ofJson text <;> simp [hjson]
    rw [hsome]
    constructor
    · rintro ⟨text, p, hread, hjson, rfl⟩
      split at hread
      · next hdash => exact hdash ▸ .input hread hjson
      · next hdash => exact .file hdash hread hjson
    · rintro (_ | ⟨hread, hjson⟩ | ⟨hdash, hread, hjson⟩)
      · exact ⟨_, _, hread, hjson, rfl⟩
      · exact ⟨_, _, (if_neg hdash).trans hread, hjson, rfl⟩

/-- A context with the defaults and then the policy, if there is one, and the report on the policy. -/
def painted (defaults : Defaults) (policy : Option Policy) : Context × List Fallback :=
  let c := (Context.new (.memory .empty) defaults).applyDefaults.value
  match policy with
  | none => (c, [])
  | some policy => (c.applyPolicy policy).value

theorem themed_eq_painted (defaults : Defaults) (policy : Option Policy) :
    (themed defaults policy).value =
      ((painted defaults policy).1.sheet, (painted defaults policy).2) := by
  cases policy <;> rfl

theorem sheet_painted (defaults : Defaults) (policy : Option Policy) :
    (painted defaults policy).1.sheet = Sheet.empty.putAll (themeWrites defaults policy) := by
  rw [← sheet_themed, themed_eq_painted]

/-- **Nothing is missing**: a context with the defaults on it has all that the scheme has. -/
theorem complete_painted (defaults : Defaults) (policy : Option Policy) (modes : List Mode) :
    Complete (entriesOf (painted defaults policy).1.sheet.properties modes) modes := by
  rw [sheet_painted]
  refine complete_entriesOf (Sheet.Coherent.empty.putAll _) ?_ modes
  intro q hq
  exact Sheet.isSome_of_isLast .empty (exists_isLast defaults policy) hq

/-! ### Runs -/

section run
variable {path : Option String} {s : Surroundings}

theorem exists_failure (hnone : ∀ policy, ¬PolicyAt s path policy) (settings : Settings) :
    ∃ f, ∀ modes format selector,
      (runApply ⟨path, modes, format, selector⟩ settings).run s = (.error f, s) := by
  cases hread : ((readPolicy path).run s).1 with
  | ok policy => exact absurd (readPolicy_eq_ok_iff.1 hread) (hnone policy)
  | error f =>
    refine ⟨f, fun modes format selector => ?_⟩
    rw [runApply, Plan.run_bind, hread, run_readPolicy]
    rfl

section policy
variable {policy : Option Policy} (hpolicy : PolicyAt s path policy) (settings : Settings)
  (modes : List Mode) (selector : String)
include hpolicy

theorem prints_painted (format : SheetFormat) :
    Prints ⟨path, modes, format, selector⟩ settings s (writeSelection format selector
      (selection (painted settings.defaults policy).1.sheet.properties modes)
      (painted settings.defaults policy).2) := by
  have hprints : Prints ⟨path, modes, format, selector⟩ settings s _ :=
    prints_of_readPolicy (readPolicy_eq_ok_iff.2 hpolicy)
  rwa [themed_eq_painted] at hprints

/-- The rule has the selected entries for lines, and they can be read off it. -/
theorem prints_rule :
    let entries := entriesOf (painted settings.defaults policy).1.sheet.properties modes
    Prints ⟨path, modes, .css, selector⟩ settings s (ruleOf selector entries) ∧
      Style.readRule? selector (ruleOf selector entries) = some entries := by
  have hlegible := fun e => legible_selection settings.defaults policy modes (e := e)
  rw [themed_eq_painted] at hlegible
  have hrule := Style.readRule?_css hlegible selector
  rw [← toList_selection]
  exact ⟨prints_painted hpolicy settings modes selector .css, hrule⟩

/-- The object has them for members. -/
theorem prints_object :
    let result := painted settings.defaults policy
    ∃ text, Prints ⟨path, modes, .json, selector⟩ settings s text ∧
      ThemeForm (entriesOf result.1.sheet.properties modes) (result.2.map reported)
        text.toList := by
  refine ⟨_, prints_painted hpolicy settings modes selector .json, ?_⟩
  rw [← toList_selection]
  exact themeForm_selectionJson _ _

end policy

end run

/-- What runs of the command print of a sheet and a report. -/
structure Prints.Whole (path : Option String) (settings : Settings) (s : Surroundings)
    (p : Properties) (report : List Fallback) : Prop where
  /-- The selected entries are all that the scheme has for the modes, in their order. -/
  complete : ∀ modes, Complete (entriesOf p modes) modes
  /-- They are the lines of the rule, and can be read off it. -/
  css : ∀ modes selector, Prints ⟨path, modes, .css, selector⟩ settings s
      (ruleOf selector (entriesOf p modes)) ∧
    Style.readRule? selector (ruleOf selector (entriesOf p modes)) = some (entriesOf p modes)
  /-- They are the members of the object, beside the report. -/
  json : ∀ modes selector, ∃ text, Prints ⟨path, modes, .json, selector⟩ settings s text ∧
    ThemeForm (entriesOf p modes) (report.map reported) text.toList
  both : entriesOf p Mode.all = entriesOf p [.dark] ++ entriesOf p [.light]
  disjoint : ∀ e ∈ entriesOf p [.dark], ∀ e' ∈ entriesOf p [.light], e.1 ≠ e'.1

/-- **Runs write the whole theme or nothing**, in any format, with any selector and for any modes.
A run that finds no policy where it should be fails and leaves everything as it was.  Any other run
prints the selected properties of a context with the defaults and the policy on it, and the report. -/
theorem theme_complete (path : Option String) (settings : Settings) (s : Surroundings) :
    ((∀ policy, ¬PolicyAt s path policy) → ∃ f, ∀ modes format selector,
      (runApply ⟨path, modes, format, selector⟩ settings).run s = (.error f, s)) ∧
    ∀ policy, PolicyAt s path policy →
      let result := painted settings.defaults policy
      Prints.Whole path settings s result.1.sheet.properties result.2 := by
  refine ⟨fun hnone => exists_failure hnone settings, fun policy hpolicy => ?_⟩
  exact { complete := complete_painted settings.defaults policy
          css := prints_rule hpolicy settings
          json := prints_object hpolicy settings
          both := entriesOf_all _
          disjoint := fst_ne_of_modes _ }

/-- A list of colors in the input with a background that does not suit the dark mode, and a file that is
not there. -/
theorem theme_complete_inputs :
    let s := ofInput "[\"#0f0\", null, null, null, null, \"#fff\"]"
    let plain : Settings := ⟨none, .builtin⟩
    let result := painted plain.defaults (some unsuitableDark)
    PolicyAt s (some "-") (some unsuitableDark) ∧
      Prints.Whole (some "-") plain s result.1.sheet.properties result.2 ∧
      result.2 = [⟨.background, .dark, "#fff", .wrongTone .light .dark, "#111827"⟩] ∧
      (∀ policy, ¬PolicyAt s (some "absent.json") policy) ∧
      ∃ f, (runApply ⟨some "absent.json", [.dark], .css, ":root"⟩ plain).run s = (.error f, s) := by
  intro s plain result
  have hpolicy : PolicyAt s (some "-") (some unsuitableDark) := .input rfl (by decide +kernel)
  have hreport : result.2 = [⟨.background, .dark, "#fff", .wrongTone .light .dark, "#111827"⟩] := by
    have hresult : result = ((Context.new (.memory .empty) .builtin).applyDefaults.value.applyPolicy
        unsuitableDark).value := rfl
    rw [hresult, Context.reports_policy]
    decide +kernel
  have hread : ((readPolicy (some "absent.json")).run s).1 =
      .error (.policyFile "absent.json" .notFound) := by decide +kernel
  have habsent (policy : Option Policy) : ¬PolicyAt s (some "absent.json") policy := by
    rw [← readPolicy_eq_ok_iff, hread]
    nofun
  obtain ⟨f, hfails⟩ := (theme_complete (some "absent.json") plain s).1 habsent
  exact ⟨hpolicy, (theme_complete (some "-") plain s).2 _ hpolicy, hreport, habsent, f,
    hfails [.dark] .css ":root"⟩

end Command

end ColorTheme
