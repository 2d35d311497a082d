import ColorTheme.Command.Run
import ColorTheme.Proofs.Context.Stylesheet

/-!
# Modes apart

What is written for a mode is told by the defaults and the policy for that mode, whatever they are
for the other one.  The names of a mode have a start of their own, so that the properties of a mode
are found again by it, and writes for the other mode do not touch them.
-/

namespace ColorTheme

open Style (Properties Property)

/-! ### Names of a mode -/

/-- No text starts as the names of two modes do. -/
theorem Mode.eq_of_start {m m' : Mode} {cs : List Char}
    (h : (Style.modeStart m).toList <+: cs) (h' : (Style.modeStart m').toList <+: cs) :
    m = m' := by
  have hprefix := List.prefix_or_prefix_of_prefix h h'
  revert hprefix
  cases m <;> cases m' <;> decide

namespace Style.Property

def mode : Property → Mode
  | .shade m _ _ | .overlay m _ _ | .text m | .secondaryText m => m

theorem start_prefix_name (q : Property) : (modeStart q.mode).toList <+: q.name.toList := by
  cases q with
  | shade m r s =>
    rw [name, shadeName, String.append_assoc, String.append_assoc, String.toList_append]
    exact List.prefix_append _ _
  | overlay m r s =>
    rw [name, overlayName, String.append_assoc, String.append_assoc, String.toList_append]
    exact List.prefix_append _ _
  | text m =>
    rw [name, textName, String.toList_append]
    exact List.prefix_append _ _
  | secondaryText m =>
    rw [name, secondaryTextName, String.toList_append]
    exact List.prefix_append _ _

end Style.Property

theorem Write.value?_eq_none {w : Write} {q : Property} (h : q.mode ≠ w.mode) :
    w.value? q = none := by
  cases q with
  | shade m r s => exact if_neg fun hwritten => h hwritten.2.2
  | overlay m r s => exact if_neg fun hwritten => h hwritten.2.2
  | text m => exact if_neg fun hwritten => h hwritten.2
  | secondaryText m => exact if_neg fun hwritten => h hwritten.2

theorem Write.filter_map_congr {mode : Mode} {f f' : Role × Mode → Write}
    (hf : ∀ slot, (f slot).mode = slot.2) (hf' : ∀ slot, (f' slot).mode = slot.2)
    (h : ∀ role, f (role, mode) = f' (role, mode)) (slots : List (Role × Mode)) :
    (slots.map f).filter (·.mode = mode) = (slots.map f').filter (·.mode = mode) := by
  induction slots with
  | nil => rfl
  | cons slot rest ih =>
    rw [List.map_cons, List.map_cons, List.filter_cons, List.filter_cons, hf, hf', ih]
    split
    · next hslot =>
      have hpair : slot = (slot.1, mode) := Prod.ext rfl (of_decide_eq_true hslot)
      rw [hpair, h]
    · rfl

namespace Command

/-! ### Properties of a mode -/

/-- The name starts as those of a mode do. -/
def isOfMode (mode : Mode) (name : String) : Bool :=
  (Style.modeStart mode).toList.isPrefixOf name.toList

theorem isOfMode_iff {mode : Mode} {name : String} :
    isOfMode mode name = true ↔ (Style.modeStart mode).toList <+: name.toList :=
  List.isPrefixOf_iff_prefix

theorem get?_ofMode (p : Properties) (mode : Mode) (name : String) :
    (ofMode p mode).get? name = if isOfMode mode name then p.get? name else none :=
  SortedMap.get?_filterKeys _ p name

theorem toList_ofMode (p : Properties) (mode : Mode) :
    (ofMode p mode).toList = p.toList.filter fun e => isOfMode mode e.1 := rfl

theorem ofMode_eq_iff {p p' : Properties} {mode : Mode} : ofMode p mode = ofMode p' mode ↔
    ∀ name, isOfMode mode name = true → p.get? name = p'.get? name := by
  constructor
  · intro h name hname
    have hget := congrArg (·.get? name) h
    simp only [get?_ofMode, if_pos hname] at hget
    exact hget
  · intro h
    refine SortedMap.ext_get? ?_
    intro name
    rw [get?_ofMode, get?_ofMode]
    split
    · next hname => exact h name hname
    · rfl

section write
variable {s t : Sheet} {w : Write} {mode : Mode}

theorem ofMode_put_of_ne (hmode : w.mode ≠ mode) :
    ofMode (s.put w).properties mode = ofMode s.properties mode := by
  rw [ofMode_eq_iff]
  intro name hname
  by_cases hq : ∃ q : Property, q.name = name
  · obtain ⟨q, rfl⟩ := hq
    have hsame : q.mode = mode := Mode.eq_of_start q.start_prefix_name (isOfMode_iff.1 hname)
    rw [Sheet.get?_put, Write.value?_eq_none (hsame ▸ hmode.symm), Option.none_or]
  · exact s.get?_put_of_unnamed w fun q hname => hq ⟨q, hname⟩

theorem ofMode_put_congr (h : ofMode s.properties mode = ofMode t.properties mode) (w : Write) :
    ofMode (s.put w).properties mode = ofMode (t.put w).properties mode := by
  rw [ofMode_eq_iff] at h ⊢
  intro name hname
  by_cases hq : ∃ q : Property, q.name = name
  · obtain ⟨q, rfl⟩ := hq
    rw [Sheet.get?_put, Sheet.get?_put, h q.name hname]
  · have hunnamed : ∀ q : Property, q.name ≠ name := fun q hname => hq ⟨q, hname⟩
    rw [s.get?_put_of_unnamed w hunnamed, t.get?_put_of_unnamed w hunnamed, h name hname]

end write

/-- **The properties of a mode are told by the writes for it.** -/
theorem ofMode_putAll_congr {mode : Mode} {s t : Sheet}
    (h : ofMode s.properties mode = ofMode t.properties mode) (writes : List Write) :
    ofMode (s.putAll writes).properties mode =
      ofMode (t.putAll (writes.filter (·.mode = mode))).properties mode := by
  induction writes generalizing s t with
  | nil => exact h
  | cons w rest ih =>
    by_cases hmode : w.mode = mode
    · rw [List.filter_cons_of_pos (by simpa using hmode)]
      exact ih (ofMode_put_congr h w)
    · rw [List.filter_cons_of_neg (by simpa using hmode)]
      exact ih ((ofMode_put_of_ne hmode).trans h)

/-! ### Selections -/

theorem get?_selection_concat (p : Properties) (modes : List Mode) (mode : Mode) (name : String) :
    (selection p (modes ++ [mode])).get? name =
      ((ofMode p mode).get? name).or ((selection p modes).get? name) := by
  rw [selection, List.foldl_append, List.foldl_cons, List.foldl_nil]
  exact SortedMap.get?_foldl_insert (ofMode p mode).sorted (selection p modes) name

theorem get?_selection (p : Properties) (modes : List Mode) (name : String) :
    (selection p modes).get? name =
      if modes.any fun mode => isOfMode mode name then p.get? name else none := by
  induction modes using List.reverseRecOn with
  | nil => rfl
  | append_singleton modes mode ih =>
    rw [get?_selection_concat, ih, get?_ofMode, List.any_append, List.any_cons, List.any_nil]
    -- A property that is set twice gets the same value again.
    cases isOfMode mode name <;> cases modes.any (fun mode => isOfMode mode name) <;>
      cases p.get? name <;> rfl

/-- **A selection is a filter**: it has the properties whose names start as those of one of the modes
do. -/
theorem selection_eq (p : Properties) (modes : List Mode) :
    selection p modes = p.filterKeys fun name => modes.any fun mode => isOfMode mode name := by
  refine SortedMap.ext_get? ?_
  intro name
  rw [get?_selection, SortedMap.get?_filterKeys]

theorem selection_singleton (p : Properties) (mode : Mode) :
    selection p [mode] = ofMode p mode := by
  refine SortedMap.ext_get? ?_
  intro name
  rw [get?_selection, get?_ofMode, List.any_cons, List.any_nil, Bool.or_false]

theorem ofMode_selection_all (p : Properties) (mode : Mode) :
    ofMode (selection p Mode.all) mode = ofMode p mode := by
  rw [ofMode_eq_iff]
  intro name hname
  rw [get?_selection, if_pos (List.any_eq_true.2 ⟨mode, Mode.mem_all mode, hname⟩)]

/-! ### Themes -/

/-- The write of a default. -/
def defaultWrite (defaults : Defaults) (slot : Role × Mode) : Write :=
  ⟨slot.1, slot.2, defaults.get slot.1 slot.2⟩

/-- The writes for the defaults, or for the policy if there is one. -/
def themeWrites (defaults : Defaults) : Option Policy → List Write
  | none => Sheet.defaultOrder.map (defaultWrite defaults)
  | some policy => Sheet.policyOrder.map (Context.policyWrite defaults policy)

theorem sheet_themed (defaults : Defaults) (policy : Option Policy) :
    (themed defaults policy).value.1 = Sheet.empty.putAll (themeWrites defaults policy) := by
  cases policy with
  | none =>
    rw [themed, Noted.value_bind, Noted.value_pure, Context.value_applyDefaults]
    rfl
  | some policy =>
    rw [value_themed, Context.value_applyPolicy, Context.writes_applyPolicy, themeWrites]

/-- Two policies have the same colors for a mode, or there is none in both places. -/
def SamePolicy (mode : Mode) : Option Policy → Option Policy → Prop
  | none, none => True
  | some p, some p' => ∀ role, p.colors.get role mode = p'.colors.get role mode
  | _, _ => False

section themed
variable {defaults defaults' : Defaults} {policy policy' : Option Policy} {mode : Mode}
  (hdefaults : ∀ role, defaults.get role mode = defaults'.get role mode)
include hdefaults

theorem chosen_congr (role : Role) (supplied : Option String) :
    Context.chosen defaults role supplied mode = Context.chosen defaults' role supplied mode := by
  cases hscreen : screen role supplied mode with
  | ok color => rw [Context.chosen_of_ok hscreen, Context.chosen_of_ok hscreen]
  | error rejection =>
    rw [Context.chosen_of_error hscreen, Context.chosen_of_error hscreen, hdefaults]

theorem filter_themeWrites (hpolicy : SamePolicy mode policy policy') :
    (themeWrites defaults policy).filter (·.mode = mode) =
      (themeWrites defaults' policy').filter (·.mode = mode) := by
  cases policy <;> cases policy' <;> try cases hpolicy
  case none.none =>
    refine Write.filter_map_congr (fun _ => rfl) (fun _ => rfl) ?_ Sheet.defaultOrder
    intro role
    rw [defaultWrite, defaultWrite, hdefaults]
  case some.some p p' =>
    refine Write.filter_map_congr (fun _ => rfl) (fun _ => rfl) ?_ Sheet.policyOrder
    intro role
    have hsupplied : p.supplied role mode = p'.supplied role mode := by
      rw [Policy.supplied, Policy.supplied, hpolicy role]
    rw [Context.policyWrite, Context.policyWrite, hsupplied, chosen_congr hdefaults]

theorem ofMode_themed (hpolicy : SamePolicy mode policy policy') :
    ofMode (themed defaults policy).value.1.properties mode =
      ofMode (themed defaults' policy').value.1.properties mode := by
  rw [sheet_themed, sheet_themed, ofMode_putAll_congr (t := .empty) rfl,
    ofMode_putAll_congr (t := .empty) rfl (themeWrites defaults' policy'),
    filter_themeWrites hdefaults hpolicy]

end themed

/-! ### Runs -/

theorem legible_selection (defaults : Defaults) (policy : Option Policy) (modes : List Mode)
    {e : String × String}
    (he : e ∈ (selection (themed defaults policy).value.1.properties modes).toList) :
    Style.Legible e := by
  have hcolored : Sheet.empty.Colored := nofun
  rw [selection_eq, sheet_themed] at he
  exact (Sheet.Coherent.empty.putAll _).legible (hcolored.putAll (themeWrites defaults policy))
    (List.mem_filter.1 he).1

theorem run_readPolicy (path : Option String) (s : Surroundings) :
    ((readPolicy path).run s).2 = s := by
  have htext (path : String) : ((readPolicyText path).run s).2 = s := by
    unfold readPolicyText
    split
    · rw [Plan.run]
      split <;> rfl
    · rw [Plan.run]
      split <;> rfl
  cases path with
  | none => rfl
  | some path =>
    rw [readPolicy, Plan.run_bind]
    split
    · exact htext path
    · split <;> exact htext path

/-- The command ends well and prints a text. -/
def Prints (a : ApplyArguments) (settings : Settings) (s : Surroundings) (text : String) : Prop :=
  ((runApply a settings).run s).1 = .ok () ∧
    ((runApply a settings).run s).2.output = s.output ++ text

theorem prints_of_readPolicy {a : ApplyArguments} {settings : Settings} {s : Surroundings}
    {policy : Option Policy} (hread : ((readPolicy a.policy).run s).1 = .ok policy) :
    Prints a settings s (writeSelection a.format a.selector
      (selection (themed settings.defaults policy).value.1.properties a.modes)
      (themed settings.defaults policy).value.2) := by
  have hrun : (runApply a settings).run s = _ := Plan.run_bind (readPolicy a.policy) _ s
  rw [hread, run_readPolicy] at hrun
  rw [Prints, hrun]
  simp

/-- Properties and something else, as an object. -/
def propertiesJson (entries : List (String × String)) (fallbacks : Json) : Json :=
  .record [("properties", .record (entries.map fun e => (e.1, .text e.2))),
    ("fallbacks", fallbacks)]

/-- What runs of the command show of a mode, alone and among both, in either format. -/
structure Shows (path : Option String) (settings : Settings) (s : Surroundings) (mode : Mode)
    (p : Properties) : Prop where
  css : ∀ selector, Prints ⟨path, [mode], .css, selector⟩ settings s (p.css selector)
  json : ∀ selector, ∃ fallbacks, Prints ⟨path, [mode], .json, selector⟩ settings s
    (jsonLines (propertiesJson p.toList fallbacks))
  css_both : ∀ selector, ∃ text entries, Prints ⟨path, Mode.all, .css, selector⟩ settings s text ∧
    Style.readRule? selector text = some entries ∧
    entries.filter (fun e => isOfMode mode e.1) = p.toList
  json_both : ∀ selector, ∃ entries fallbacks, Prints ⟨path, Mode.all, .json, selector⟩ settings s
    (jsonLines (propertiesJson entries fallbacks)) ∧
    entries.filter (fun e => isOfMode mode e.1) = p.toList

theorem shows_of_readPolicy {path : Option String} {settings : Settings} {s : Surroundings}
    {policy : Option Policy} (hread : ((readPolicy path).run s).1 = .ok policy) (mode : Mode) :
    Shows path settings s mode
      (ofMode (themed settings.defaults policy).value.1.properties mode) := by
  have hlegible := fun e => legible_selection settings.defaults policy Mode.all (e := e)
  generalize htheme : themed settings.defaults policy = theme at hlegible ⊢
  have hprints (modes : List Mode) (format : SheetFormat) (selector : String) :
      Prints ⟨path, modes, format, selector⟩ settings s (writeSelection format selector
        (selection theme.value.1.properties modes) theme.value.2) := by
    rw [← htheme]
    exact prints_of_readPolicy hread
  have hfilter : (selection theme.value.1.properties Mode.all).toList.filter
      (fun e => isOfMode mode e.1) = (ofMode theme.value.1.properties mode).toList := by
    rw [← toList_ofMode, ofMode_selection_all]
  refine { css := ?_, json := ?_, css_both := ?_, json_both := ?_ }
  · intro selector
    rw [← selection_singleton]
    exact hprints [mode] .css selector
  · intro selector
    rw [← selection_singleton]
    exact ⟨_, hprints [mode] .json selector⟩
  · intro selector
    exact ⟨_, _, hprints Mode.all .css selector, Style.readRule?_css hlegible selector, hfilter⟩
  · intro selector
    exact ⟨_, _, hprints Mode.all .json selector, hfilter⟩

/-- **The modes do not influence each other.**  Runs that read policies with the same colors for a
mode, or none, and are configured with the same defaults for it, show the same of it: alone the
same rule and the same object of properties, and among both modes the same under its names. -/
theorem modes_apart {path path' : Option String} {settings settings' : Settings}
    {s s' : Surroundings} {policy policy' : Option Policy} {mode : Mode}
    (hread : ((readPolicy path).run s).1 = .ok policy)
    (hread' : ((readPolicy path').run s').1 = .ok policy')
    (hpolicy : SamePolicy mode policy policy')
    (hdefaults : ∀ role, settings.defaults.get role mode = settings'.defaults.get role mode) :
    ∃ p, Shows path settings s mode p ∧ Shows path' settings' s' mode p := by
  have hshows : Shows path settings s mode _ := shows_of_readPolicy hread mode
  rw [ofMode_themed hdefaults hpolicy] at hshows
  exact ⟨_, hshows, shows_of_readPolicy hread' mode⟩

def ofInput (text : String) : Surroundings := ⟨.empty, .ok text, "", []⟩

/-- Settings with a dark text color that cannot be read on a dark background. -/
def blackText : Settings := ⟨none, Defaults.builtin.set .text .dark .black⟩

/-- A primary color for the light mode, and one that cannot be read for the dark one. -/
def unreadableDark : Policy := ⟨.ofFn fun role mode =>
  if role = .primary then some (if mode = .light then "#0f0" else "nope") else none⟩

/-- The same color for the light mode, and a background for the dark one that is light. -/
def unsuitableDark : Policy := ⟨.ofFn fun role mode =>
  match role, mode with
  | .primary, .light => some "#0f0"
  | .background, .dark => some "#fff"
  | _, _ => none⟩

/-- An object and a list of colors give the same light theme, though they and the defaults differ in
what they say of the dark one. -/
theorem modes_apart_inputs :
    let s := ofInput "\x7b\"primaryColor\": \"#0f0\", \"primaryColorDark\": \"nope\"\x7d"
    let s' := ofInput "[\"#0f0\", null, null, null, null, \"#fff\"]"
    let a : ApplyArguments := ⟨some "-", [.light], .css, ":root"⟩
    let plain : Settings := ⟨none, .builtin⟩
    unreadableDark ≠ unsuitableDark ∧ ((runApply a plain).run s).1 = .ok () ∧
      ((runApply a blackText).run s').2.output = ((runApply a plain).run s).2.output := by
  intro s s' a plain
  have hread : ((readPolicy (some "-")).run s).1 = .ok (some unreadableDark) := by decide +kernel
  have hread' : ((readPolicy (some "-")).run s').1 = .ok (some unsuitableDark) := by decide +kernel
  have hpolicy : SamePolicy .light (some unreadableDark) (some unsuitableDark) := by
    intro role
    cases role <;> rfl
  have hdefaults (role : Role) :
      plain.defaults.get role .light = blackText.defaults.get role .light := by
    rw [blackText, Slots.get_set, if_neg (by simp)]
  obtain ⟨p, hshows, hshows'⟩ := modes_apart hread hread' hpolicy hdefaults
  have hprints : Prints a plain s (p.css ":root") := hshows.css ":root"
  have hprints' : Prints a blackText s' (p.css ":root") := hshows'.css ":root"
  exact ⟨by decide, hprints.1, hprints'.2.trans hprints.2.symm⟩

end Command

end ColorTheme
