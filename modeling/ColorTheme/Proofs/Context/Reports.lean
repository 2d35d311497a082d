import ColorTheme.Proofs.Context.Covering
import ColorTheme.Proofs.Screening

/-!
# Reports of a policy

A policy is reported on slot by slot, and each report comes with a notice of its own.  A slot is
reported on exactly if a color was supplied for it and the screening rejects it; then the default is
written, and otherwise the supplied color.  The color that a report names is the one that was
written, but for the alpha of a text color.
-/

namespace ColorTheme

theorem Policy.supplied_eq_some_iff {p : Policy} {role : Role} {mode : Mode} {text : String} :
    p.supplied role mode = some text ↔
      p.colors.get role mode = some text ∧ isBlankText text = false := by
  rw [supplied, Option.filter_eq_some_iff, Bool.not_eq_true']

/-! ### Notices of rejected colors -/

/-- The notice of a rejected color, told by its wording. -/
def Notice.isRejection (n : Notice) : Bool :=
  n.record.level = .info ∧
    n.record.message = "supplied color rejected, falling back to default"

/-- The notice that comes with a report. -/
def Fallback.notice (defaults : Defaults) (f : Fallback) : Notice :=
  .colorRejected f.role f.mode f.supplied (defaults.get f.role f.mode) f.rejection

theorem Fallback.isRejection_notice (defaults : Defaults) (f : Fallback) :
    (f.notice defaults).isRejection = true := by
  simp [notice, Notice.isRejection, Notice.record, Record.event]

namespace Sheet

theorem mem_policyOrder (slot : Role × Mode) : slot ∈ policyOrder := by
  rw [policyOrder, List.mem_flatMap]
  exact ⟨slot.1, Role.mem_all _, List.mem_map.2 ⟨slot.2, Mode.mem_all _, rfl⟩⟩

theorem nodup_policyOrder : policyOrder.Nodup := by decide

theorem notices_write (s : Sheet) (role : Role) (mode : Mode) (color : Color) :
    (s.write role mode color).notices = (empty.write role mode color).notices := by
  unfold write
  split <;> rfl

theorem isRejection_of_mem_write {role : Role} {mode : Mode} {color : Color} {n : Notice}
    (h : n ∈ (empty.write role mode color).notices) : n.isRejection = false := by
  unfold write at h
  split at h <;> simp only [writePalette, writeText, List.mem_cons, List.not_mem_nil, or_false] at h
  · rcases h with rfl | rfl | rfl <;>
      simp [Notice.isRejection, Notice.record, Record.event, Record.opening]
  · rcases h with rfl | rfl <;>
      simp [Notice.isRejection, Notice.record, Record.event, Record.opening]

/-! ### The choice of a color -/

section choose
variable {defaults : Defaults} {role : Role} {mode : Mode}

theorem choose_of_ok {supplied : Option String} {color : Color}
    (h : screen role supplied mode = .ok color) :
    choose defaults role supplied mode = ⟨[], color, none⟩ := by
  rw [choose, h]
  rfl

theorem choose_none :
    choose defaults role none mode = ⟨[], defaults.get role mode, some .missing⟩ := rfl

theorem choose_of_rejected {text : String} {rejection : Rejection}
    (hblank : isBlankText text = false) (h : screen role (some text) mode = .error rejection) :
    choose defaults role (some text) mode =
      ⟨[.colorRejected role mode text (defaults.get role mode) rejection],
        defaults.get role mode, some rejection⟩ := by
  have hdiagnostic : rejection.isDiagnostic = true :=
    Rejection.isDiagnostic_iff.2 (rejection_of_screen hblank h).1
  rw [choose, h]
  simp only [hdiagnostic, if_true]
  rfl

end choose

end Sheet

namespace Context

variable {defaults : Defaults} {policy : Policy}

/-! ### One slot -/

/-- What is written for a slot of a policy. -/
def policyWrite (defaults : Defaults) (policy : Policy) (slot : Role × Mode) : Write :=
  ⟨slot.1, slot.2, chosen defaults slot.1 (policy.supplied slot.1 slot.2) slot.2⟩

theorem writes_applyPolicy (defaults : Defaults) (policy : Policy) :
    writes defaults (.applyPolicy policy) =
      Sheet.policyOrder.map (policyWrite defaults policy) := rfl

/-- What is noticed for a slot of a policy. -/
def slotNotices (defaults : Defaults) (policy : Policy) (slot : Role × Mode) : List Notice :=
  let w := policyWrite defaults policy slot
  (Sheet.choose defaults slot.1 (policy.supplied slot.1 slot.2) slot.2).notices ++
    (Sheet.empty.write w.role w.mode w.color).notices

section slot
variable {slot : Role × Mode} {text : String}

theorem report?_of_none (h : policy.supplied slot.1 slot.2 = none) :
    report? defaults policy slot = none := by
  rw [report?, h]
  rfl

theorem report?_of_ok (hsupplied : policy.supplied slot.1 slot.2 = some text) {color : Color}
    (hscreen : screen slot.1 (some text) slot.2 = .ok color) :
    report? defaults policy slot = none := by
  simp only [report?, hsupplied, Sheet.choose_of_ok hscreen, Sheet.fallback?]

theorem report?_of_rejected (hsupplied : policy.supplied slot.1 slot.2 = some text)
    {rejection : Rejection} (hscreen : screen slot.1 (some text) slot.2 = .error rejection) :
    report? defaults policy slot =
      some ⟨slot.1, slot.2, text, rejection, (defaults.get slot.1 slot.2).hex⟩ := by
  have hblank := (Policy.supplied_eq_some_iff.1 hsupplied).2
  have hdiagnostic : rejection.isDiagnostic = true :=
    Rejection.isDiagnostic_iff.2 (rejection_of_screen hblank hscreen).1
  simp only [report?, hsupplied, Sheet.choose_of_rejected hblank hscreen, Sheet.fallback?,
    hdiagnostic, if_true]

/-- **A slot is reported on** if a color was supplied for it and rejected. -/
theorem report?_eq_some_iff {f : Fallback} :
    report? defaults policy slot = some f ↔
      ∃ text rejection, policy.supplied slot.1 slot.2 = some text ∧
        screen slot.1 (some text) slot.2 = .error rejection ∧
        f = ⟨slot.1, slot.2, text, rejection, (defaults.get slot.1 slot.2).hex⟩ := by
  constructor
  · intro hreport
    cases hsupplied : policy.supplied slot.1 slot.2 with
    | none =>
      rw [report?_of_none hsupplied] at hreport
      cases hreport
    | some text =>
      cases hscreen : screen slot.1 (some text) slot.2 with
      | ok color =>
        rw [report?_of_ok hsupplied hscreen] at hreport
        cases hreport
      | error rejection =>
        rw [report?_of_rejected hsupplied hscreen] at hreport
        exact ⟨text, rejection, rfl, hscreen, (Option.some.inj hreport).symm⟩
  · rintro ⟨text, rejection, hsupplied, hscreen, rfl⟩
    exact report?_of_rejected hsupplied hscreen

/-- The choice for a slot is noticed exactly if it is reported. -/
theorem notices_choose (slot : Role × Mode) :
    (Sheet.choose defaults slot.1 (policy.supplied slot.1 slot.2) slot.2).notices =
      (report? defaults policy slot).toList.map (Fallback.notice defaults) := by
  cases hsupplied : policy.supplied slot.1 slot.2 with
  | none =>
    rw [Sheet.choose_none, report?_of_none hsupplied]
    rfl
  | some text =>
    cases hscreen : screen slot.1 (some text) slot.2 with
    | ok color =>
      rw [Sheet.choose_of_ok hscreen, report?_of_ok hsupplied hscreen]
      rfl
    | error rejection =>
      have hblank := (Policy.supplied_eq_some_iff.1 hsupplied).2
      rw [Sheet.choose_of_rejected hblank hscreen, report?_of_rejected hsupplied hscreen]
      rfl

end slot

/-! ### All slots -/

/-- The reports are those of the slots whose color was rejected. -/
theorem mem_reports_iff {f : Fallback} :
    f ∈ Sheet.policyOrder.filterMap (report? defaults policy) ↔
      policy.supplied f.role f.mode = some f.supplied ∧
        screen f.role (some f.supplied) f.mode = .error f.rejection ∧
        f.used = (defaults.get f.role f.mode).hex := by
  rw [List.mem_filterMap]
  constructor
  · rintro ⟨slot, -, hreport⟩
    obtain ⟨text, rejection, hsupplied, hscreen, rfl⟩ := report?_eq_some_iff.1 hreport
    exact ⟨hsupplied, hscreen, rfl⟩
  · rintro ⟨hsupplied, hscreen, hused⟩
    have hreport : report? defaults policy (f.role, f.mode) =
        some ⟨f.role, f.mode, f.supplied, f.rejection, (defaults.get f.role f.mode).hex⟩ :=
      report?_of_rejected hsupplied hscreen
    refine ⟨(f.role, f.mode), Sheet.mem_policyOrder _, ?_⟩
    rw [hreport, ← hused]

theorem map_reports (slots : List (Role × Mode)) :
    (slots.filterMap (report? defaults policy)).map (fun f => (f.role, f.mode)) =
      slots.filter fun slot => (report? defaults policy slot).isSome := by
  induction slots with
  | nil => rfl
  | cons slot rest ih =>
    rw [List.filterMap_cons, List.filter_cons]
    cases hreport : report? defaults policy slot with
    | none => exact ih
    | some f =>
      obtain ⟨text, rejection, -, -, rfl⟩ := report?_eq_some_iff.1 hreport
      rw [List.map_cons, ih]
      rfl

theorem notices_applyPolicy (s : Sheet) (defaults : Defaults) (policy : Policy) :
    (s.applyPolicy defaults policy).notices =
      Sheet.policyOrder.flatMap (slotNotices defaults policy) ++
        [.policyApplied (Sheet.policyOrder.filterMap (report? defaults policy)).length] := by
  have hslot (done : Sheet × List Fallback) (slot : Role × Mode) :
      (Sheet.applySlot defaults policy done slot).notices = slotNotices defaults policy slot := by
    simp only [Sheet.applySlot, Sheet.applyChosen, Noted.notices_bind, Noted.notices_pure,
      List.append_nil, slotNotices, policyWrite, chosen]
    rw [Sheet.notices_write]
  have hvalue := congrArg Prod.snd (value_applyPolicy s defaults policy)
  simp only [Sheet.applyPolicy, Noted.notices_bind, Noted.notices_note, Noted.notices_pure,
    Noted.notices_foldlM hslot, List.append_nil] at hvalue ⊢
  rw [← hvalue]
  rfl

/-- Of the notices of a policy, those of rejected colors are the notices of its reports. -/
theorem filter_notices_applyPolicy (s : Sheet) (defaults : Defaults) (policy : Policy) :
    (s.applyPolicy defaults policy).notices.filter Notice.isRejection =
      (Sheet.policyOrder.filterMap (report? defaults policy)).map (Fallback.notice defaults) := by
  have hslot (slot : Role × Mode) :
      (slotNotices defaults policy slot).filter Notice.isRejection =
        (report? defaults policy slot).toList.map (Fallback.notice defaults) := by
    rw [slotNotices, notices_choose, List.filter_append, List.filter_eq_self.2,
      List.filter_eq_nil_iff.2, List.append_nil]
    · intro n hn
      rw [Sheet.isRejection_of_mem_write hn]
      exact Bool.false_ne_true
    · intro n hn
      obtain ⟨f, -, rfl⟩ := List.mem_map.1 hn
      exact f.isRejection_notice defaults
  have hend (n : Nat) : (Notice.policyApplied n).isRejection = false := by
    simp [Notice.isRejection, Notice.record, Record.event]
  rw [notices_applyPolicy, List.filter_append, List.filter_flatMap,
    List.filterMap_eq_flatMap_toList, List.map_flatMap, List.filter_singleton, hend, cond_false,
    List.append_nil]
  simp only [hslot]

/-! ### The whole report -/

theorem value_policy (c : Context) (policy : Policy) :
    (c.applyPolicy policy).value =
      ({ c with sheet := c.sheet.putAll (Sheet.policyOrder.map (policyWrite c.defaults policy)) },
        Sheet.policyOrder.filterMap (report? c.defaults policy)) := by
  rw [applyPolicy, Noted.value_bind, value_applyPolicy, writes_applyPolicy]
  rfl

theorem reports_policy (c : Context) (policy : Policy) : (c.applyPolicy policy).value.2 =
    Sheet.policyOrder.filterMap (report? c.defaults policy) := by rw [value_policy]

theorem notices_policy (c : Context) (policy : Policy) :
    (c.applyPolicy policy).notices = (c.sheet.applyPolicy c.defaults policy).notices :=
  List.append_nil _

theorem shows_policy (c : Context) (policy : Policy) (slot : Role × Mode) :
    (c.applyPolicy policy).value.1.sheet.Shows (policyWrite c.defaults policy slot) := by
  rw [value_policy]
  exact c.sheet.shows_of_isLast
    (Write.isLast_map (fun _ => rfl) Sheet.nodup_policyOrder (Sheet.mem_policyOrder slot))

/-- For a slot that is reported on the default is written. -/
theorem shows_of_mem_reports {c : Context} {policy : Policy} {f : Fallback}
    (hf : f ∈ Sheet.policyOrder.filterMap (report? c.defaults policy)) :
    (c.applyPolicy policy).value.1.sheet.Shows ⟨f.role, f.mode, c.defaults.get f.role f.mode⟩ := by
  obtain ⟨hsupplied, hscreen, -⟩ := mem_reports_iff.1 hf
  have hshows := c.shows_policy policy (f.role, f.mode)
  rw [policyWrite, hsupplied, chosen_of_error hscreen] at hshows
  exact hshows

/-- The reports, the notices and the colors of a policy that was applied. -/
structure Reported (policy : Policy) (defaults : Defaults) (out : Noted (Context × List Fallback)) :
    Prop where
  /-- A slot is reported on if and only if its color is there, not blank, and rejected. -/
  listed_iff : ∀ role mode, (∃ f ∈ out.value.2, f.role = role ∧ f.mode = mode) ↔
    ∃ text rejection, policy.colors.get role mode = some text ∧ isBlankText text = false ∧
      screen role (some text) mode = .error rejection
  /-- No slot is reported on twice, and the reports are in the order of the roles and modes. -/
  ordered : (out.value.2.map fun f => (f.role, f.mode)).Sublist
    [(.primary, .dark), (.primary, .light), (.warn, .dark), (.warn, .light),
      (.background, .dark), (.background, .light), (.text, .dark), (.text, .light)]
  /-- A report tells the color as it was supplied, and why it was rejected. -/
  told : ∀ f ∈ out.value.2, policy.colors.get f.role f.mode = some f.supplied ∧
    screen f.role (some f.supplied) f.mode = .error f.rejection ∧
    f.rejection ≠ .missing ∧ f.rejection ≠ .malformed .empty
  /-- There is a notice for each report, in the same order. -/
  noticed : out.notices.filter Notice.isRejection = out.value.2.map (Fallback.notice defaults)
  /-- For a slot that is reported on the default is written. -/
  listed_shows : ∀ f ∈ out.value.2,
    out.value.1.sheet.Shows ⟨f.role, f.mode, defaults.get f.role f.mode⟩
  /-- For any other slot whose color is not blank this color is written. -/
  unlisted_shows : ∀ role mode text, policy.colors.get role mode = some text →
    isBlankText text = false → (∀ f ∈ out.value.2, ¬(f.role = role ∧ f.mode = mode)) →
    ∃ color, Color.parse text = .ok color ∧ out.value.1.sheet.Shows ⟨role, mode, color⟩

/-- **The report of a policy is exact**, on every context and for every policy. -/
theorem reported_applyPolicy (c : Context) (policy : Policy) :
    Reported policy c.defaults (c.applyPolicy policy) where
  listed_iff role mode := by
    rw [reports_policy]
    constructor
    · rintro ⟨f, hf, rfl, rfl⟩
      obtain ⟨hsupplied, hscreen, -⟩ := mem_reports_iff.1 hf
      obtain ⟨hcolor, hblank⟩ := Policy.supplied_eq_some_iff.1 hsupplied
      exact ⟨f.supplied, f.rejection, hcolor, hblank, hscreen⟩
    · rintro ⟨text, rejection, hcolor, hblank, hscreen⟩
      have hsupplied := Policy.supplied_eq_some_iff.2 ⟨hcolor, hblank⟩
      exact ⟨⟨role, mode, text, rejection, (c.defaults.get role mode).hex⟩,
        mem_reports_iff.2 ⟨hsupplied, hscreen, rfl⟩, rfl, rfl⟩
  ordered := by
    rw [reports_policy, map_reports]
    exact List.filter_sublist
  told f hf := by
    rw [reports_policy] at hf
    obtain ⟨hsupplied, hscreen, -⟩ := mem_reports_iff.1 hf
    obtain ⟨hcolor, hblank⟩ := Policy.supplied_eq_some_iff.1 hsupplied
    exact ⟨hcolor, hscreen, rejection_of_screen hblank hscreen⟩
  noticed := by
    rw [notices_policy, filter_notices_applyPolicy, reports_policy]
  listed_shows f hf := by
    rw [reports_policy] at hf
    exact shows_of_mem_reports hf
  unlisted_shows role mode text hcolor hblank hunlisted := by
    have hshows := c.shows_policy policy (role, mode)
    have hsupplied := Policy.supplied_eq_some_iff.2 ⟨hcolor, hblank⟩
    rw [reports_policy] at hunlisted
    cases hscreen : screen role (some text) mode with
    | ok color =>
      rw [policyWrite, hsupplied, chosen_of_ok hscreen] at hshows
      exact ⟨color, parse_of_screen hblank hscreen, hshows⟩
    | error rejection =>
      -- A rejected color would have been reported.
      let f : Fallback := ⟨role, mode, text, rejection, (c.defaults.get role mode).hex⟩
      have hf : f ∈ Sheet.policyOrder.filterMap (report? c.defaults policy) :=
        mem_reports_iff.2 ⟨hsupplied, hscreen, rfl⟩
      exact (hunlisted f hf ⟨rfl, rfl⟩).elim

/-! ### The color that a report names -/

/-- **A report names the default that was written**, by the digits of its channels.  For a role with
a palette this is the very text of the property; for the text the digits of the alpha follow in the
property if something shows through. -/
theorem used_applyPolicy (c : Context) (policy : Policy) :
    let out := (c.applyPolicy policy).value
    let properties := out.1.sheet.properties
    ∀ f ∈ out.2,
      let default := c.defaults.get f.role f.mode
      f.used = default.hex ∧
        (f.role.hasPalette = true →
          properties.get? (Style.shadeName f.mode f.role .s500) = some f.used) ∧
        (f.role = .text → properties.get? (Style.textName f.mode) =
          some (if default.isOpaque then f.used
            else f.used ++ String.ofList (hexByte default.alpha.byte))) := by
  intro out properties f hf default
  have hmem : f ∈ Sheet.policyOrder.filterMap (report? c.defaults policy) := by
    rw [← reports_policy]
    exact hf
  have hshows := shows_of_mem_reports hmem
  have hused : f.used = default.hex := (mem_reports_iff.1 hmem).2.2
  refine ⟨hused, ?_, ?_⟩
  · intro hrole
    rw [hused]
    exact hshows.get?_base hrole
  · intro hrole
    rw [hused, ← Color.hex8_eq]
    exact hshows.get?_text hrole

/-- An environment whose text color in dark mode lets something through. -/
def frosted (name : String) : Option String :=
  if name = "TINT_DARK_TEXT" then some "#ffffff80" else none

def frostedContext : Context := new (.memory .empty) (Settings.ofLookup frosted).value.defaults

/-- A policy with two colors that cannot be read. -/
def unreadable : Policy :=
  ⟨.ofFn fun role mode => if (role, mode) = (.primary, .light) ∨ (role, mode) = (.text, .dark)
    then some "nope" else none⟩

theorem frosted_defaults : frostedContext.defaults =
    Defaults.builtin.set .text .dark (.rgba 255 255 255 (Color.alphaOfByte 0x80)) := by
  decide +kernel

theorem reports_unreadable : (frostedContext.applyPolicy unreadable).value.2 =
    [⟨.primary, .light, "nope", .malformed (.malformed "nope"), "#5469d4"⟩,
      ⟨.text, .dark, "nope", .malformed (.malformed "nope"), "#ffffff"⟩] := by
  rw [reports_policy, frosted_defaults]
  decide +kernel

/-- The default of a palette is named as it was written, and the one of a text without its alpha. -/
theorem used_applyPolicy_frosted :
    let out := (frostedContext.applyPolicy unreadable).value
    (∃ f ∈ out.2, f.role = .primary ∧ f.mode = .light ∧ f.used = "#5469d4" ∧
      out.1.sheet.properties.get? (Style.shadeName .light .primary .s500) = some "#5469d4") ∧
    ∃ f ∈ out.2, f.role = .text ∧ f.mode = .dark ∧ f.used = "#ffffff" ∧
      out.1.sheet.properties.get? (Style.textName .dark) = some "#ffffff80" := by
  intro out
  have hused := used_applyPolicy frostedContext unreadable
  simp only [reports_unreadable, frosted_defaults, List.forall_mem_cons] at hused
  obtain ⟨⟨-, hprimary, -⟩, ⟨-, -, htext⟩, -⟩ := hused
  have hout : out.2 = _ := reports_unreadable
  rw [hout]
  refine ⟨⟨_, List.mem_cons_self, rfl, rfl, rfl, hprimary rfl⟩,
    ⟨_, List.mem_cons_of_mem _ List.mem_cons_self, rfl, rfl, rfl, ?_⟩⟩
  exact (htext trivial).trans (by decide +kernel)

/-- **A report does not tell the alpha of a text color**: it names `#ffffff` where `#ffffff80` was
written. -/
theorem used_without_alpha :
    let out := (frostedContext.applyPolicy unreadable).value
    ∃ f ∈ out.2, f.role = .text ∧ f.mode = .dark ∧ f.used = "#ffffff" ∧
      out.1.sheet.properties.get? (Style.textName .dark) = some "#ffffff80" := by
  intro out
  have hout : out.2 = _ := reports_unreadable
  have hshows := frostedContext.shows_policy unreadable (.text, .dark)
  rw [hout]
  refine ⟨_, List.mem_cons_of_mem _ List.mem_cons_self, rfl, rfl, rfl, ?_⟩
  rw [policyWrite, frosted_defaults] at hshows
  exact (hshows.get?_text rfl).trans (by decide +kernel)

end Context

end ColorTheme
