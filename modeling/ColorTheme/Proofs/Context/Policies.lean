import ColorTheme.Command.Selection
import ColorTheme.Proofs.Context.Reports

/-!
# Policies and what was there before

A policy writes every slot, so that nothing of what a context showed before is left.  What it shows
then can be reached slot by slot as well, in any order, and a policy that supplies nothing does what
the defaults do.
-/

namespace ColorTheme

theorem Sheet.mem_defaultOrder (slot : Role × Mode) : slot ∈ defaultOrder := by
  rw [defaultOrder, List.mem_flatMap]
  exact ⟨slot.2, Mode.mem_all _, List.mem_map.2 ⟨slot.1, Role.mem_all _, rfl⟩⟩

namespace Context

/-! ### Contexts with a history -/

/-- The context started with nothing written.  Since then calls were made on it, and other defaults
may have been given to it. -/
inductive Reached : Context → Prop
  | new (store : Store) (defaults : Defaults) : Reached (new store defaults)
  | after {c : Context} (call : Call) : Reached c → Reached (c.after call)
  | withDefaults {c : Context} (defaults : Defaults) : Reached c →
      Reached { c with defaults := defaults }

theorem Reached.coherent {c : Context} (h : c.Reached) : c.sheet.Coherent := by
  induction h with
  | new store defaults => exact Sheet.Coherent.empty
  | after call _ ih =>
    rw [(theme_after _ call).1]
    exact ih.putAll _
  | withDefaults defaults _ ih => exact ih

theorem Reached.afterAll {c : Context} (h : c.Reached) (calls : List Call) :
    (c.afterAll calls).Reached := by
  induction calls generalizing c with
  | nil => exact h
  | cons call rest ih => exact ih (h.after call)

/-! ### Slot by slot -/

/-- Writes a color that is only read, and the default if there is none or it cannot be read. -/
def applyPlainOrDefault (c : Context) (role : Role) (supplied : Option String) (mode : Mode) :
    Context :=
  match supplied.map fun color => c.applyPlain role color mode with
  | some (.ok done) => done.value
  | _ => (c.withSheet (c.sheet.writePalette role mode (c.defaults.get role mode))).value

/-- Does for one slot what a policy says about it. -/
def applyAlone (policy : Policy) (c : Context) (slot : Role × Mode) : Context :=
  let supplied := policy.supplied slot.1 slot.2
  match slot.1 with
  | .primary | .warn => c.applyPlainOrDefault slot.1 supplied slot.2
  | .background | .text => (c.applyScreened slot.1 supplied slot.2).value.1

/-- For a role that needs no tone, to be screened is to be read. -/
theorem applyPlainOrDefault_eq (c : Context) (policy : Policy) {role : Role} {mode : Mode}
    (hpalette : role.hasPalette = true) (htone : requiredTone role mode = none) :
    c.applyPlainOrDefault role (policy.supplied role mode) mode =
      { c with sheet := c.sheet.put (policyWrite c.defaults policy (role, mode)) } := by
  have hput (color : Color) : (c.sheet.writePalette role mode color).value =
      c.sheet.put ⟨role, mode, color⟩ := by
    rw [Sheet.put, Sheet.write, if_pos hpalette]
  rw [policyWrite, applyPlainOrDefault]
  cases hsupplied : policy.supplied role mode with
  | none =>
    rw [chosen_of_error (screen_none role mode), ← hput]
    rfl
  | some text =>
    have hscreen := screen_of_no_tone (Policy.supplied_eq_some_iff.1 hsupplied).2 htone
    rw [Option.map_some, applyPlain, Sheet.applyPlain]
    cases hparse : Color.parse text with
    | error e =>
      rw [hparse] at hscreen
      rw [chosen_of_error hscreen, ← hput]
      rfl
    | ok color =>
      rw [hparse] at hscreen
      rw [chosen_of_ok hscreen, ← hput]
      rfl

theorem applyAlone_eq (policy : Policy) (c : Context) (slot : Role × Mode) :
    c.applyAlone policy slot =
      { c with sheet := c.sheet.put (policyWrite c.defaults policy slot) } := by
  obtain ⟨role, mode⟩ := slot
  have hscreened : (c.applyScreened role (policy.supplied role mode) mode).value.1 =
      { c with sheet := c.sheet.put (policyWrite c.defaults policy (role, mode)) } := by
    rw [policyWrite, ← value_applyChosen]
    rfl
  cases role with
  | primary => exact c.applyPlainOrDefault_eq policy rfl rfl
  | warn => exact c.applyPlainOrDefault_eq policy rfl rfl
  | background => exact hscreened
  | text => exact hscreened

theorem foldl_applyAlone (policy : Policy) (c : Context) (slots : List (Role × Mode)) :
    slots.foldl (applyAlone policy) c =
      { c with sheet := c.sheet.putAll (slots.map (policyWrite c.defaults policy)) } := by
  induction slots generalizing c with
  | nil => rfl
  | cons slot rest ih => rw [List.foldl_cons, ih, applyAlone_eq, List.map_cons, Sheet.putAll_cons]

/-! ### Policies and defaults -/

variable {c c' : Context} {policy : Policy}

theorem supplied_of_blank (hblank : ∀ role mode text,
    policy.colors.get role mode = some text → isBlankText text = true) (role : Role) (mode : Mode) :
    policy.supplied role mode = none := by
  rw [Option.eq_none_iff_forall_ne_some]
  intro text hsupplied
  obtain ⟨hcolor, htext⟩ := Policy.supplied_eq_some_iff.1 hsupplied
  rw [hblank role mode text hcolor] at htext
  cases htext

theorem value_policy_of_blank (c : Context)
    (hsupplied : ∀ role mode, policy.supplied role mode = none) :
    (c.applyPolicy policy).value = (c.applyDefaults.value, []) := by
  have hwrite : policyWrite c.defaults policy =
      fun slot => ⟨slot.1, slot.2, c.defaults.get slot.1 slot.2⟩ := by
    funext slot
    rw [policyWrite, hsupplied, chosen_of_error (screen_none slot.1 slot.2)]
  have hreports : Sheet.policyOrder.filterMap (report? c.defaults policy) = [] := by
    rw [List.filterMap_eq_nil_iff]
    intro slot _
    exact report?_of_none (hsupplied slot.1 slot.2)
  have hmem (slot : Role × Mode) : slot ∈ Sheet.policyOrder ↔ slot ∈ Sheet.defaultOrder :=
    iff_of_true (Sheet.mem_policyOrder slot) (Sheet.mem_defaultOrder slot)
  -- The policy goes through the slots in another order than the defaults.
  have hsheet := c.sheet.putAll_reordered (f := policyWrite c.defaults policy) (fun _ => rfl)
    (by decide) Sheet.nodup_policyOrder hmem
  rw [value_policy, hreports, hsheet, hwrite, applyDefaults, withSheet, value_applyDefaults, writes]

theorem sheet_policy_eq (hc : c.sheet.Coherent) (hc' : c'.sheet.Coherent)
    (hdefaults : c'.defaults = c.defaults) (policy : Policy) :
    (c'.applyPolicy policy).value.1.sheet = (c.applyPolicy policy).value.1.sheet := by
  rw [value_policy, value_policy, hdefaults]
  exact hc'.putAll_eq (fun _ => rfl) hc Sheet.nodup_policyOrder Sheet.mem_policyOrder

/-- Defaults that were applied before a policy make no difference to it. -/
theorem applyPolicy_applyDefaults (hc : c.sheet.Coherent) (policy : Policy) :
    c.applyDefaults.value.applyPolicy policy = c.applyPolicy policy := by
  have hdefaulted : c.applyDefaults.value.sheet.Coherent := by
    rw [applyDefaults, withSheet, value_applyDefaults]
    exact hc.putAll _
  have hsheet := sheet_policy_eq hc hdefaulted rfl policy
  have hnotices : (c.applyDefaults.value.applyPolicy policy).notices =
      (c.applyPolicy policy).notices := by
    rw [notices_policy, notices_policy, notices_applyPolicy, notices_applyPolicy]
    rfl
  have hvalue : (c.applyDefaults.value.applyPolicy policy).value =
      (c.applyPolicy policy).value := by
    rw [value_policy, value_policy] at hsheet ⊢
    exact congrArg (fun sheet => (({ c with sheet := sheet } : Context),
      Sheet.policyOrder.filterMap (report? c.defaults policy))) hsheet
  exact congrArg₂ Noted.mk hnotices hvalue

/-- What a policy leaves of two contexts. -/
structure Settled (policy : Policy) (c c' : Context) : Prop where
  /-- Both show the same. -/
  same : (c'.applyPolicy policy).value.1.sheet = (c.applyPolicy policy).value.1.sheet
  /-- The slots may be done one by one, in any order. -/
  alone : ∀ order : List (Role × Mode), order.Nodup → (∀ slot, slot ∈ order) →
    order.foldl (applyAlone policy) c = (c.applyPolicy policy).value.1
  /-- A policy with nothing but blanks does what the defaults do, and there is nothing to report. -/
  blank : (∀ role mode text, policy.colors.get role mode = some text → isBlankText text = true) →
    (c.applyPolicy policy).value = (c.applyDefaults.value, [])
  /-- Defaults that were applied before make no difference. -/
  absorbed : c.applyDefaults.value.applyPolicy policy = c.applyPolicy policy

/-- **A policy settles everything**, whatever was done to the contexts that it is applied to, if
they have the same defaults. -/
theorem settled_applyPolicy (hc : c.Reached) (hc' : c'.Reached)
    (hdefaults : c'.defaults = c.defaults) (policy : Policy) : Settled policy c c' where
  same := sheet_policy_eq hc.coherent hc'.coherent hdefaults policy
  alone order hnodup hall := by
    have hmem (slot : Role × Mode) : slot ∈ order ↔ slot ∈ Sheet.policyOrder :=
      iff_of_true (hall slot) (Sheet.mem_policyOrder slot)
    rw [foldl_applyAlone, value_policy, c.sheet.putAll_reordered (fun _ => rfl)
      Sheet.nodup_policyOrder hnodup hmem]
  blank hblank := c.value_policy_of_blank (supplied_of_blank hblank)
  absorbed := applyPolicy_applyDefaults hc.coherent policy

/-- Nothing but blanks for the dark mode, and nothing at all for the light one. -/
def spaces : Policy := ⟨.ofFn fun _ mode => if mode = .dark then some "  " else none⟩

/-- A context that was painted and one that was not are settled in the same way. -/
theorem settled_applyPolicy_repainting :
    let painted := blank.afterAll repainting
    (painted.applyPolicy unreadable).value.1.sheet = (blank.applyPolicy unreadable).value.1.sheet ∧
      Sheet.policyOrder.reverse.foldl (applyAlone unreadable) blank =
        (blank.applyPolicy unreadable).value.1 ∧
      (painted.applyPolicy spaces).value = (painted.applyDefaults.value, []) ∧
      painted.applyDefaults.value.applyPolicy unreadable = painted.applyPolicy unreadable := by
  intro painted
  have hblank : blank.Reached := .new _ _
  have hpainted : painted.Reached := hblank.afterAll repainting
  have hdefaults : painted.defaults = blank.defaults := (theme_afterAll blank repainting).2
  have hspaces (role : Role) (mode : Mode) (text : String)
      (h : spaces.colors.get role mode = some text) : isBlankText text = true := by
    revert h
    cases role <;> cases mode <;> simp [spaces] <;> rintro rfl <;> decide
  have hsettled := settled_applyPolicy hblank hpainted hdefaults unreadable
  exact ⟨hsettled.same,
    hsettled.alone _ (List.nodup_reverse.2 Sheet.nodup_policyOrder) fun slot =>
      List.mem_reverse.2 (Sheet.mem_policyOrder slot),
    (settled_applyPolicy hpainted hblank hdefaults.symm spaces).blank hspaces,
    (settled_applyPolicy hpainted hblank hdefaults.symm unreadable).absorbed⟩

end Context

/-- **The command writes what the policy writes**, though it applies the defaults first. -/
theorem Command.value_themed (defaults : Defaults) (policy : Policy) :
    (themed defaults (some policy)).value = (Sheet.empty.applyPolicy defaults policy).value := by
  have hdefaulted : (Sheet.empty.putAll (Context.writes defaults .applyDefaults)).Coherent :=
    Sheet.Coherent.empty.putAll _
  have hsheet := hdefaulted.putAll_eq (f := Context.policyWrite defaults policy) (fun _ => rfl)
    Sheet.Coherent.empty Sheet.nodup_policyOrder Sheet.mem_policyOrder
  rw [themed, Noted.value_bind, Context.value_applyDefaults, Context.value_applyPolicy,
    Context.value_applyPolicy, Context.writes_applyPolicy, hsheet]

end ColorTheme
