import ColorTheme.Context.Basic
import ColorTheme.Proofs.Context.Writes

/-!
# Calls on a context

The calls that a context takes, and what each of them writes.  A call on the mode leaves the sheet
alone, and each of the others comes down to writes that can be told without the sheet: from the
arguments and the defaults, which no call changes.  So the sheet after any run of calls is the one
before it with all of their writes.
-/

namespace ColorTheme

namespace Context

/-! ### Calls -/

inductive Operation where
  | applyPrimary (color : String) (mode : Mode)
  | applyWarn (color : String) (mode : Mode)
  | applyBackground (supplied : Option String) (mode : Mode)
  | applyText (supplied : Option String) (mode : Mode)
  | applyDefaults
  | applyPolicy (policy : Policy)
  | setMode (mode : Mode)
  | toggle
  | resume
  | subscribe (listener : Listener)
  | unsubscribe (name : String)

/-- The context after a change that may fail: the same one if it does. -/
def orUnchanged (c : Context) : Except ColorError (Noted Context) → Plan Context
  | .ok done => .ofNoted done
  | .error _ => pure c

/-- Does what is asked; the answers are left out. -/
def perform (c : Context) : Operation → Plan Context
  | .applyPrimary color mode => c.orUnchanged (c.applyPlain .primary color mode)
  | .applyWarn color mode => c.orUnchanged (c.applyPlain .warn color mode)
  | .applyBackground supplied mode => do
    return (← Plan.ofNoted (c.applyScreened .background supplied mode)).1
  | .applyText supplied mode => do
    return (← Plan.ofNoted (c.applyScreened .text supplied mode)).1
  | .applyDefaults => .ofNoted c.applyDefaults
  | .applyPolicy policy => do return (← Plan.ofNoted (c.applyPolicy policy)).1
  | .setMode mode => do return (← c.setMode mode).1
  | .toggle => do return (← c.toggle).1
  | .resume => do return (← c.resume).1
  | .subscribe listener => pure (c.subscribe listener).1
  | .unsubscribe name => pure (c.unsubscribe name)

/-- An operation and the surroundings that it is carried out in, which anyone may have changed since
the last one. -/
structure Call where
  operation : Operation
  surroundings : Surroundings

def after (c : Context) (call : Call) : Context :=
  ((c.perform call.operation).run call.surroundings).1

def afterAll (c : Context) (calls : List Call) : Context := calls.foldl after c

/-! ### What a call writes -/

/-- The color that is written for a role: the supplied one or the default. -/
def chosen (defaults : Defaults) (role : Role) (supplied : Option String) (mode : Mode) : Color :=
  (Sheet.choose defaults role supplied mode).value.1

section chosen
variable {defaults : Defaults} {role : Role} {supplied : Option String} {mode : Mode}

theorem chosen_of_ok {color : Color} (h : screen role supplied mode = .ok color) :
    chosen defaults role supplied mode = color := by
  rw [chosen, Sheet.choose, h, Noted.value_pure]

theorem chosen_of_error {rejection : Rejection} (h : screen role supplied mode = .error rejection) :
    chosen defaults role supplied mode = defaults.get role mode := by
  rw [chosen, Sheet.choose, h]
  by_cases hreported : rejection.isDiagnostic = true <;> simp [hreported]

end chosen

/-- The write of a color that is only read. -/
def plainWrites (role : Role) (color : String) (mode : Mode) : List Write :=
  match Color.parse color with
  | .ok color => [⟨role, mode, color⟩]
  | .error _ => []

def writes (defaults : Defaults) : Operation → List Write
  | .applyPrimary color mode => plainWrites .primary color mode
  | .applyWarn color mode => plainWrites .warn color mode
  | .applyBackground supplied mode =>
    [⟨.background, mode, chosen defaults .background supplied mode⟩]
  | .applyText supplied mode => [⟨.text, mode, chosen defaults .text supplied mode⟩]
  | .applyDefaults =>
    Sheet.defaultOrder.map fun (role, mode) => ⟨role, mode, defaults.get role mode⟩
  | .applyPolicy policy =>
    Sheet.policyOrder.map fun (role, mode) =>
      ⟨role, mode, chosen defaults role (policy.supplied role mode) mode⟩
  | _ => []

/-- The report on a slot of a policy, if there is one. -/
def report? (defaults : Defaults) (policy : Policy) (slot : Role × Mode) : Option Fallback :=
  let supplied := policy.supplied slot.1 slot.2
  let choice := (Sheet.choose defaults slot.1 supplied slot.2).value
  Sheet.fallback? slot.1 slot.2 supplied choice.1 choice.2

/-! ### Calls on the mode -/

/-- The context after its listeners were told of a mode. -/
def told (c : Context) (mode : Mode) : Context := { c with cell := (c.cell.announce mode).1 }

/-- The mode that a store answers with, and dark if it fails. -/
def answered : Except StoreError (Option String) → Mode
  | .ok stored => storedMode stored
  | .error _ => .dark

theorem run_announce (c : Context) (mode : Mode) (s : Surroundings) :
    ((c.announce mode).run s).1 = (c.told mode, (c.cell.announce mode).2) := by
  simp [announce, told, Plan.run_andThen, Plan.run]

/-- Setting a mode changes the store and the listeners, and a store that fails stops neither. -/
theorem run_setMode (c : Context) (mode : Mode) (s : Surroundings) :
    ((c.setMode mode).run s).1 =
      ({ c with store := ((c.store.set themeKey mode.storedText).run s).1.1 }.told mode,
        (c.cell.announce mode).2) := by
  simp only [setMode, Plan.run_bind]
  split <;> simp only [Plan.run_bind, run_announce]

theorem run_resume (c : Context) (s : Surroundings) :
    (c.resume.run s).1 =
      (c.told (answered ((c.store.get themeKey).run s).1),
        (c.cell.announce (answered ((c.store.get themeKey).run s).1)).2) := by
  simp only [resume, Plan.run_bind]
  split <;> next hread => simp only [hread, Plan.run_bind, Plan.run_pure, run_announce, answered,
    storedMode, Option.elim]

/-! ### Calls on the sheet -/

theorem run_plain (c : Context) (role : Role) (hrole : role.hasPalette = true) (color : String)
    (mode : Mode) (s : Surroundings) :
    ((c.orUnchanged (c.applyPlain role color mode)).run s).1 =
      { c with sheet := c.sheet.putAll (plainWrites role color mode) } := by
  unfold applyPlain Sheet.applyPlain plainWrites
  cases Color.parse color with
  | error e => rfl
  | ok color =>
    simp [Except.map, orUnchanged, withSheet, Sheet.put, Sheet.write, hrole]

theorem value_applyChosen (s : Sheet) (defaults : Defaults) (role : Role)
    (supplied : Option String) (mode : Mode) :
    (s.applyChosen defaults role supplied mode).value.1 =
      s.put ⟨role, mode, chosen defaults role supplied mode⟩ := by
  simp [Sheet.applyChosen, Sheet.put, chosen]

theorem value_applyDefaults (s : Sheet) (defaults : Defaults) :
    (s.applyDefaults defaults).value = s.putAll (writes defaults .applyDefaults) := by
  rw [Sheet.applyDefaults, Noted.value_foldlM, writes, Sheet.putAll, List.foldl_map]
  rfl

theorem value_applyPolicy (s : Sheet) (defaults : Defaults) (policy : Policy) :
    (s.applyPolicy defaults policy).value =
      (s.putAll (writes defaults (.applyPolicy policy)),
        Sheet.policyOrder.filterMap (report? defaults policy)) := by
  -- The reports of the slots are collected beside the sheet, which does not depend on them.
  have hslots (slots : List (Role × Mode)) (done : Sheet × List Fallback) :
      slots.foldl (fun d slot => (Sheet.applySlot defaults policy d slot).value) done =
        (done.1.putAll (slots.map fun (role, mode) =>
          ⟨role, mode, chosen defaults role (policy.supplied role mode) mode⟩),
          done.2 ++ slots.filterMap (report? defaults policy)) := by
    induction slots generalizing done with
    | nil => simp
    | cons slot rest ih =>
      have hslot := value_applyChosen done.1 defaults slot.1
        (policy.supplied slot.1 slot.2) slot.2
      have hreport : (Sheet.applySlot defaults policy done slot).value.2 =
          done.2 ++ (report? defaults policy slot).toList := rfl
      rw [List.foldl_cons, ih, hreport, List.map_cons, Sheet.putAll_cons, ← hslot,
        List.append_assoc, List.filterMap_cons]
      cases report? defaults policy slot <;> rfl
  simp only [Sheet.applyPolicy, Noted.value_bind, Noted.value_pure, Noted.value_foldlM]
  exact hslots Sheet.policyOrder (s, [])

/-! ### One call and many -/

/-- The operation is on the sheet. -/
def Operation.paints : Operation → Bool
  | .applyPrimary .. | .applyWarn .. | .applyBackground .. | .applyText ..
  | .applyDefaults | .applyPolicy _ => true
  | _ => false

/-- **A call on the sheet** leaves it with its writes, and everything else as it is. -/
theorem after_of_paints (c : Context) {operation : Operation} (h : operation.paints = true)
    (s : Surroundings) : c.after ⟨operation, s⟩ =
      { c with sheet := c.sheet.putAll (writes c.defaults operation) } := by
  cases operation with
  | applyPrimary color mode => exact c.run_plain .primary rfl color mode s
  | applyWarn color mode => exact c.run_plain .warn rfl color mode s
  | applyBackground supplied mode =>
    simp [after, perform, applyScreened, writes, value_applyChosen]
  | applyText supplied mode =>
    simp [after, perform, applyScreened, writes, value_applyChosen]
  | applyDefaults =>
    simp [after, perform, applyDefaults, withSheet, value_applyDefaults]
  | applyPolicy policy =>
    simp [after, perform, applyPolicy, value_applyPolicy]
  | _ => cases h

/-- **A call leaves the sheet with its writes, and the defaults as they are.** -/
theorem theme_after (c : Context) (call : Call) :
    (c.after call).sheet = c.sheet.putAll (writes c.defaults call.operation) ∧
      (c.after call).defaults = c.defaults := by
  obtain ⟨operation, s⟩ := call
  cases hpaints : operation.paints with
  | true =>
    rw [c.after_of_paints hpaints]
    exact ⟨rfl, rfl⟩
  | false =>
    cases operation with
    | setMode mode => simp [after, perform, run_setMode, told, writes]
    | toggle => simp [after, perform, toggle, run_setMode, told, writes]
    | resume => simp [after, perform, run_resume, told, writes]
    | subscribe listener => exact ⟨rfl, rfl⟩
    | unsubscribe name => exact ⟨rfl, rfl⟩
    | _ => cases hpaints

/-- The sheet after a run of calls has the writes of all of them in order. -/
theorem theme_afterAll (c : Context) (calls : List Call) :
    (c.afterAll calls).sheet =
        c.sheet.putAll (calls.flatMap fun call => writes c.defaults call.operation) ∧
      (c.afterAll calls).defaults = c.defaults := by
  induction calls generalizing c with
  | nil => exact ⟨rfl, rfl⟩
  | cons call rest ih =>
    -- No call changes the defaults, so the writes of the rest can be told from those at the start.
    obtain ⟨hsheet, hdefaults⟩ := theme_after c call
    obtain ⟨ihsheet, ihdefaults⟩ := ih (c.after call)
    rw [hdefaults] at ihsheet ihdefaults
    rw [hsheet, ← Sheet.putAll_append] at ihsheet
    rw [List.flatMap_cons]
    exact ⟨ihsheet, ihdefaults⟩

end Context

end ColorTheme
