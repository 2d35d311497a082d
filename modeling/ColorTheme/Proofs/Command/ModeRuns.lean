import ColorTheme.Command.Run
import ColorTheme.Proofs.Context.Announcing
import ColorTheme.Proofs.Json.Values
import ColorTheme.Proofs.Store.Refinement

/-!
# Runs of the mode command

Each run of the mode command is a process of its own, and what one run leaves to the next is the
preference file.  Seen over many runs the command is a machine with two states: it is in the mode that
the file remembers, and each action reports the mode that it leads to.
-/

namespace ColorTheme

def ModeAction.next : ModeAction → Mode → Mode
  | .showMode, mode => mode
  | .setMode target, _ => target
  | .toggle, mode => mode.toggled

theorem ModeAction.next_of_not_writes {action : ModeAction} (h : action.writes = false)
    (mode : Mode) : action.next mode = mode := by
  cases action with
  | showMode => rfl
  | setMode target => cases h
  | toggle => cases h

namespace Command

open Store

variable {path : String} {s : Surroundings}

/-! ### One run -/

/-- The files after an action that leads to a mode. -/
def filesAfter (action : ModeAction) (mode : Mode) (path : String) (s : Surroundings) : FileTree :=
  if action.writes then (((Store.file path).set themeKey mode.storedText).run s).2.files else s.files

/-- What a run prints, or why it fails, by what the file says in the end. -/
def verdict (a : ModeArguments) (mode : Mode) (path : String) :
    Except StoreError (SortedMap String) → Except Failure String
  | .error e => .error (.store e)
  | .ok items =>
    if a.action.writes ∧ items.get? themeKey ≠ some mode.storedText then
      .error (.notPersisted mode path)
    else .ok (modeOutput a.json mode (items.get? themeKey) path)

theorem verdict_ok {a : ModeArguments} {mode : Mode} {items : SortedMap String}
    (h : a.action.writes = true → items.get? themeKey = some mode.storedText) :
    verdict a mode path (.ok items) = .ok (modeOutput a.json mode (items.get? themeKey) path) := by
  rw [verdict, if_neg]
  rintro ⟨hwrites, hother⟩
  exact hother (h hwrites)

/-- What a run prints: the name of the mode on a line, or an object that says what is stored as well. -/
inductive Printed (mode : Mode) (stored path : String) : Bool → String → Prop
  | line : Printed mode stored path false (mode.name ++ "\n")
  | object {text : String} : Json.Document
      (.record [("mode", .text mode.name), ("stored", .text stored), ("store", .text path)])
      text.toList → Printed mode stored path true text

theorem printed_modeOutput (json : Bool) (mode : Mode) (stored : Option String) (path : String) :
    Printed mode (stored.getD "") path json (modeOutput json mode stored path) := by
  cases json with
  | false => exact .line
  | true => exact .object (Json.document_pretty (modeJson mode stored path))

theorem run_perform {c : Context} (h : c.IsOn path) (action : ModeAction) (s : Surroundings) :
    ∃ c' notices, (perform c action).run s = (c', { s with
        files := filesAfter action (action.next c.mode) path s
        notices := notices }) ∧ c'.IsOn path ∧ c'.mode = action.next c.mode := by
  have hset (mode : Mode) : ∃ c' notices, (c.setMode mode >>= fun r => pure r.1).run s = (c', { s with
      files := (((Store.file path).set themeKey mode.storedText).run s).2.files
      notices := notices }) ∧ c'.IsOn path ∧ c'.mode = mode := by
    obtain ⟨c', outcome, notices, hrun, hon, hmode⟩ := h.run_setMode mode s
    refine ⟨c', notices, ?_, hon, hmode⟩
    rw [Plan.run_bind, hrun]
    rfl
  cases action with
  | showMode => exact ⟨c, s.notices, rfl, h, rfl⟩
  | setMode target => exact hset target
  | toggle => exact hset c.mode.toggled

theorem unhindered_of_perform {c : Context} (h : c.IsOn path) {action : ModeAction}
    (hwrites : action.writes = true) (hperform : (perform c action).unhindered s = true) :
    ((Store.file path).set themeKey (action.next c.mode).storedText).unhindered s = true := by
  cases action with
  | showMode => cases hwrites
  | setMode target =>
    rw [perform, Plan.unhindered_bind, Bool.and_eq_true] at hperform
    exact h.unhindered_of_setMode hperform.1
  | toggle =>
    rw [perform, Plan.unhindered_bind, Bool.and_eq_true] at hperform
    exact h.unhindered_of_setMode hperform.1

/-- **A run** resumes the mode that the file remembers, performs the action, and judges by what the file
says then.  It reports before and after it writes. -/
theorem run_runModeOn (a : ModeArguments) {mode : Mode}
    (hmode : a.action.next (Context.storedMode (remembered s.files path)) = mode) :
    ∃ before notices files, files = filesAfter a.action mode path { s with notices := before } ∧
      (runModeOn a path).run s =
        ((verdict a mode path (loaded files path)).map fun _ => (), { s with
          files := files
          output := s.output ++ (verdict a mode path (loaded files path)).toOption.getD ""
          notices := notices }) ∧
      ((runModeOn a path).unhindered s = true → a.action.writes = true →
        ((Store.file path).set themeKey mode.storedText).unhindered { s with notices := before } =
          true) := by
  obtain ⟨c, outcome, before, hresume, hon, hresumed⟩ :=
    (Context.isOn_new path .builtin).run_resume s
  rw [← hresumed] at hmode
  obtain ⟨c', between, hperform, hon', hmode'⟩ :=
    run_perform hon a.action { s with notices := before }
  rw [hmode] at hperform hmode'
  obtain ⟨files, hfiles⟩ : ∃ files, files = filesAfter a.action mode path { s with notices := before } :=
    ⟨_, rfl⟩
  rw [← hfiles] at hperform
  obtain ⟨after, hget⟩ := run_get path themeKey { s with files := files, notices := between }
  refine ⟨before, after, files, hfiles, ?_, ?_⟩
  · rw [runModeOn, Plan.run_bind, hresume]
    dsimp only
    rw [Plan.run_bind, hperform, Plan.run_bind, hon'.store, hget]
    dsimp only
    cases loaded files path with
    | error e => simp [Except.map, Except.toOption, verdict]
    | ok items =>
      simp only [Except.map, verdict, hmode']
      split
      · simp [Except.toOption]
      · simp [Except.toOption]
  · intro hfree hwrites
    rw [runModeOn, Plan.unhindered_bind, hresume, Bool.and_eq_true] at hfree
    have hperformed := hfree.2
    rw [Plan.unhindered_bind, Bool.and_eq_true] at hperformed
    rw [← hmode]
    exact unhindered_of_perform hon hwrites hperformed.1

/-! ### Requests -/

/-- What a run of the mode command is given: its arguments, and the settings of its environment. -/
structure ModeRequest where
  values : ModeValues
  settings : Settings

namespace ModeRequest

/-- The action that is asked for; without one the mode is shown. -/
def action (r : ModeRequest) : ModeAction := r.values.action.getD .showMode

def path? (r : ModeRequest) : Option String := r.values.store.or r.settings.storePath

def plan (r : ModeRequest) : Plan (Except Failure Unit) := run r.settings r.values.command

def runAll : List ModeRequest → Plan (List (Except Failure Unit))
  | [] => return []
  | r :: rest => do return (← r.plan) :: (← runAll rest)

def modeAfter (history : List ModeRequest) (mode : Mode) : Mode :=
  history.foldl (fun mode r => r.action.next mode) mode

/-- What a run that reports a mode has printed, and what it has made of the items of the preference
file. -/
structure Reports (r : ModeRequest) (path : String) (mode : Mode) (held held' : SortedMap String)
    (s s' : Surroundings) : Prop where
  output : s'.output = s.output ++ modeOutput r.values.json mode (held'.get? themeKey) path
  printed : Printed mode ((held'.get? themeKey).getD "") path r.values.json
    (modeOutput r.values.json mode (held'.get? themeKey) path)
  shown : r.action.writes = false → s'.files = s.files ∧ held' = held
  stored : r.action.writes = true → held'.get? themeKey = some mode.storedText
  others : ∀ key, key ≠ themeKey → held'.get? key = held.get? key

variable {r : ModeRequest} {items : SortedMap String}

theorem plan_eq (h : r.path? = some path) :
    r.plan = runModeOn ⟨r.action, r.values.store, r.values.json⟩ path := by
  have hplan : r.plan = runMode ⟨r.action, r.values.store, r.values.json⟩ r.settings := rfl
  have hstore : r.values.store.or r.settings.storePath = some path := h
  rw [hplan, runMode, hstore]

theorem remembered_eq (hholds : Holds s.files path items) :
    remembered s.files path = items.get? themeKey := by
  rw [remembered, hholds.loaded_eq]
  rfl

/-- **One run** on a file that holds items: it succeeds, reports the mode that the action leads to, and
the file remembers that mode. -/
theorem run_reports (hholds : Holds s.files path items) (hpath : r.path? = some path)
    (hfree : r.plan.unhindered s = true) {mode : Mode}
    (hmode : r.action.next (Context.storedMode (items.get? themeKey)) = mode) :
    ∃ held s', r.plan.run s = (.ok (), s') ∧ Holds s'.files path held ∧
      Reports r path mode items held s s' ∧ Context.storedMode (held.get? themeKey) = mode := by
  rw [plan_eq hpath] at hfree ⊢
  rw [← remembered_eq hholds] at hmode
  obtain ⟨before, notices, files, hfiles, hrun, hset⟩ :=
    run_runModeOn ⟨r.action, r.values.store, r.values.json⟩ hmode
  rw [remembered_eq hholds] at hmode
  -- What the file holds after the run decides the rest.
  obtain ⟨held, hheld, hshown, hstored⟩ : ∃ held, Holds files path held ∧
      (r.action.writes = false → files = s.files ∧ held = items) ∧
      (r.action.writes = true → held = items.insert themeKey mode.storedText) := by
    rw [hfiles, filesAfter]
    cases hwrites : r.action.writes with
    | false => exact ⟨items, hholds, fun _ => ⟨rfl, rfl⟩, by simp⟩
    | true =>
      have hafter := run_set_of_unhindered (s := { s with notices := before }) hholds
        (hset hfree hwrites)
      exact ⟨_, hafter.2, by simp, fun _ => rfl⟩
  have htheme (hwrites : r.action.writes = true) : held.get? themeKey = some mode.storedText := by
    rw [hstored hwrites, SortedMap.get?_insert, if_pos rfl]
  rw [hheld.loaded_eq, verdict_ok htheme] at hrun
  refine ⟨held, _, hrun, hheld, ⟨rfl, printed_modeOutput _ _ _ _, hshown, htheme, ?_⟩, ?_⟩
  · intro key hkey
    cases hwrites : r.action.writes with
    | false => rw [(hshown hwrites).2]
    | true => rw [hstored hwrites, SortedMap.get?_insert, if_neg hkey]
  · cases hwrites : r.action.writes with
    | false =>
      rw [ModeAction.next_of_not_writes hwrites] at hmode
      rw [(hshown hwrites).2, hmode]
    | true =>
      rw [htheme hwrites]
      exact Mode.ofStored_storedText mode

/-- **Many runs** leave the file in the mode that their actions lead to. -/
theorem runAll_holds (hholds : Holds s.files path items) {history : List ModeRequest}
    (hpath : ∀ r ∈ history, r.path? = some path) (hfree : (runAll history).unhindered s = true) :
    ∃ held, Holds ((runAll history).run s).2.files path held ∧
      Context.storedMode (held.get? themeKey) =
        modeAfter history (Context.storedMode (items.get? themeKey)) := by
  induction history generalizing items s with
  | nil => exact ⟨items, hholds, rfl⟩
  | cons r rest ih =>
    rw [runAll, Plan.unhindered_bind, Bool.and_eq_true] at hfree
    obtain ⟨held, s', hrun, hheld, -, hmode⟩ :=
      run_reports hholds (hpath r List.mem_cons_self) hfree.1 rfl
    rw [hrun, Plan.unhindered_bind, Bool.and_eq_true] at hfree
    obtain ⟨held', hheld', hmode'⟩ :=
      ih hheld (fun q hq => hpath q (List.mem_cons_of_mem _ hq)) hfree.2.1
    refine ⟨held', ?_, ?_⟩
    · rw [runAll, Plan.run_bind, hrun, Plan.run_bind]
      exact hheld'
    · rw [hmode', hmode]
      rfl

/-! ### Runs on any files -/

/-- **A run that succeeds** in writing has reported the mode that the file remembers. -/
theorem stored_of_ok (hpath : r.path? = some path) (hwrites : r.action.writes = true)
    (hok : (r.plan.run s).1 = .ok ()) {mode : Mode}
    (hmode : r.action.next (Context.storedMode (remembered s.files path)) = mode) :
    (r.plan.run s).2.output =
        s.output ++ modeOutput r.values.json mode (some mode.storedText) path ∧
      (((Store.file path).get themeKey).run (r.plan.run s).2).1 = .ok (some mode.storedText) := by
  obtain ⟨before, notices, files, -, hrun, -⟩ :=
    run_runModeOn ⟨r.action, r.values.store, r.values.json⟩ hmode
  rw [← plan_eq hpath] at hrun
  obtain ⟨_, hget⟩ := run_get path themeKey (r.plan.run s).2
  rw [hget]
  rw [hrun] at hok ⊢
  dsimp only at hok ⊢
  cases hloaded : loaded files path with
  | error e =>
    rw [hloaded] at hok
    cases hok
  | ok items =>
    rw [hloaded, verdict] at hok
    rw [verdict]
    split at hok
    · cases hok
    · next hstored =>
      have htheme : items.get? themeKey = some mode.storedText := by
        by_contra hother
        exact hstored ⟨hwrites, hother⟩
      rw [if_neg hstored, htheme]
      exact ⟨rfl, congrArg Except.ok htheme⟩

/-- **A run that fails** keeps the preference file. -/
theorem kept_of_error (hpath : r.path? = some path) {f : Failure}
    (herror : (r.plan.run s).1 = .error f) : Kept s.files (r.plan.run s).2.files path := by
  obtain ⟨mode, hmode⟩ : ∃ mode,
      r.action.next (Context.storedMode (remembered s.files path)) = mode := ⟨_, rfl⟩
  obtain ⟨before, notices, files, hfiles, hrun, -⟩ :=
    run_runModeOn ⟨r.action, r.values.store, r.values.json⟩ hmode
  rw [← plan_eq hpath] at hrun
  rw [hrun] at herror ⊢
  dsimp only at herror ⊢
  rw [filesAfter] at hfiles
  cases hwrites : r.action.writes with
  | false =>
    rw [hwrites] at hfiles
    rw [hfiles]
    exact .refl _ _
  | true =>
    rw [hwrites, if_pos rfl] at hfiles
    have hsettled := kept_or_replaced (Plan.runs_run
      ((Store.file path).set themeKey mode.storedText) { s with notices := before })
    rw [← hfiles] at hsettled
    rcases hsettled with hkept | ⟨text, hchanged, hreplaced⟩
    · exact hkept
    · -- The new text would have been read again, and the run would not have failed.
      obtain ⟨items, -, hholds⟩ := hreplaced.holds hchanged
      rw [hholds.loaded_eq, verdict_ok] at herror
      · cases herror
      · intro _
        rw [SortedMap.get?_insert, if_pos rfl]

/-! ### Runs after runs -/

/-- **Runs of the mode command on one preference file.**

If the file held items at first and the steps on files succeed, the next run after any others
succeeds and reports the mode that the actions lead to from the one that was remembered at first.

On any files, a run that writes and succeeds has reported the mode that is stored then, and a run that
fails keeps the preference file. -/
theorem mode_runs (history : List ModeRequest) (r : ModeRequest) (s : Surroundings)
    (hpath : ∀ q ∈ r :: history, q.path? = some path) :
    let s' := ((runAll history).run s).2
    let s'' := (r.plan.run s').2
    (∀ items, Holds s.files path items → (runAll history).unhindered s = true →
      r.plan.unhindered s' = true →
        (r.plan.run s').1 = .ok () ∧ ∃ held held', Holds s'.files path held ∧
          Holds s''.files path held' ∧
          Reports r path
            (r.action.next (modeAfter history (Context.storedMode (items.get? themeKey))))
            held held' s' s'') ∧
    (r.action.writes = true → (r.plan.run s').1 = .ok () →
      let mode := r.action.next (Context.storedMode (remembered s'.files path))
      let text := modeOutput r.values.json mode (some mode.storedText) path
      s''.output = s'.output ++ text ∧ Printed mode mode.storedText path r.values.json text ∧
        (((Store.file path).get themeKey).run s'').1 = .ok (some mode.storedText)) ∧
    (∀ f, (r.plan.run s').1 = .error f → Kept s'.files s''.files path ∧
      (s'.files.Grounded → s'.files.Descends path → ∀ key,
        (((Store.file path).get key).run s'').1 = (((Store.file path).get key).run s').1)) := by
  intro s' s''
  have hown := hpath r List.mem_cons_self
  refine ⟨?_, ?_, ?_⟩
  · intro items hholds hhistory hfree
    obtain ⟨held, hheld, hmode⟩ :=
      runAll_holds hholds (fun q hq => hpath q (List.mem_cons_of_mem _ hq)) hhistory
    obtain ⟨held', t, hrun, hheld', hreports, -⟩ := run_reports hheld hown hfree rfl
    rw [hmode] at hreports
    have ht : s'' = t := congrArg Prod.snd hrun
    rw [ht]
    exact ⟨congrArg Prod.fst hrun, held, held', hheld, hheld', hreports⟩
  · intro hwrites hok
    obtain ⟨houtput, hstored⟩ := stored_of_ok hown hwrites hok rfl
    exact ⟨houtput, printed_modeOutput _ _ (some _) _, hstored⟩
  · intro f herror
    have hkept := kept_of_error hown herror
    exact ⟨hkept, fun hgrounded hdescends => get_congr (hkept.reading hgrounded hdescends)⟩

def onPath (path : String) (action : Option ModeAction) : ModeRequest :=
  ⟨⟨action, none, some path, false⟩, ⟨none, .builtin⟩⟩

theorem mode_runs_toggled :
    let s := Surroundings.ofFiles
      ⟨[(["prefs.json"], .file (.text "\x7b\"theme\":\"light-theme\"\x7d"))]⟩
    let history := [onPath "prefs.json" none, onPath "prefs.json" (some .toggle)]
    let r := onPath "prefs.json" (some (.setMode .light))
    let s' := ((runAll history).run s).2
    let s'' := (r.plan.run s').2
    ∃ held held', Holds s'.files "prefs.json" held ∧ Holds s''.files "prefs.json" held' ∧
      Reports r "prefs.json" .light held held' s' s'' := by
  intro s history r
  have hread : s.files.readText "prefs.json" = .ok "\x7b\"theme\":\"light-theme\"\x7d" := by
    decide +kernel
  have hholds : Holds s.files "prefs.json" (SortedMap.empty.insert themeKey "light-theme") :=
    .object hread (by rfl)
  have hpath : ∀ q ∈ r :: history, q.path? = some "prefs.json" := by decide
  exact ((mode_runs history r s hpath).1 _ hholds (by decide +kernel) (by decide +kernel)).2

/-- **A run that fails can change what is read at its path**, and so the mode that is shown: it makes the
directory that the path goes up from, and so uncovers a preference file. -/
theorem failed_run_uncovers :
    let path := "a/../prefs.json"
    let s := Surroundings.ofFiles blockedFiles
    let r := onPath path (some (.setMode .dark))
    let s' := (r.plan.run s).2
    s.files.Grounded ∧ (r.plan.run s).1 = .error (.notPersisted .dark path) ∧
      s.files.readText path = .error .notFound ∧
      s'.files.readText path = .ok "\x7b\"theme\":\"light-theme\"\x7d" ∧
      ((onPath path none).plan.run s).2.output = "dark\n" ∧
      ((onPath path none).plan.run s').2.output = "light\n" := by
  decide +kernel

end ModeRequest

end Command

end ColorTheme
