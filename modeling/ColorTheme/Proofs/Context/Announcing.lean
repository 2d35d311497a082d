import ColorTheme.Context.Basic
import ColorTheme.Proofs.Observable.Reachable
import ColorTheme.Proofs.Store.Loading

/-!
# Announcing a mode

Listeners react to a mode by giving up or by ending subscriptions.  They never publish, so the mode
of a context is the one that was announced last, whatever the listeners do.
-/

namespace ColorTheme

/-! ### Listeners that publish nothing -/

namespace ModeCell

variable {cell : ModeCell}

/-- The running listener has nothing but reactions left to do. -/
def Calm (cell : ModeCell) : Prop :=
  match cell.phase with
  | .delivering _ acts _ => ∀ act ∈ acts, ∃ reaction : Reaction, act = reaction.act
  | _ => True

/-- The cell is calm, and no mode was announced since it was another one. -/
structure Follows (cell before : ModeCell) : Prop where
  calm : cell.Calm
  value : cell.value = before.value
  version : cell.version = before.version

theorem Follows.trans {before between after : ModeCell} (h : after.Follows between)
    (h' : between.Follows before) : after.Follows before :=
  ⟨h.calm, h.value.trans h'.value, h.version.trans h'.version⟩

theorem follows_drop (h : cell.Calm) (name : String) : Follows (cell.drop name) cell := by
  rw [Observable.drop_eq]
  exact ⟨h, rfl, rfl⟩

theorem follows_step (h : cell.Calm) : Follows (cell.step Listener.behavior) cell := by
  obtain ⟨value, version, entries, pending, held, nextSerial, phase, journal⟩ := cell
  cases phase with
  | idle => exact ⟨h, rfl, rfl⟩
  | unwound => exact ⟨h, rfl, rfl⟩
  | draining =>
    cases pending with
    | nil => exact ⟨trivial, rfl, rfl⟩
    | cons next rest => exact ⟨fun act hact => (nomatch hact), rfl, rfl⟩
  | delivering current acts waiting =>
    cases acts with
    | nil =>
      cases waiting with
      | nil => exact ⟨trivial, rfl, rfl⟩
      | cons entry waiting =>
        refine ⟨?_, rfl, rfl⟩
        intro act hact
        obtain ⟨reaction, -, rfl⟩ := List.mem_map.1 hact
        exact ⟨reaction, rfl⟩
    | cons act acts =>
      obtain ⟨reaction, rfl⟩ := h act List.mem_cons_self
      have hacts : ∀ act ∈ acts, ∃ reaction : Reaction, act = reaction.act :=
        fun act hact => h act (List.mem_cons_of_mem _ hact)
      -- A reaction gives up or drops a listener; none publishes a mode.
      cases reaction with
      | panic => exact ⟨trivial, rfl, rfl⟩
      | drop name =>
        have hcalm : Calm ⟨value, version, entries, pending, held, nextSerial,
          .delivering current acts waiting, journal⟩ := hacts
        have hdrop := follows_drop hcalm name
        exact ⟨hdrop.calm, hdrop.value, hdrop.version⟩

theorem follows_run (h : cell.Calm) (fuel : Nat) :
    Follows (Observable.run Listener.behavior fuel cell) cell := by
  induction fuel generalizing cell with
  | zero => exact ⟨h, rfl, rfl⟩
  | succ fuel ih =>
    unfold Observable.run
    split
    · have hstep := follows_step h
      exact (ih hstep.calm).trans hstep
    · exact ⟨h, rfl, rfl⟩

/-- **The mode is the one that was announced**, once, also if a listener gives up. -/
theorem calm_announce (h : cell.Calm) (mode : Mode) :
    (cell.announce mode).1.Calm ∧ (cell.announce mode).1.value = mode ∧
      (cell.announce mode).1.version = cell.version + 1 := by
  have hpublish : Calm (cell.publish mode) := by
    obtain ⟨value, version, entries, pending, held, nextSerial, phase, journal⟩ := cell
    cases phase with
    | idle => trivial
    | unwound => trivial
    | draining => trivial
    | delivering current acts waiting => exact h
  have hrun := follows_run hpublish (cell.deliverySteps mode)
  exact ⟨hrun.calm, hrun.value, hrun.version⟩

theorem follows_react (h : cell.Calm) (reactions : List Reaction) :
    (cell.react reactions).1.Follows cell := by
  induction reactions generalizing cell with
  | nil => exact ⟨h, rfl, rfl⟩
  | cons reaction rest ih =>
    cases reaction with
    | panic => exact ⟨h, rfl, rfl⟩
    | drop name =>
      have hdrop := follows_drop h name
      exact (ih hdrop.calm).trans hdrop

theorem follows_subscribe (h : cell.Calm) (name : String) (listener : Listener) :
    Follows (cell.subscribe name listener) cell := by
  let entry : Observable.Entry Listener := ⟨cell.nextSerial, listener⟩
  have hentered : Calm { cell with
    entries := cell.entries ++ [entry]
    nextSerial := cell.nextSerial + 1
    journal := .subscribed entry :: cell.journal } := h
  have hdrop := follows_drop hentered name
  exact ⟨hdrop.calm, hdrop.value, hdrop.version⟩

/-- **To welcome a listener announces nothing** to the others. -/
theorem follows_welcome (h : cell.Calm) (listener : Listener) :
    (cell.welcome listener).1.Follows cell := by
  have htold : Follows (cell.record (.called listener cell.value cell.value)) cell := ⟨h, rfl, rfl⟩
  have hreact := (follows_react htold.calm (listener.react cell.value)).trans htold
  rw [welcome]
  split
  · next told hpair =>
    rw [hpair] at hreact
    exact hreact
  · next told hpair =>
    rw [hpair] at hreact
    exact (follows_subscribe hreact.calm listener.name listener).trans hreact

end ModeCell

/-! ### Contexts on a preference file -/

namespace Store

/-- The theme that a preference file remembers, if it can be read. -/
def remembered (t : FileTree) (path : String) : Option String :=
  (loaded t path).toOption.bind (·.get? themeKey)

end Store

namespace Context

/-- The context keeps its mode in a preference file, and its listeners publish nothing. -/
structure IsOn (c : Context) (path : String) : Prop where
  store : c.store = .file path
  calm : c.cell.Calm

variable {c : Context} {path : String}

theorem isOn_new (path : String) (defaults : Defaults) : (new (.file path) defaults).IsOn path :=
  ⟨rfl, trivial⟩

theorem IsOn.run_announce (h : c.IsOn path) (mode : Mode) (s : Surroundings) :
    ∃ c' outcome notices, (c.announce mode).run s = ((c', outcome), { s with notices := notices }) ∧
      c'.IsOn path ∧ c'.mode = mode := by
  obtain ⟨hcalm, hmode, -⟩ := ModeCell.calm_announce h.calm mode
  cases hannounce : c.cell.announce mode with | mk cell outcome
  rw [hannounce] at hcalm hmode
  refine ⟨{ c with cell := cell }, outcome,
    s.notices ++ cell.roundNotices c.cell.journal.length, ?_, ⟨h.store, hcalm⟩, hmode⟩
  rw [announce, hannounce]
  simp only [Plan.run_andThen, Plan.run_report]
  rfl

/-- **Resuming** takes the mode that the file remembers, and writes nothing. -/
theorem IsOn.run_resume (h : c.IsOn path) (s : Surroundings) :
    ∃ c' outcome notices, c.resume.run s = ((c', outcome), { s with notices := notices }) ∧
      c'.IsOn path ∧ c'.mode = storedMode (Store.remembered s.files path) := by
  obtain ⟨notices, hget⟩ := Store.run_get path themeKey s
  rw [resume, h.store, Plan.run_bind, hget, Store.remembered]
  cases Store.loaded s.files path with
  | error e =>
    simp only [Except.map, Plan.run_bind, Plan.run_report, Plan.run_pure]
    exact h.run_announce _ _
  | ok items =>
    simp only [Except.map, Plan.run_bind, Plan.run_report, Plan.run_pure]
    exact h.run_announce _ _

/-- **Setting a mode** does to the files what setting its text in the store does. -/
theorem IsOn.run_setMode (h : c.IsOn path) (mode : Mode) (s : Surroundings) :
    ∃ c' outcome notices, (c.setMode mode).run s = ((c', outcome), { s with
        files := (((Store.file path).set themeKey mode.storedText).run s).2.files
        notices := notices }) ∧ c'.IsOn path ∧ c'.mode = mode := by
  obtain ⟨r, files, notices, hset⟩ := Store.run_set path themeKey mode.storedText s
  rw [setMode, h.store, Plan.run_bind, hset]
  have hstored : { c with store := .file path }.IsOn path := ⟨rfl, h.calm⟩
  cases r with
  | error e =>
    simp only [Plan.run_bind, Plan.run_report]
    exact hstored.run_announce _ _
  | ok _ =>
    simp only [Plan.run_bind, Plan.run_report]
    exact hstored.run_announce _ _

theorem IsOn.unhindered_of_setMode (h : c.IsOn path) {mode : Mode} {s : Surroundings}
    (hset : (c.setMode mode).unhindered s = true) :
    ((Store.file path).set themeKey mode.storedText).unhindered s = true := by
  rw [setMode, Plan.unhindered_bind, Bool.and_eq_true, h.store] at hset
  exact hset.1

end Context

end ColorTheme
