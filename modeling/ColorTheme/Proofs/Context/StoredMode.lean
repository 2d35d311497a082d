import Mathlib.Data.List.Induction
import ColorTheme.Proofs.Context.Announcing
import ColorTheme.Proofs.Context.Calls
import ColorTheme.Proofs.SortedMap

/-!
# The mode and the store

To store a mode, to announce it and to tell the listeners are steps of their own, and a listener may
give up in between.  Still the mode of a context is the one that its store remembers, from the first
operation on the mode on, and every such operation is counted as one announcement.
-/

namespace ColorTheme

namespace Context

/-! ### Turns -/

/-- A call, and what has become of each registered listener by then: one with a state of its own may
react to the same mode in another way than before. -/
structure Turn where
  call : Call
  listener : Observable.Entry Listener → Listener

def withListeners (c : Context) (listener : Observable.Entry Listener → Listener) : Context :=
  { c with cell := { c.cell with
    entries := c.cell.entries.map fun e => { e with callback := listener e } } }

def afterTurn (c : Context) (turn : Turn) : Context := (c.withListeners turn.listener).after turn.call

def afterTurns (c : Context) (turns : List Turn) : Context := turns.foldl afterTurn c

/-! ### Operations on the mode -/

namespace Operation

def announces : Operation → Bool
  | .setMode _ | .toggle | .resume => true
  | _ => false

def stores : Operation → Bool
  | .setMode _ | .toggle => true
  | _ => false

/-- The mode after an operation, by the one that is resumed. -/
def next (resumed mode : Mode) : Operation → Mode
  | .setMode target => target
  | .toggle => mode.toggled
  | .resume => resumed
  | _ => mode

section
variable {operation : Operation}

theorem not_announces_of_paints (h : operation.paints = true) : operation.announces = false := by
  cases operation with
  | setMode target => cases h
  | toggle => cases h
  | resume => cases h
  | _ => rfl

theorem stores_of_not_announces (h : operation.announces = false) : operation.stores = false := by
  cases operation with
  | setMode target => cases h
  | toggle => cases h
  | _ => rfl

theorem next_of_not_stores (h : operation.stores = false) (resumed mode : Mode) :
    operation.next resumed mode = if operation.announces then resumed else mode := by
  cases operation with
  | setMode target => cases h
  | toggle => cases h
  | _ => rfl

theorem next_of_not_announces (h : operation.announces = false) (resumed mode : Mode) :
    operation.next resumed mode = mode := by
  rw [next_of_not_stores (stores_of_not_announces h), h, if_neg Bool.false_ne_true]

end

end Operation

def resumed (store : Store) (s : Surroundings) : Mode := answered ((store.get themeKey).run s).1

/-- What an operation does to the mode, the announcements and the store. -/
structure Advances (c : Context) (operation : Operation) (s : Surroundings) (c' : Context) :
    Prop where
  calm : c'.cell.Calm
  mode : c'.mode = operation.next (resumed c.store s) c.mode
  version : c'.cell.version = c.cell.version + if operation.announces then 1 else 0
  store : c'.store = if operation.stores then
    ((c.store.set themeKey c'.mode.storedText).run s).1.1 else c.store

theorem advances_of_follows {c c' : Context} {operation : Operation} (s : Surroundings)
    (hannounces : operation.announces = false) (hcell : c'.cell.Follows c.cell)
    (hstore : c'.store = c.store) : c.Advances operation s c' where
  calm := hcell.calm
  mode := hcell.value.trans (Operation.next_of_not_announces hannounces _ _).symm
  version := by
    rw [hannounces]
    exact hcell.version
  store := by
    rw [Operation.stores_of_not_announces hannounces]
    exact hstore

theorem advances_of_told {c : Context} (h : c.cell.Calm) {operation : Operation} {s : Surroundings}
    {mode : Mode} {store : Store} (hannounces : operation.announces = true)
    (hmode : operation.next (resumed c.store s) c.mode = mode)
    (hstore : store = if operation.stores then
      ((c.store.set themeKey mode.storedText).run s).1.1 else c.store) :
    c.Advances operation s ({ c with store := store }.told mode) := by
  obtain ⟨hcalm, hvalue, hversion⟩ := ModeCell.calm_announce h mode
  have htold : ({ c with store := store }.told mode).mode = mode := hvalue
  refine ⟨hcalm, htold.trans hmode.symm, ?_, ?_⟩
  · rw [hannounces]
    exact hversion
  · rw [htold]
    exact hstore

/-- **One call** on a context whose listeners announce nothing. -/
theorem advances_after {c : Context} (h : c.cell.Calm) (call : Call) :
    c.Advances call.operation call.surroundings (c.after call) := by
  obtain ⟨operation, s⟩ := call
  cases hpaints : operation.paints with
  | true =>
    rw [c.after_of_paints hpaints]
    exact advances_of_follows s (Operation.not_announces_of_paints hpaints) ⟨h, rfl, rfl⟩ rfl
  | false =>
    cases operation with
    | setMode mode =>
      rw [after, perform, Plan.run_bind, run_setMode]
      exact advances_of_told h rfl rfl rfl
    | toggle =>
      rw [after, perform, Plan.run_bind, toggle, run_setMode]
      exact advances_of_told h rfl rfl rfl
    | resume =>
      rw [after, perform, Plan.run_bind, run_resume]
      exact advances_of_told h rfl rfl rfl
    | subscribe listener =>
      exact advances_of_follows s rfl (ModeCell.follows_welcome h listener) rfl
    | unsubscribe name => exact advances_of_follows s rfl (ModeCell.follows_drop h name) rfl
    | _ => cases hpaints

theorem advances_afterTurn {c : Context} (h : c.cell.Calm) (turn : Turn) :
    c.Advances turn.call.operation turn.call.surroundings (c.afterTurn turn) := by
  have hafter := advances_after (c := c.withListeners turn.listener) h turn.call
  exact ⟨hafter.calm, hafter.mode, hafter.version, hafter.store⟩

/-! ### Announcements -/

/-- How many of the turns announce a mode. -/
def announcements (turns : List Turn) : Nat := turns.countP fun turn => turn.call.operation.announces

/-- **Every operation on the mode is one announcement.** -/
theorem version_afterTurns {c : Context} (h : c.cell.Calm) (turns : List Turn) :
    (c.afterTurns turns).cell.Calm ∧
      (c.afterTurns turns).cell.version = c.cell.version + announcements turns := by
  induction turns generalizing c with
  | nil => exact ⟨h, rfl⟩
  | cons turn rest ih =>
    have hstep := advances_afterTurn h turn
    obtain ⟨hcalm, hversion⟩ := ih hstep.calm
    refine ⟨hcalm, ?_⟩
    rw [hstep.version] at hversion
    rw [afterTurns, List.foldl_cons, ← afterTurns, hversion, announcements, announcements,
      List.countP_cons, Nat.add_assoc, Nat.add_comm (List.countP _ rest)]

theorem afterTurns_concat (c : Context) (turns : List Turn) (turn : Turn) :
    c.afterTurns (turns ++ [turn]) = (c.afterTurns turns).afterTurn turn := List.foldl_concat ..

/-! ### Stores in memory -/

theorem storedMode_insert (items : SortedMap String) (mode : Mode) :
    storedMode ((items.insert themeKey mode.storedText).get? themeKey) = mode := by
  rw [SortedMap.get?_insert, if_pos rfl, storedMode, Option.elim_some, Mode.ofStored_storedText]

section memory
variable {c c' : Context} {operation : Operation} {s : Surroundings} {items : SortedMap String}

/-- Nothing but the theme is stored, and only by an operation that stores a mode. -/
theorem Advances.store_memory (h : c.Advances operation s c') (hstore : c.store = .memory items) :
    c'.store = .memory
      (if operation.stores then items.insert themeKey c'.mode.storedText else items) := by
  rw [h.store, hstore]
  split <;> rfl

/-- What is stored agrees with the mode after an operation on the mode, and it does not cease to. -/
theorem Advances.mode_memory (h : c.Advances operation s c') (hstore : c.store = .memory items)
    (hagree : operation.announces = false → c.mode = storedMode (items.get? themeKey)) :
    c'.mode = storedMode
      ((if operation.stores then items.insert themeKey c'.mode.storedText else items).get?
        themeKey) := by
  cases hstores : operation.stores with
  | true => rw [if_pos rfl, storedMode_insert]
  | false =>
    have hresumed : resumed c.store s = storedMode (items.get? themeKey) := by
      rw [hstore]
      rfl
    rw [h.mode, Operation.next_of_not_stores hstores, hresumed, if_neg Bool.false_ne_true]
    cases hannounces : operation.announces with
    | true => rfl
    | false => exact hagree hannounces

end memory

/-- The items that are kept in memory after turns, beside the theme, are those from before. -/
theorem exists_kept (items : SortedMap String) (defaults : Defaults) (turns : List Turn) :
    let c := (new (.memory items) defaults).afterTurns turns
    ∃ kept, c.store = .memory kept ∧ (∀ key, key ≠ themeKey → kept.get? key = items.get? key) ∧
      (0 < announcements turns → c.mode = storedMode (kept.get? themeKey)) := by
  have hnew : (new (.memory items) defaults).cell.Calm := trivial
  induction turns using List.reverseRecOn with
  | nil => exact ⟨items, rfl, fun key _ => rfl, fun h => (nomatch h)⟩
  | append_singleton turns turn ih =>
    obtain ⟨kept, hstore, hothers, hmode⟩ := ih
    have hstep := advances_afterTurn (version_afterTurns hnew turns).1 turn
    rw [afterTurns_concat]
    refine ⟨_, hstep.store_memory hstore, ?_, ?_⟩
    · intro key hkey
      split
      · rw [SortedMap.get?_insert, if_neg hkey, hothers key hkey]
      · exact hothers key hkey
    · intro hcount
      refine hstep.mode_memory hstore fun hannounces => hmode ?_
      rw [announcements, List.countP_append, List.countP_singleton, hannounces] at hcount
      exact hcount

end Context

/-! ### Stores that fail -/

namespace Store

/-- Every access to the store fails. -/
def Fails (store : Store) (s : Surroundings) : Prop :=
  (∀ key, ∃ e, ((store.get key).run s).1 = .error e) ∧
    ∀ key value, ∃ e, ((store.set key value).run s).1.2 = .error e

theorem Fails.set_unchanged {store : Store} {s : Surroundings} (h : store.Fails s)
    (key value : String) : ((store.set key value).run s).1.1 = store := by
  cases store with
  | memory items =>
    obtain ⟨e, he⟩ := h.1 key
    cases he
  | file path =>
    obtain ⟨r, files, notices, hset⟩ := run_set path key value s
    rw [hset]
  | refusing error => rfl

end Store

namespace Context

theorem resumed_of_fails {store : Store} {s : Surroundings} (h : store.Fails s) :
    resumed store s = .dark := by
  obtain ⟨e, he⟩ := h.1 themeKey
  rw [resumed, he]
  rfl

/-- **A store that fails stops nothing**: the mode is the one that was set, and dark if it was to be
resumed. -/
theorem mode_afterTurns_of_fails {c : Context} (hcalm : c.cell.Calm) {turns : List Turn}
    (hfails : ∀ turn ∈ turns, c.store.Fails turn.call.surroundings) :
    (c.afterTurns turns).mode =
      turns.foldl (fun mode turn => turn.call.operation.next .dark mode) c.mode := by
  induction turns generalizing c with
  | nil => rfl
  | cons turn rest ih =>
    have hturn := hfails turn List.mem_cons_self
    have hstep := advances_afterTurn hcalm turn
    have hstore : (c.afterTurn turn).store = c.store := by
      rw [hstep.store, hturn.set_unchanged, ite_self]
    have hrest := ih hstep.calm fun later hlater => by
      rw [hstore]
      exact hfails later (List.mem_cons_of_mem _ hlater)
    rw [hstep.mode, resumed_of_fails hturn] at hrest
    exact hrest

/-! ### Whole runs -/

/-- The mode, the announcements and the store of a context after turns that began with items in
memory. -/
structure Agrees (items : SortedMap String) (turns : List Turn) (c : Context) : Prop where
  /-- Of what is stored only the theme has changed, and from the first operation on the mode on it
  tells the mode. -/
  stored : ∃ kept, c.store = .memory kept ∧
    (∀ key, key ≠ themeKey → kept.get? key = items.get? key) ∧
    (0 < announcements turns → c.mode = storedMode (kept.get? themeKey))
  /-- Every operation on the mode was counted. -/
  version : c.cell.version = announcements turns
  /-- Only an operation that stores a mode changes the store. -/
  unchanged : ∀ turn, turn.call.operation.stores = false → (c.afterTurn turn).store = c.store
  /-- Another context on the same store resumes to the same mode. -/
  resumes : 0 < announcements turns → ∀ defaults s,
    ((new c.store defaults).after ⟨.resume, s⟩).mode = c.mode

/-- **The mode, the announcements and the store agree in every run**, whatever the listeners do.  If
the store fails, the mode is still the one that was set, and dark if it was to be resumed. -/
theorem agrees_afterTurns (defaults : Defaults) (turns : List Turn) :
    (∀ items, Agrees items turns ((new (.memory items) defaults).afterTurns turns)) ∧
      ∀ store : Store, (∀ turn ∈ turns, store.Fails turn.call.surroundings) →
        let c := (new store defaults).afterTurns turns
        c.mode = turns.foldl (fun mode turn => turn.call.operation.next .dark mode) .dark ∧
          c.cell.version = announcements turns := by
  have hnew (store : Store) : (new store defaults).cell.Calm := trivial
  have hversion (store : Store) : ((new store defaults).afterTurns turns).cell.version =
      announcements turns := by
    rw [(version_afterTurns (hnew store) turns).2]
    exact Nat.zero_add _
  constructor
  · intro items
    have hcalm := (version_afterTurns (hnew (.memory items)) turns).1
    refine ⟨exists_kept items defaults turns, hversion _, ?_, ?_⟩
    · intro turn hstores
      rw [(advances_afterTurn hcalm turn).store, hstores, if_neg Bool.false_ne_true]
    · intro hcount defaults' s
      obtain ⟨kept, hstore, -, hmode⟩ := exists_kept items defaults turns
      have hfresh : (new (.memory kept) defaults').cell.Calm := trivial
      rw [hstore, hmode hcount, (advances_after hfresh ⟨.resume, s⟩).mode]
      rfl
  · intro store hfails
    exact ⟨mode_afterTurns_of_fails (hnew store) hfails, hversion store⟩

/-- A listener that gives up when it hears of the light mode. -/
def touchy : Listener := ⟨"touchy", fun mode => if mode = .light then [.panic] else []⟩

/-- The light mode is set while that listener is there. -/
def startled : List Turn :=
  [Operation.subscribe touchy, .setMode .light].map fun operation =>
    ⟨⟨operation, .ofFiles .empty⟩, (·.callback)⟩

/-- The listener gave up, and the mode is light, in the store as well if there is one. -/
theorem agrees_afterTurns_startled :
    let items : SortedMap String := SortedMap.empty.insert themeKey "garbled"
    let c := (new (.memory items) .builtin).afterTurns startled
    let d := (new (.refusing (.corrupt "lost")) .builtin).afterTurns startled
    c.cell.isUnwound = true ∧ c.mode = .light ∧ c.cell.version = 1 ∧
      ((new c.store .builtin).after ⟨.resume, .ofFiles .empty⟩).mode = .light ∧
      d.mode = .light ∧ d.cell.version = 1 := by
  intro items c d
  have hrefusing : ∀ turn ∈ startled,
      (Store.refusing (.corrupt "lost")).Fails turn.call.surroundings :=
    fun turn _ => ⟨fun key => ⟨_, rfl⟩, fun key value => ⟨_, rfl⟩⟩
  obtain ⟨hmemory, hfailing⟩ := agrees_afterTurns .builtin startled
  have hagrees : Agrees items startled c := hmemory items
  have hfailed : d.mode = .light ∧ d.cell.version = announcements startled :=
    hfailing _ hrefusing
  have hcount : announcements startled = 1 := rfl
  have hlight : c.mode = .light := by decide +kernel
  refine ⟨by decide +kernel, hlight, ?_, ?_, hfailed.1, ?_⟩
  · rw [hagrees.version, hcount]
  · rw [hagrees.resumes (by decide), hlight]
  · rw [hfailed.2, hcount]

end Context

end ColorTheme
