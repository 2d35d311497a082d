import ColorTheme.Proofs.Json.RoundTrip
import ColorTheme.Proofs.Store.Atomicity

/-!
# A file store answers as a memory store

As long as the steps on files succeed, a preference file answers every access as a store in memory
does, over any number of sessions.  What carries over from one session to the next is the text of the
file, which is read as the items that were written.
-/

namespace ColorTheme.Store

open FileTree

variable {t : FileTree} {path : String} {items : SortedMap String} {s : Surroundings}

/-! ### Files that hold items -/

/-- What a preference file holds: nothing if it is missing or blank, else the items of its object. -/
inductive Holds (t : FileTree) (path : String) : SortedMap String → Prop where
  | missing (h : t.readText path = .error .notFound) : Holds t path .empty
  | blank {text : String} (h : t.readText path = .ok text) (hblank : isBlankText text = true) :
    Holds t path .empty
  | object {text : String} {items : SortedMap String} (h : t.readText path = .ok text)
    (hobject : TextMap.ofJson text = .ok items) : Holds t path items

theorem Holds.loaded_eq (h : Holds t path items) : loaded t path = .ok items := by
  cases h with
  | missing h => rw [loaded, h, understood]
  | blank h hblank => rw [loaded, h, understood, itemsOf, if_pos hblank]
  | object h hobject =>
    rw [loaded, h, understood, itemsOf, TextMap.not_blank_of_ofJson hobject, hobject]
    rfl

theorem Replaced.holds {u : FileTree} {key value text : String} (h : Replaced t u path text)
    (hchanged : changed t path key value = .ok text) :
    ∃ items, loaded t path = .ok items ∧ Holds u path (items.insert key value) := by
  rw [changed] at hchanged
  cases hloaded : loaded t path with
  | error e =>
    rw [hloaded] at hchanged
    cases hchanged
  | ok items =>
    rw [hloaded] at hchanged
    cases hchanged
    exact ⟨items, rfl, .object h.reading (TextMap.ofJson_pretty _)⟩

/-! ### Changes that succeed -/

theorem run_makeParent_of_unhindered (h : (makeParent path).unhindered s = true) :
    ((makeParent path).run s).1 = .ok () := by
  rw [makeParent] at h ⊢
  split at h
  · next hparent =>
    rw [if_pos hparent]
    rfl
  · next hparent =>
    rw [if_neg hparent]
    obtain ⟨files, -, hrun⟩ := Plan.run_createDirs_of_unhindered h
    rw [hrun]
    rfl

theorem run_replace_of_unhindered {text : String} (h : (replace path text).unhindered s = true) :
    ((replace path text).run s).1 = .ok () := by
  rw [replace] at h ⊢
  obtain ⟨files, h, hwrite⟩ := Plan.run_writeText_of_unhindered h
  obtain ⟨files, -, hrename⟩ := Plan.run_rename_of_unhindered h
  rw [hwrite, hrename]
  rfl

theorem run_save_of_unhindered (h : (save path items).unhindered s = true) :
    ((save path items).run s).1 = .ok () := by
  rw [save, Plan.unhindered_bind, Bool.and_eq_true] at h
  rw [save, Plan.run_bind]
  have hparent := run_makeParent_of_unhindered h.1
  rw [hparent] at h ⊢
  exact run_replace_of_unhindered h.2

/-- **A change that succeeds** adds its own item and keeps the others. -/
theorem run_set_of_unhindered {key value : String} (hholds : Holds s.files path items)
    (h : ((file path).set key value).unhindered s = true) :
    (((file path).set key value).run s).1 = (file path, .ok ()) ∧
      Holds (((file path).set key value).run s).2.files path (items.insert key value) := by
  have hok : (((file path).set key value).run s).1 = (file path, .ok ()) := by
    simp only [set, Plan.unhindered_bind, run_load, hholds.loaded_eq, Bool.and_eq_true] at h
    simp only [set, Plan.run_bind, run_load, hholds.loaded_eq, run_save_of_unhindered h.2.1]
    rfl
  refine ⟨hok, ?_⟩
  have hruns := Plan.runs_run ((file path).set key value) s
  rw [hok] at hruns
  obtain ⟨text, hchanged, hreplaced⟩ := replaced_of_ok hruns
  -- The items that were loaded for the change are the ones that the file held.
  obtain ⟨items', hloaded, hafter⟩ := hreplaced.holds hchanged
  obtain rfl := Except.ok.inj (hholds.loaded_eq.symm.trans hloaded)
  exact hafter

/-! ### Sessions -/

inductive Access where
  | get (key : String)
  | set (key value : String)

inductive Answer where
  | got (r : Except StoreError (Option String))
  | done (r : Except StoreError Unit)
  deriving DecidableEq

/-- The store after a call, and the answer. -/
def access (store : Store) : Access → Plan (Store × Answer)
  | .get key => do return (store, .got (← store.get key))
  | .set key value => do
    let (store, r) ← store.set key value
    return (store, .done r)

/-- The store after some calls, and their answers. -/
def session (store : Store) : List Access → Plan (Store × List Answer)
  | [] => return (store, [])
  | a :: rest => do
    let (store, answer) ← store.access a
    let (store, answers) ← store.session rest
    return (store, answer :: answers)

/-- The answers of several sessions, each with a new store on one preference file. -/
def sessions (path : String) : List (List Access) → Plan (List Answer)
  | [] => return []
  | calls :: rest => do
    let (_, answers) ← (file path).session calls
    return answers ++ (← sessions path rest)

theorem run_session_append (store : Store) (xs ys : List Access) (s : Surroundings) :
    (store.session (xs ++ ys)).run s =
      let first := (store.session xs).run s
      let second := (first.1.1.session ys).run first.2
      ((second.1.1, first.1.2 ++ second.1.2), second.2) := by
  induction xs generalizing store s with
  | nil => rfl
  | cons a rest ih => simp [session, ih]

/-- **One call**: the stores answer alike, and the file holds what the memory has. -/
theorem access_refines (hholds : Holds s.files path items) (a : Access)
    (h : ((file path).access a).unhindered s = true) (z : Surroundings) :
    ∃ held answer s', ((file path).access a).run s = ((file path, answer), s') ∧
      ((memory items).access a).run z = ((memory held, answer), z) ∧
      Holds s'.files path held := by
  cases a with
  | get key =>
    obtain ⟨notices, hget⟩ := run_get path key s
    rw [hholds.loaded_eq] at hget
    refine ⟨items, .got (.ok (items.get? key)), { s with notices := notices }, ?_, rfl, hholds⟩
    rw [access, Plan.run_bind, hget]
    rfl
  | set key value =>
    have hset : ((file path).set key value).unhindered s = true := by
      rw [access, Plan.unhindered_bind, Bool.and_eq_true] at h
      exact h.1
    obtain ⟨hok, hafter⟩ := run_set_of_unhindered hholds hset
    refine ⟨items.insert key value, .done (.ok ()), _, ?_, rfl, hafter⟩
    rw [access, Plan.run_bind, hok]
    rfl

theorem session_refines (hholds : Holds s.files path items) (calls : List Access)
    (h : ((file path).session calls).unhindered s = true) (z : Surroundings) :
    ∃ held answers s', ((file path).session calls).run s = ((file path, answers), s') ∧
      ((memory items).session calls).run z = ((memory held, answers), z) ∧
      Holds s'.files path held := by
  induction calls generalizing items s with
  | nil => exact ⟨items, [], s, rfl, rfl, hholds⟩
  | cons a rest ih =>
    rw [session, Plan.unhindered_bind, Bool.and_eq_true] at h
    obtain ⟨held, answer, s', hfile, hmemory, hholds'⟩ := access_refines hholds a h.1 z
    rw [hfile] at h
    replace h := h.2
    rw [Plan.unhindered_bind, Bool.and_eq_true] at h
    obtain ⟨held', answers, s'', hfile', hmemory', hholds''⟩ := ih hholds' h.1
    refine ⟨held', answer :: answers, s'', ?_, ?_, hholds''⟩
    · rw [session, Plan.run_bind, hfile, Plan.run_bind, hfile']
      rfl
    · rw [session, Plan.run_bind, hmemory, Plan.run_bind, hmemory']
      rfl

theorem sessions_refine (hholds : Holds s.files path items) (calls : List (List Access))
    (h : (sessions path calls).unhindered s = true) (z : Surroundings) :
    ∃ held answers s', (sessions path calls).run s = (answers, s') ∧
      ((memory items).session calls.flatten).run z = ((memory held, answers), z) ∧
      Holds s'.files path held := by
  induction calls generalizing items s with
  | nil => exact ⟨items, [], s, rfl, rfl, hholds⟩
  | cons first rest ih =>
    rw [sessions, Plan.unhindered_bind, Bool.and_eq_true] at h
    obtain ⟨held, answers, s', hfile, hmemory, hholds'⟩ := session_refines hholds first h.1 z
    rw [hfile] at h
    replace h := h.2
    rw [Plan.unhindered_bind, Bool.and_eq_true] at h
    obtain ⟨held', answers', s'', hfile', hmemory', hholds''⟩ := ih hholds' h.1
    refine ⟨held', answers ++ answers', s'', ?_, ?_, hholds''⟩
    · rw [sessions, Plan.run_bind, hfile, Plan.run_bind, hfile']
      rfl
    · rw [List.flatten_cons, run_session_append, hmemory]
      simp only [hmemory']

/-- **A file store refines a memory store.**  All calls of all sessions are answered as by one store
in memory with the items that the file held at first, and the file holds what that store has in the
end.  From there on a call that gets a text still writes nothing, and one that sets a text changes
what is said of its own key only. -/
theorem file_refines_memory (hholds : Holds s.files path items) (calls : List (List Access))
    (h : (sessions path calls).unhindered s = true) :
    let remembered := (((memory items).session calls.flatten).run s).1
    let s' := ((sessions path calls).run s).2
    ((sessions path calls).run s).1 = remembered.2 ∧
      (∃ held, remembered.1 = memory held ∧ Holds s'.files path held) ∧
      (∀ key, (((file path).get key).run s').2.files = s'.files) ∧
      ∀ key value, ((file path).set key value).unhindered s' = true →
        let s'' := (((file path).set key value).run s').2
        (((file path).get key).run s'').1 = .ok (some value) ∧
          ∀ other, other ≠ key →
            (((file path).get other).run s'').1 = (((file path).get other).run s').1 := by
  obtain ⟨held, answers, s', hfile, hmemory, hholds'⟩ := sessions_refine hholds calls h s
  simp only [hfile, hmemory]
  refine ⟨trivial, ⟨held, rfl, hholds'⟩, ?_, ?_⟩
  · intro key
    obtain ⟨notices, hget⟩ := run_get path key s'
    rw [hget]
  · intro key value hset
    have hloaded' := (run_set_of_unhindered hholds' hset).2.loaded_eq
    have hgot (asked : String) : (((file path).get asked).run
        (((file path).set key value).run s').2).1 = .ok ((held.insert key value).get? asked) := by
      obtain ⟨notices, hget⟩ := run_get path asked (((file path).set key value).run s').2
      rw [hget, hloaded']
      rfl
    refine ⟨?_, ?_⟩
    · rw [hgot, SortedMap.get?_insert, if_pos rfl]
    · intro other hother
      obtain ⟨notices, hget⟩ := run_get path other s'
      rw [hgot, SortedMap.get?_insert, if_neg hother, hget, hholds'.loaded_eq]
      rfl

/-- Two sessions, the first of which stores characters that are escaped. -/
def restart : List (List Access) :=
  [[.set themeKey "\"\\\x01𝄞", .get "a"], [.get themeKey, .get "b"]]

theorem file_refines_memory_restart :
    let s := Surroundings.ofFiles ⟨[(["prefs.json"], .file (.text "\x7b\"a\":\"1\"\x7d"))]⟩
    Holds s.files "prefs.json" (SortedMap.empty.insert "a" "1") ∧
      (sessions "prefs.json" restart).unhindered s = true ∧
      ((sessions "prefs.json" restart).run s).1 =
        [.done (.ok ()), .got (.ok (some "1")), .got (.ok (some "\"\\\x01𝄞")), .got (.ok none)] := by
  intro s
  have hread : s.files.readText "prefs.json" = .ok "\x7b\"a\":\"1\"\x7d" := by decide +kernel
  have hholds : Holds s.files "prefs.json" (SortedMap.empty.insert "a" "1") := .object hread (by rfl)
  have hunhindered : (sessions "prefs.json" restart).unhindered s = true := by decide +kernel
  exact ⟨hholds, hunhindered, (file_refines_memory hholds restart hunhindered).1⟩

end ColorTheme.Store
