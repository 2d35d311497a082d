import ColorTheme.Proofs.Plan
import ColorTheme.Store.Basic

/-!
# What a preference file says

What is loaded from a preference file is told by the files alone.  Asking for a text changes nothing
but the reports, and setting one nothing but the files and the reports.
-/

namespace ColorTheme.Store

variable {t u : FileTree} {path : String} {s s' : Surroundings}

/-- What reading the preference file says; a missing one holds nothing. -/
def understood (path : String) : Except OsError String → Except StoreError (SortedMap String)
  | .ok text => itemsOf path text
  | .error .notFound => .ok .empty
  | .error cause => .error (.io path cause)

def loaded (t : FileTree) (path : String) : Except StoreError (SortedMap String) :=
  understood path (t.readText path)

theorem understood_error {cause : OsError} (h : cause ≠ .notFound) :
    understood path (.error cause) = .error (.io path cause) := by
  unfold understood
  split
  · next htext => cases htext
  · next hmissing => exact absurd (Except.error.inj hmissing) h
  · next hcause => rw [Except.error.inj hcause]

theorem loaded_congr (h : u.readText path = t.readText path) : loaded u path = loaded t path := by
  rw [loaded, loaded, h]

theorem load_eq (path : String) : load path = .readText path fun r => .done (understood path r) := by
  rw [load]
  congr
  funext r
  split
  · rfl
  · rfl
  · next hcause => rw [understood_error hcause]

@[simp]
theorem run_load (path : String) (s : Surroundings) :
    (load path).run s = (loaded s.files path, s) := by
  rw [load_eq]
  rfl

/-- A file that is refused is not taken for a missing one. -/
theorem runs_load {r : Option (Except StoreError (SortedMap String))}
    (h : (load path).Runs s r s') :
    s' = s ∧ ∀ items, r = some (.ok items) → loaded s.files path = .ok items := by
  rw [load_eq] at h
  cases h with
  | cut => exact ⟨rfl, fun _ h => nomatch h⟩
  | readText hread h =>
    cases h with
    | cut => exact ⟨rfl, fun _ h => nomatch h⟩
    | done =>
      refine ⟨rfl, fun items h => ?_⟩
      cases hread with
      | read hread =>
        rw [loaded, hread]
        exact Option.some.inj h
      | refused hcause =>
        rw [understood_error hcause] at h
        cases h

/-- **Asking for a text** answers what the file says and changes nothing but the reports. -/
theorem run_get (path key : String) (s : Surroundings) :
    ∃ notices, ((file path).get key).run s =
      ((loaded s.files path).map (·.get? key), { s with notices := notices }) := by
  simp only [get, Plan.run_bind, run_load]
  cases loaded s.files path with
  | error e => exact ⟨s.notices, rfl⟩
  | ok items => exact ⟨s.notices ++ [.preferenceRead path key (items.get? key).isSome], rfl⟩

/-! ### Setting a text -/

theorem run_makeParent (path : String) (s : Surroundings) :
    ∃ files r, (makeParent path).run s = (r, { s with files := files }) := by
  rw [makeParent]
  split
  · exact ⟨s.files, _, rfl⟩
  · rw [Plan.run]
    cases s.files.createDirs (Files.parent path) with
    | mk files r =>
      cases r with
      | ok _ => exact ⟨files, _, rfl⟩
      | error cause => exact ⟨files, _, rfl⟩

theorem run_replace (path text : String) (s : Surroundings) :
    ∃ files r, (replace path text).run s = (r, { s with files := files }) := by
  rw [replace, Plan.run]
  cases s.files.writeText (sibling path) text with
  | error cause => exact ⟨s.files, _, rfl⟩
  | ok files =>
    dsimp only [Surroundings.change]
    rw [Plan.run]
    cases files.rename (sibling path) path with
    | error cause => exact ⟨files, _, rfl⟩
    | ok moved => exact ⟨moved, _, rfl⟩

theorem run_save (path : String) (items : SortedMap String) (s : Surroundings) :
    ∃ files r, (save path items).run s = (r, { s with files := files }) := by
  obtain ⟨files, r, hparent⟩ := run_makeParent path s
  rw [save, Plan.run_bind, hparent]
  cases r with
  | error e => exact ⟨files, .error e, rfl⟩
  | ok _ =>
    obtain ⟨files', r, hreplace⟩ :=
      run_replace path (TextMap.toJson items).pretty { s with files := files }
    exact ⟨files', r, hreplace⟩

/-- **Setting a text** changes nothing but the files and the reports, and the store stays on its
file. -/
theorem run_set (path key value : String) (s : Surroundings) :
    ∃ r files notices, ((file path).set key value).run s =
      ((file path, r), { s with files := files, notices := notices }) := by
  rw [set, Plan.run_bind, run_load]
  cases loaded s.files path with
  | error e => exact ⟨.error e, s.files, s.notices, rfl⟩
  | ok items =>
    obtain ⟨files, r, hsave⟩ := run_save path (items.insert key value) s
    simp only [Plan.run_bind, hsave]
    cases r with
    | error e => exact ⟨.error e, files, s.notices, rfl⟩
    | ok _ =>
      exact ⟨.ok (), files, s.notices ++ [.preferenceWritten path key value], rfl⟩

end ColorTheme.Store
