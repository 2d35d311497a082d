import ColorTheme.Proofs.Store.Loading

/-!
# Writing a preference file is atomic

A change of a preference file writes the new text beside the file and moves it there.  Whatever comes
in between, the file holds its old content or the new text as a whole, and no other file but the
sibling changes.

The directories on the way to the file are made before the text is written, and they stay if it cannot
be.  A path that led nowhere because it goes up from a missing directory may then lead to a file that
was there all along; all other paths are read as before.
-/

namespace ColorTheme.Store

open Files FileTree

variable {t u v : FileTree} {path text : String} {origin : Place} {s s' : Surroundings}

/-! ### The sibling -/

/-- If the sibling can be opened, it stands beside the preference file under another name. -/
theorem sibling_beside (h : t.opened (sibling path) = .ok origin) :
    ∃ dir trail holder name beside, EndsIn path dir name trail ∧
      Opens t (sibling path) dir holder beside ∧ origin = holder ++ [beside] ∧
      holder ++ [name] ≠ origin := by
  obtain ⟨dir, holder, beside, hopens, rfl⟩ := opens_of_opened h
  cases hname : name? path with
  | none =>
    -- A path that ends in no name would be its own sibling, but such a path cannot be opened.
    rw [sibling, withExtension_of_nameless _ hname] at h
    exact absurd h (not_opened_of_nameless hname)
  | some name =>
    obtain ⟨dir', trail, hends⟩ := endsIn_of_name? hname
    have hslashless : '/' ∉ "json.tmp".toList := by decide
    rcases withExtension_cases hslashless hends with hnameless | hpieces
    · exact absurd h (not_opened_of_nameless hnameless)
    · obtain ⟨rfl, hbeside⟩ := List.append_inj' (hopens.pieces_eq.symm.trans hpieces) rfl
      refine ⟨dir, trail, holder, name, beside, hends, hopens, rfl, ?_⟩
      intro heq
      have hsame : beside = name := (List.head_eq_of_cons_eq (List.append_cancel_left heq)).symm
      rw [List.head_eq_of_cons_eq hbeside] at hsame
      exact stem_append_ne (by decide) name hsame

theorem placeOf_sibling (h : t.opened (sibling path) = .ok origin) :
    placeOf (sibling path) = origin ∧ placeOf path ≠ origin := by
  obtain ⟨dir, trail, holder, name, beside, hends, hopens, horigin, hne⟩ := sibling_beside h
  refine ⟨hopens.placeOf_eq.trans horigin.symm, ?_⟩
  rw [placeOf_of_walk_dir hends hopens.walk_dir]
  exact hne

theorem readText_putSibling (h : t.opened (sibling path) = .ok origin) (content : Content) :
    (t.put origin (.file content)).readText path = t.readText path := by
  obtain ⟨dir, trail, holder, name, beside, hends, hopens, rfl, hne⟩ := sibling_beside h
  refine readText_congr hends hopens.walk_dir hopens.directory
    (keepsDirectories_put hopens.place_ne_nil hopens.free _) ?_
  rw [node?_put t hopens.place_ne_nil, if_neg hne]

/-! ### Files that are kept and replaced -/

/-- The preference file is kept, and no file changes but its sibling. -/
structure Kept (t u : FileTree) (path : String) : Prop where
  content : ∀ place, place = placeOf path ∨ place ≠ placeOf (sibling path) →
    u.content? place = t.content? place
  reading : t.Grounded → t.Descends path → u.readText path = t.readText path

/-- The preference file has a new text, no file changes but it and its sibling, and that is gone. -/
structure Replaced (t u : FileTree) (path text : String) : Prop where
  content : u.content? (placeOf path) = some (.text text)
  others : ∀ place, place ≠ placeOf path → place ≠ placeOf (sibling path) →
    u.content? place = t.content? place
  reading : u.readText path = .ok text
  gone : u.node? (placeOf (sibling path)) = none
  missing : u.readText (sibling path) = .error .notFound

theorem Kept.refl (t : FileTree) (path : String) : Kept t t path :=
  ⟨fun _ _ => rfl, fun _ _ => rfl⟩

theorem kept_createDirsFrom (t : FileTree) {ps : List String}
    (hps : ps <:+ reversedPieces (parent path)) : Kept t (t.createDirsFrom ps).1 path where
  content place _ := content?_createDirsFrom t ps place
  reading hgrounded hdescends := readText_createDirsFrom hgrounded hdescends hps

theorem Kept.putSibling (h : Kept t u path) (hopened : u.opened (sibling path) = .ok origin)
    (content : Content) : Kept t (u.put origin (.file content)) path := by
  obtain ⟨horigin, hne⟩ := placeOf_sibling hopened
  refine ⟨?_, ?_⟩
  · intro place hother
    have hother' : place ≠ origin := by
      rcases hother with rfl | hother
      · exact hne
      · exact horigin ▸ hother
    rw [← h.content place hother]
    refine content?_congr ?_
    rw [node?_put u (ne_nil_of_opened hopened), if_neg hother']
  · intro hgrounded hdescends
    rw [readText_putSibling hopened, h.reading hgrounded hdescends]

/-- **Moving the sibling** to the preference file replaces it. -/
theorem Kept.moveSibling (h : Kept t u path)
    (htext : u.node? (placeOf (sibling path)) = some (.file (.text text)))
    (hmove : u.rename (sibling path) path = .ok v) : Replaced t v path text := by
  obtain ⟨origin, content, horigin, hcontent, place, hplace, hv⟩ := rename_eq_ok hmove
  obtain ⟨horiginEq, hne⟩ := placeOf_sibling horigin
  have hplaceEq := placeOf_of_opened hplace
  rw [horiginEq, hcontent, Option.some.injEq, FileNode.file.injEq] at htext
  rw [hplaceEq] at hne
  rw [if_neg hne] at hv
  subst htext hv
  have hnode := node?_move horigin hplace (.text text)
  have hkeeps := keepsDirectories_move horigin hplace (.text text)
  have hnew := (hnode place).trans (if_pos rfl)
  have hgone := (hnode origin).trans ((if_neg hne.symm).trans (if_pos rfl))
  refine ⟨?_, ?_, ?_, ?_, ?_⟩
  · rw [hplaceEq]
    exact content?_eq_some_iff.2 hnew
  · intro q hpath hsibling
    rw [← h.content q (.inr hsibling)]
    rw [hplaceEq] at hpath
    rw [horiginEq] at hsibling
    exact content?_congr ((hnode q).trans ((if_neg hpath).trans (if_neg hsibling)))
  · rw [readText_of_opened hplace hkeeps, textAt, hnew]
  · rw [horiginEq]
    exact hgone
  · rw [readText_of_opened horigin hkeeps, textAt, hgone]

/-! ### Courses of a change -/

/-- What a change leaves: once it is done the file is replaced, if it failed the file is kept, and
if it was cut short it is one or the other. -/
inductive Settled (t u : FileTree) (path text : String) : Option (Except StoreError Unit) → Prop where
  | cut (h : Kept t u path ∨ Replaced t u path text) : Settled t u path text none
  | failed (h : Kept t u path) (e : StoreError) : Settled t u path text (some (.error e))
  | done (h : Replaced t u path text) : Settled t u path text (some (.ok ()))

theorem Settled.kept_or_replaced {r : Option (Except StoreError Unit)}
    (h : Settled t u path text r) : Kept t u path ∨ Replaced t u path text := by
  cases h with
  | cut h => exact h
  | failed hkept => exact .inl hkept
  | done hreplaced => exact .inr hreplaced

theorem runs_makeParent {r : Option (Except StoreError Unit)}
    (h : (makeParent path).Runs s r s') :
    ∃ ps, ps <:+ reversedPieces (parent path) ∧ s'.files = (s.files.createDirsFrom ps).1 := by
  have hnone (t : FileTree) : t = (t.createDirsFrom []).1 := rfl
  rw [makeParent] at h
  split at h
  · obtain ⟨-, rfl⟩ := h.of_done
    exact ⟨[], List.nil_suffix, hnone _⟩
  · rcases h.of_createDirs with ⟨-, rfl⟩ | ⟨files, x, hcreate, h⟩
    · exact ⟨[], List.nil_suffix, hnone _⟩
    · have hfiles : s'.files = files := by
        cases x with
        | ok _ => rw [h.of_done.2]
        | error cause => rw [h.of_done.2]
      cases hcreate with
      | made hmade =>
        refine ⟨_, List.suffix_refl _, hfiles.trans ?_⟩
        exact (congrArg Prod.fst hmade).symm
      | refused missed cause => exact ⟨_, List.drop_suffix _ _, hfiles⟩

theorem runs_replace {r : Option (Except StoreError Unit)} (hkept : Kept t s.files path)
    (h : (replace path text).Runs s r s') : Settled t s'.files path text r := by
  rw [replace] at h
  rcases h.of_writeText with ⟨rfl, rfl⟩ | ⟨files, x, hwrite, h⟩
  · exact .cut (.inl hkept)
  cases hwrite with
  | refused cause =>
    obtain ⟨rfl | rfl, rfl⟩ := h.of_done
    · exact .cut (.inl hkept)
    · exact .failed hkept _
  | stopped hopened bytes cause =>
    have hkept := hkept.putSibling hopened (.ofBytes (text.toUTF8.toList.take bytes))
    obtain ⟨rfl | rfl, rfl⟩ := h.of_done
    · exact .cut (.inl hkept)
    · exact .failed hkept _
  | written hwritten =>
    obtain ⟨origin, hopened, rfl⟩ := writeText_eq_ok_iff.1 hwritten
    have hkept := hkept.putSibling hopened (.text text)
    rcases h.of_rename with ⟨rfl, rfl⟩ | ⟨files, x, hmove, h⟩
    · exact .cut (.inl hkept)
    cases hmove with
    | refused cause =>
      obtain ⟨rfl | rfl, rfl⟩ := h.of_done
      · exact .cut (.inl hkept)
      · exact .failed hkept _
    | moved hmoved =>
      -- Only here does the file itself change, and all of the text is there.
      have htext : (s.files.put origin (.file (.text text))).node? (placeOf (sibling path)) =
          some (.file (.text text)) := by
        rw [placeOf_of_opened hopened, node?_put _ (ne_nil_of_opened hopened), if_pos rfl]
      have hreplaced := hkept.moveSibling htext hmoved
      obtain ⟨rfl | rfl, rfl⟩ := h.of_done
      · exact .cut (.inr hreplaced)
      · exact .done hreplaced

theorem runs_save {items : SortedMap String} {r : Option (Except StoreError Unit)}
    (h : (save path items).Runs s r s') :
    Settled s.files s'.files path (TextMap.toJson items).pretty r := by
  have hparent {r : Option (Except StoreError Unit)} {s₁ : Surroundings}
      (h : (makeParent path).Runs s r s₁) : Kept s.files s₁.files path := by
    obtain ⟨ps, hps, hfiles⟩ := runs_makeParent h
    rw [hfiles]
    exact kept_createDirsFrom s.files hps
  rcases Plan.Runs.of_bind h with ⟨rfl, hcut⟩ | ⟨a, s₁, hmade, hrest⟩
  · exact .cut (.inl (hparent hcut))
  · have hkept := hparent hmade
    cases a with
    | error e =>
      obtain ⟨rfl | rfl, rfl⟩ := hrest.of_done
      · exact .cut (.inl hkept)
      · exact .failed hkept e
    | ok _ => exact runs_replace hkept hrest

/-- What is asked for is the same wherever the same is read. -/
theorem get_congr (hread : s'.files.readText path = s.files.readText path) (key : String) :
    (((file path).get key).run s').1 = (((file path).get key).run s).1 := by
  obtain ⟨_, hrun⟩ := run_get path key s
  obtain ⟨_, hrun'⟩ := run_get path key s'
  rw [hrun, hrun', loaded_congr hread]

/-- The text that a preference file gets by a change. -/
def changed (t : FileTree) (path key value : String) : Except StoreError String :=
  (loaded t path).map fun items => (TextMap.toJson (items.insert key value)).pretty

theorem runs_set {key value : String} {r : Option (Store × Except StoreError Unit)}
    (h : ((file path).set key value).Runs s r s') :
    (Kept s.files s'.files path ∧ ∀ store, r ≠ some (store, .ok ())) ∨
      ∃ text, changed s.files path key value = .ok text ∧
        Settled s.files s'.files path text (r.map (·.2)) := by
  rcases Plan.Runs.of_bind h with ⟨rfl, hload⟩ | ⟨a, s₁, hload, hrest⟩
  · rw [(runs_load hload).1]
    exact .inl ⟨.refl _ _, by simp⟩
  obtain ⟨rfl, hitems⟩ := runs_load hload
  cases a with
  | error e =>
    obtain ⟨hr, rfl⟩ := hrest.of_done
    exact .inl ⟨.refl _ _, by rcases hr with rfl | rfl <;> simp⟩
  | ok items =>
    refine .inr ⟨_, by rw [changed, hitems items rfl]; rfl, ?_⟩
    rcases Plan.Runs.of_bind hrest with ⟨rfl, hsave⟩ | ⟨saved, s₂, hsave, hrest⟩
    · exact runs_save hsave
    have hsettled := runs_save hsave
    cases hsettled with
    | failed hkept e =>
      obtain ⟨rfl | rfl, rfl⟩ := hrest.of_done
      · exact .cut (.inl hkept)
      · exact .failed hkept e
    | done hreplaced =>
      -- The reports that follow leave the files alone.
      rcases Plan.Runs.of_bind hrest with ⟨rfl, hreport⟩ | ⟨_, s₃, hreport, hrest⟩
      · refine .cut (.inr ?_)
        rw [hreport.of_report]
        exact hreplaced
      · rw [← hreport.of_report] at hreplaced
        obtain ⟨rfl | rfl, rfl⟩ := hrest.of_done
        · exact .cut (.inr hreplaced)
        · exact .done hreplaced

/-! ### Changes as a whole -/

section change
variable {key value : String} {r : Option (Store × Except StoreError Unit)} {store : Store}

theorem kept_or_replaced (h : ((file path).set key value).Runs s r s') :
    Kept s.files s'.files path ∨
      ∃ text, changed s.files path key value = .ok text ∧ Replaced s.files s'.files path text := by
  rcases runs_set h with ⟨hkept, -⟩ | ⟨text, htext, hsettled⟩
  · exact .inl hkept
  · exact hsettled.kept_or_replaced.imp_right fun hreplaced => ⟨text, htext, hreplaced⟩

theorem kept_of_error {e : StoreError}
    (h : ((file path).set key value).Runs s (some (store, .error e)) s') :
    Kept s.files s'.files path := by
  rcases runs_set h with ⟨hkept, -⟩ | ⟨text, -, hsettled⟩
  · exact hkept
  · cases hsettled with
    | failed hkept => exact hkept

theorem replaced_of_ok (h : ((file path).set key value).Runs s (some (store, .ok ())) s') :
    ∃ text, changed s.files path key value = .ok text ∧
      Replaced s.files s'.files path text := by
  rcases runs_set h with ⟨-, hr⟩ | ⟨text, htext, hsettled⟩
  · exact absurd rfl (hr store)
  · cases hsettled with
    | done hreplaced => exact ⟨text, htext, hreplaced⟩

/-- **A change is atomic**, wherever it fails or stops.

After a failure the file is kept, and what is asked for is answered as before if the path only goes
down from where a directory is missing.  At every moment the file is kept or it has the whole new
text.  Once the change is done it has the new text. -/
theorem set_atomic (h : ((file path).set key value).Runs s r s') :
    (∀ store e, r = some (store, .error e) → Kept s.files s'.files path ∧
      (s.files.Grounded → s.files.Descends path →
        ∀ asked, (((file path).get asked).run s').1 = (((file path).get asked).run s).1)) ∧
    (Kept s.files s'.files path ∨
      ∃ text, changed s.files path key value = .ok text ∧ Replaced s.files s'.files path text) ∧
    (∀ store, r = some (store, .ok ()) →
      ∃ text, changed s.files path key value = .ok text ∧
        Replaced s.files s'.files path text) := by
  refine ⟨?_, kept_or_replaced h, ?_⟩
  · rintro store e rfl
    have hkept := kept_of_error h
    exact ⟨hkept, fun hgrounded hdescends => get_congr (hkept.reading hgrounded hdescends)⟩
  · rintro store rfl
    exact replaced_of_ok h

end change

/-- A preference file, and a directory where its sibling would stand. -/
def blockedFiles : FileTree :=
  ⟨[(["prefs.json"], .file (.text "\x7b\"theme\":\"light-theme\"\x7d")),
    (["prefs.json.tmp"], .directory)]⟩

theorem set_atomic_blocked :
    let store := Store.file "prefs.json"
    let s := Surroundings.ofFiles blockedFiles
    let s' := ((store.set themeKey "dark-theme").run s).2
    s.files.Grounded ∧ Kept s.files s'.files "prefs.json" ∧
      ∀ asked, ((store.get asked).run s').1 = ((store.get asked).run s).1 := by
  intro store s s'
  have hgrounded : s.files.Grounded := by decide +kernel
  have hatomic := set_atomic (Plan.runs_run (store.set themeKey "dark-theme") s)
  have hfailed : ((store.set themeKey "dark-theme").run s).1.2 =
      .error (.io "prefs.json.tmp" .isDirectory) := by decide +kernel
  obtain ⟨hkept, hget⟩ := hatomic.1 _ _ (congrArg some (Prod.ext rfl hfailed))
  exact ⟨hgrounded, hkept, hget hgrounded (by decide +kernel)⟩

/-- **A change that fails can uncover a file.**  The directory that the path goes up from is made before
the sibling turns out to be in the way. -/
theorem set_uncovers :
    let store := Store.file "a/../prefs.json"
    let s := Surroundings.ofFiles blockedFiles
    let s' := ((store.set themeKey "dark-theme").run s).2
    s.files.Grounded ∧
      ((store.set themeKey "dark-theme").run s).1.2 =
        .error (.io "a/../prefs.json.tmp" .isDirectory) ∧
      ((store.get themeKey).run s).1 = .ok none ∧
      ((store.get themeKey).run s').1 = .ok (some "light-theme") := by
  decide +kernel

end ColorTheme.Store
