import ColorTheme.Proofs.Files.Directories

/-!
# Writing and moving files

A text is written at the place that the path denotes, and a file is moved from one such place to the
other; nothing else changes.  What is done to a file beside the one that a path denotes thus does not
change what is read at the path.
-/

namespace ColorTheme.FileTree

open Files

variable {t u : FileTree} {path text : String} {place : Place}

/-! ### Putting a file -/

theorem keepsDirectories_put (hplace : place ≠ []) (hfree : t.node? place ≠ some .directory)
    (node : FileNode) : KeepsDirectories t (t.put place node) := by
  intro q hq
  rw [node?_put t hplace, if_neg, hq]
  rintro rfl
  exact hfree hq

/-! ### Opening a file -/

/-- The place of the file that a path is opened for writing at. -/
def opened (t : FileTree) (path : String) : Except OsError Place := do
  checkPath path
  let target ← t.target path
  if !target.isName || target.hasSlash then .error .isDirectory
  else
    let place ← t.enter target.holder target.piece
    if t.node? place = some .directory then .error .isDirectory else .ok place

theorem opened_of_enter {target : Target} (hchecked : checkPath path = .ok ())
    (htarget : t.target path = .ok target) (hname : target.isName = true)
    (hslash : target.hasSlash = false) (henter : t.enter target.holder target.piece = .ok place)
    (hfree : t.node? place ≠ some .directory) : t.opened path = .ok place := by
  rw [opened, hchecked, Except.ok_bind, htarget, Except.ok_bind, hname, hslash, if_neg (by simp),
    henter, Except.ok_bind, if_neg hfree]

theorem writeText_eq (t : FileTree) (path text : String) :
    t.writeText path text =
      (t.opened path).map fun place => t.put place (.file (.text text)) := by
  unfold writeText opened
  cases checkPath path with
  | error e => rfl
  | ok _ =>
    cases t.target path with
    | error e => rfl
    | ok target =>
      simp only [Except.ok_bind]
      split
      · rfl
      · cases t.enter target.holder target.piece with
        | error e => rfl
        | ok place =>
          simp only [Except.ok_bind]
          split <;> rfl

theorem writeText_eq_ok_iff :
    t.writeText path text = .ok u ↔
      ∃ place, t.opened path = .ok place ∧ u = t.put place (.file (.text text)) := by
  rw [writeText_eq]
  cases t.opened path with
  | error e => simp [Except.map]
  | ok place => simp [Except.map, eq_comm]

/-- A path that can be opened: its last piece is a name in a directory that is there. -/
structure Opens (t : FileTree) (path : String) (dir : List String) (holder : Place) (name : String) :
    Prop where
  checked : checkPath path = .ok ()
  pieces_eq : pieces path = dir ++ [name]
  isName : IsName name
  walk_dir : t.walk [] dir = .ok holder
  directory : t.node? holder = some .directory
  short : ¬nameLimit < name.utf8ByteSize
  free : t.node? (holder ++ [name]) ≠ some .directory

theorem target_isName {target : Target} (h : t.target path = .ok target)
    (hname : target.isName = true) (hslash : target.hasSlash = false) :
    ∃ dir, pieces path = dir ++ [target.piece] ∧ IsName target.piece ∧
      t.walk [] dir = .ok target.holder ∧ t.node? target.holder = some .directory := by
  unfold FileTree.target at h
  dsimp only at h
  split at h
  · cases h
    cases hname
  · next last before hdrop =>
    rw [Except.bind_eq_ok_iff] at h
    obtain ⟨reached, hwalk, h⟩ := h
    rw [Except.bind_eq_ok_iff] at h
    obtain ⟨holder, hdot, h⟩ := h
    cases h
    have hstay : goOn reached "." = reached := goOn_stays (.inr rfl) reached
    have hholder : holder = reached := (enter_eq_goOn hdot).trans hstay
    -- No slash follows the last piece, so none was dropped before it.
    obtain ⟨first, rest, hreverse⟩ := List.exists_cons_of_ne_nil
      (mt List.reverse_eq_nil_iff.1 (pieces_ne_nil path))
    rw [hreverse, List.head?_cons, decide_eq_false_iff_not, Option.some.injEq] at hslash
    rw [hreverse, List.dropWhile_cons_of_neg (by simpa using hslash)] at hdrop
    obtain ⟨rfl, rfl⟩ := List.cons.inj hdrop
    have hpieces : pieces path = rest.reverse ++ [first] := by
      rw [← List.reverse_inj, hreverse]
      simp
    have hdots : first ≠ "." ∧ first ≠ ".." := by simpa [Target.isName] using hname
    refine ⟨rest.reverse, hpieces, ⟨hslash, hdots.1, hdots.2⟩, ?_, ?_⟩
    · rw [hholder]
      exact hwalk
    · rw [hholder]
      exact directory_of_enter hdot

theorem opens_of_opened (h : t.opened path = .ok place) :
    ∃ dir holder name, Opens t path dir holder name ∧ place = holder ++ [name] := by
  unfold opened at h
  rw [Except.bind_eq_ok_iff] at h
  obtain ⟨⟨⟩, hchecked, h⟩ := h
  rw [Except.bind_eq_ok_iff] at h
  obtain ⟨target, htarget, h⟩ := h
  split at h
  · cases h
  · next hplain =>
    rw [Bool.or_eq_true, not_or, Bool.not_eq_true', Bool.not_eq_false, Bool.not_eq_true] at hplain
    rw [Except.bind_eq_ok_iff] at h
    obtain ⟨reached, henter, h⟩ := h
    split at h
    · cases h
    · next hfree =>
      cases h
      obtain ⟨dir, hpieces, hname, hwalk, hdirectory⟩ := target_isName htarget hplain.1 hplain.2
      have hplace := enter_eq_goOn henter
      rw [goOn_name hname] at hplace
      refine ⟨dir, target.holder, target.piece,
        ⟨hchecked, hpieces, hname, hwalk, hdirectory, ?_, hplace ▸ hfree⟩, hplace⟩
      intro hlong
      rw [enter_name hname hdirectory, if_pos hlong] at henter
      cases henter

namespace Opens

variable {dir : List String} {holder : Place} {name : String}

theorem place_ne_nil (_h : Opens t path dir holder name) : holder ++ [name] ≠ [] := by simp

theorem walk_pieces (h : Opens t path dir holder name) :
    t.walk [] (pieces path) = .ok (holder ++ [name]) := by
  rw [h.pieces_eq, walk_append, h.walk_dir, Except.ok_bind, walk_singleton,
    enter_name h.isName h.directory, if_neg h.short]

theorem placeOf_eq (h : Opens t path dir holder name) : placeOf path = holder ++ [name] :=
  (walk_eq_foldl h.walk_pieces).symm

theorem endsIn (h : Opens t path dir holder name) : EndsIn path dir name [] :=
  ⟨h.pieces_eq, h.isName, by simp⟩

end Opens

theorem ne_nil_of_opened (h : t.opened path = .ok place) : place ≠ [] := by
  obtain ⟨dir, holder, name, hopens, rfl⟩ := opens_of_opened h
  exact hopens.place_ne_nil

theorem placeOf_of_opened (h : t.opened path = .ok place) : placeOf path = place := by
  obtain ⟨dir, holder, name, hopens, rfl⟩ := opens_of_opened h
  exact hopens.placeOf_eq

theorem free_of_opened (h : t.opened path = .ok place) : t.node? place ≠ some .directory := by
  obtain ⟨dir, holder, name, hopens, rfl⟩ := opens_of_opened h
  exact hopens.free

theorem readText_of_opened (h : t.opened path = .ok place) (hkeeps : KeepsDirectories t u) :
    u.readText path = u.textAt place := by
  obtain ⟨dir, holder, name, hopens, rfl⟩ := opens_of_opened h
  rw [readText_eq, hopens.checked, Except.ok_bind, hkeeps.walk_eq hopens.walk_pieces, Except.ok_bind]

theorem not_opened_of_nameless (hname : name? path = none) : t.opened path ≠ .ok place := by
  intro h
  obtain ⟨dir, holder, name, hopens, -⟩ := opens_of_opened h
  rw [hopens.endsIn.name?_eq] at hname
  cases hname

/-! ### Files in one directory -/

section directory
variable {dir trail : List String} {holder : Place} {name : String}

theorem placeOf_of_walk_dir (hends : EndsIn path dir name trail)
    (hwalk : t.walk [] dir = .ok holder) : placeOf path = holder ++ [name] := by
  rw [placeOf, hends.pieces_eq, List.foldl_append, ← walk_eq_foldl hwalk, List.foldl_cons,
    goOn_name hends.isName, foldl_goOn_stays hends.stays]

/-- What is read at a path depends on the directory that holds its name and on what that name
stands for. -/
theorem readText_congr (hends : EndsIn path dir name trail) (hwalk : t.walk [] dir = .ok holder)
    (hdirectory : t.node? holder = some .directory) (hkeeps : KeepsDirectories t u)
    (hnode : u.node? (holder ++ [name]) = t.node? (holder ++ [name])) :
    u.readText path = t.readText path := by
  have hplace : (u.walk holder (name :: trail) >>= u.textAt) =
      t.walk holder (name :: trail) >>= t.textAt := by
    rw [walk_cons, walk_cons, enter_name hends.isName hdirectory,
      enter_name hends.isName (hkeeps _ hdirectory)]
    split
    · rfl
    · rw [Except.ok_bind, Except.ok_bind, walk_stays_congr hends.stays hnode]
      cases htrail : t.walk (holder ++ [name]) trail with
      | error e => rfl
      | ok q =>
        have hq : q = holder ++ [name] :=
          (walk_eq_foldl htrail).trans (foldl_goOn_stays hends.stays _)
        rw [Except.ok_bind, Except.ok_bind, hq, textAt_congr hnode]
  rw [readText_eq, readText_eq, hends.pieces_eq, walk_append, walk_append, hkeeps.walk_eq hwalk, hwalk]
  cases checkPath path with
  | error e => rfl
  | ok _ => exact hplace

end directory

/-! ### Moving a file -/

/-- What a move leaves: the file at the new place and nothing at the old one. -/
theorem rename_eq_ok {source : String} (h : t.rename source path = .ok u) :
    ∃ origin content, t.opened source = .ok origin ∧ t.node? origin = some (.file content) ∧
      ∃ place, t.opened path = .ok place ∧
        u = if place = origin then t else (t.take origin).put place (.file content) := by
  unfold rename at h
  rw [Except.bind_eq_ok_iff] at h
  obtain ⟨⟨⟩, hsourceChecked, h⟩ := h
  rw [Except.bind_eq_ok_iff] at h
  obtain ⟨⟨⟩, hpathChecked, h⟩ := h
  rw [Except.bind_eq_ok_iff] at h
  obtain ⟨start, hstart, h⟩ := h
  rw [Except.bind_eq_ok_iff] at h
  obtain ⟨goal, hgoal, h⟩ := h
  split at h
  · cases h
  · next hnames =>
    rw [Bool.or_eq_true, not_or, Bool.not_eq_true', Bool.not_eq_false, Bool.not_eq_true',
      Bool.not_eq_false] at hnames
    rw [Except.bind_eq_ok_iff] at h
    obtain ⟨origin, horigin, h⟩ := h
    split at h
    · cases h
    · cases h
    · next content hcontent =>
      rw [Except.bind_eq_ok_iff] at h
      obtain ⟨place, hplace, h⟩ := h
      split at h
      · cases h
      · next hslashes =>
        rw [Bool.or_eq_true, not_or, Bool.not_eq_true, Bool.not_eq_true] at hslashes
        split at h
        · cases h
        · next hfree =>
          refine ⟨origin, content, ?_, hcontent, place, ?_, ?_⟩
          · refine opened_of_enter hsourceChecked hstart hnames.1 hslashes.1 horigin ?_
            rw [hcontent]
            simp
          · exact opened_of_enter hpathChecked hgoal hnames.2 hslashes.2 hplace hfree
          · split at h
            · next hsame =>
              rw [if_pos hsame]
              exact (Except.ok.inj h).symm
            · next hother =>
              rw [if_neg hother]
              exact (Except.ok.inj h).symm

section moving
variable {source : String} {origin : Place} {content : Content}

theorem node?_move (hsource : t.opened source = .ok origin) (hpath : t.opened path = .ok place)
    (content : Content) (q : Place) :
    ((t.take origin).put place (.file content)).node? q =
      if q = place then some (.file content) else if q = origin then none else t.node? q := by
  rw [node?_put _ (ne_nil_of_opened hpath), node?_take _ (ne_nil_of_opened hsource)]

theorem keepsDirectories_move (hsource : t.opened source = .ok origin)
    (hpath : t.opened path = .ok place) (content : Content) :
    KeepsDirectories t ((t.take origin).put place (.file content)) := by
  intro q hq
  rw [node?_move hsource hpath, if_neg, if_neg, hq]
  · rintro rfl
    exact free_of_opened hsource hq
  · rintro rfl
    exact free_of_opened hpath hq

end moving

end ColorTheme.FileTree
