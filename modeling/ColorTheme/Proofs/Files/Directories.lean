import ColorTheme.Proofs.Files.Tree

/-!
# Making directories

Making directories changes no file.  Still, a path can be followed further once they are there, and
it may lead up again or to a name that is too long.  What is read at it is the same as before if it
only goes down, by names that are not too long, from where a directory was missing.
-/

namespace ColorTheme.FileTree

open Files

variable {t u : FileTree} {place : Place} {path : String}

/-! ### Grounded trees -/

/-- Everything is held by a directory. -/
def Grounded (t : FileTree) : Prop := ∀ n ∈ t.nodes, t.node? n.1.dropLast = some .directory

instance (t : FileTree) : Decidable t.Grounded :=
  inferInstanceAs (Decidable (∀ n ∈ t.nodes, t.node? n.1.dropLast = some .directory))

theorem mem_of_lookup_eq_some {nodes : List (Place × FileNode)} {node : FileNode}
    (h : nodes.lookup place = some node) : (place, node) ∈ nodes := by
  obtain ⟨before, after, rfl, -⟩ := List.lookup_eq_some_iff.1 h
  simp

theorem Grounded.holder_of_node? (h : t.Grounded) {node : FileNode}
    (hnode : t.node? place = some node) : t.node? place.dropLast = some .directory := by
  by_cases hplace : place = []
  · subst hplace
    rfl
  · rw [node?, if_neg hplace] at hnode
    exact h _ (mem_of_lookup_eq_some hnode)

theorem Grounded.child_missing (h : t.Grounded) (hmissing : t.node? place = none) (name : String) :
    t.node? (place ++ [name]) = none := by
  refine Option.eq_none_iff_forall_ne_some.2 fun node hnode => ?_
  have hholder := h.holder_of_node? hnode
  rw [List.dropLast_concat, hmissing] at hholder
  cases hholder

/-- What a path leads to is held by a directory, also if nothing is there. -/
theorem Grounded.holder_of_walk (h : t.Grounded) {ps : List String} {q : Place}
    (hwalk : t.walk place ps = .ok q) (hplace : t.node? place.dropLast = some .directory) :
    t.node? q.dropLast = some .directory := by
  induction ps generalizing place with
  | nil =>
    cases hwalk
    exact hplace
  | cons piece rest ih =>
    rw [walk_cons, Except.bind_eq_ok_iff] at hwalk
    obtain ⟨next, henter, hrest⟩ := hwalk
    refine ih hrest ?_
    have hdirectory := directory_of_enter henter
    rw [enter_eq_goOn henter, goOn]
    split
    · exact hplace
    · split
      · exact h.holder_of_node? hplace
      · rw [List.dropLast_concat]
        exact hdirectory

/-! ### Making one directory -/

theorem createDir_eq_ok_iff {ps : List String} :
    t.createDir ps = .ok u ↔
      ∃ place, t.walk [] ps = .ok place ∧ t.node? place = none ∧ u = t.put place .directory := by
  rw [createDir, Except.bind_eq_ok_iff]
  refine exists_congr fun place => and_congr_right fun _ => ?_
  cases t.node? place with
  | some node => simp
  | none => simp [eq_comm]

theorem ne_nil_of_missing (h : t.node? place = none) : place ≠ [] := by
  rintro rfl
  cases h

theorem keepsDirectories_putDirectory (h : t.node? place = none) :
    KeepsDirectories t (t.put place .directory) := by
  intro q hq
  rw [node?_put t (ne_nil_of_missing h)]
  split
  · rfl
  · exact hq

theorem content?_putDirectory (h : t.node? place = none) (q : Place) :
    (t.put place .directory).content? q = t.content? q := by
  by_cases hq : q = place
  · rw [content?, content?, node?_put t (ne_nil_of_missing h), if_pos hq, hq, h]
  · exact content?_congr ((node?_put t (ne_nil_of_missing h) _ q).trans (if_neg hq))

/-- What is new has to be put into directories that were there. -/
theorem Grounded.of_keepsDirectories (hgrounded : t.Grounded) (hkeeps : KeepsDirectories t u)
    (hnodes : ∀ n ∈ u.nodes, n ∈ t.nodes ∨ t.node? n.1.dropLast = some .directory) :
    u.Grounded := by
  intro n hn
  refine hkeeps _ ?_
  rcases hnodes n hn with hold | hnew
  · exact hgrounded n hold
  · exact hnew

theorem Grounded.put (hgrounded : t.Grounded) {node : FileNode}
    (hkeeps : KeepsDirectories t (t.put place node))
    (hholder : t.node? place.dropLast = some .directory) : (t.put place node).Grounded := by
  refine hgrounded.of_keepsDirectories hkeeps ?_
  intro n hn
  rcases List.mem_cons.1 hn with rfl | hn
  · exact .inr hholder
  · exact .inl (List.mem_filter.1 hn).1

theorem Grounded.createDir (hgrounded : t.Grounded) {ps : List String}
    (h : t.createDir ps = .ok u) : u.Grounded := by
  obtain ⟨place, hwalk, hmissing, rfl⟩ := createDir_eq_ok_iff.1 h
  exact hgrounded.put (keepsDirectories_putDirectory hmissing) (hgrounded.holder_of_walk hwalk rfl)

/-! ### Paths that go down -/

/-- The pieces that are left where a directory is missing. -/
def behind (t : FileTree) : Place → List String → List String
  | _, [] => []
  | place, piece :: rest =>
    match t.enter place piece with
    | .ok q => behind t q rest
    | .error .notFound => piece :: rest
    | .error _ => []

/-- Where a directory is missing, the path only goes down, by names that are not too long. -/
def Descends (t : FileTree) (path : String) : Prop :=
  ∀ p ∈ t.behind [] (pieces path), p ≠ ".." ∧ p.utf8ByteSize ≤ nameLimit

instance (t : FileTree) (path : String) : Decidable (t.Descends path) :=
  inferInstanceAs (Decidable (∀ p ∈ t.behind [] (pieces path), _))

theorem behind_suffix (t : FileTree) (place : Place) (ps : List String) :
    t.behind place ps <:+ ps := by
  induction ps generalizing place with
  | nil => exact List.suffix_refl _
  | cons piece rest ih =>
    rw [behind]
    split
    · exact (ih _).trans (List.suffix_cons _ _)
    · exact List.suffix_refl _
    · exact List.nil_suffix

theorem behind_append {ps qs : List String} {q : Place} (h : t.walk place ps = .ok q) :
    t.behind place (ps ++ qs) = t.behind q qs := by
  induction ps generalizing place with
  | nil =>
    cases h
    rfl
  | cons piece rest ih =>
    rw [walk_cons, Except.bind_eq_ok_iff] at h
    obtain ⟨next, henter, hrest⟩ := h
    rw [List.cons_append, behind, henter]
    exact ih hrest

theorem behind_missing (h : t.node? place = none) (ps : List String) : t.behind place ps = ps := by
  cases ps with
  | nil => rfl
  | cons piece rest => rw [behind, enter_missing h]

/-- Nothing is read below a directory that holds nothing. -/
theorem not_found_below {ps : List String} (hdirectory : t.node? place = some .directory)
    (hempty : ∀ name, t.node? (place ++ [name]) = none)
    (hps : ∀ p ∈ ps, p ≠ ".." ∧ p.utf8ByteSize ≤ nameLimit) (hgoes : ∃ p ∈ ps, ¬Stays p) :
    (t.walk place ps >>= t.textAt) = .error .notFound := by
  induction ps with
  | nil =>
    obtain ⟨p, hp, -⟩ := hgoes
    cases hp
  | cons piece rest ih =>
    by_cases hstays : Stays piece
    · -- The walk is still in the directory, and one of the pieces that are left goes on.
      rw [walk_cons, enter_stays hstays hdirectory, Except.ok_bind]
      refine ih (fun p hp => hps p (List.mem_cons_of_mem _ hp)) ?_
      obtain ⟨p, hp, hgoes⟩ := hgoes
      rcases List.mem_cons.1 hp with rfl | hp
      · exact absurd hstays hgoes
      · exact ⟨p, hp, hgoes⟩
    · obtain ⟨hup, hshort⟩ := hps piece List.mem_cons_self
      have hname : IsName piece :=
        ⟨fun h => hstays (.inl h), fun h => hstays (.inr h), hup⟩
      rw [walk_cons, enter_name hname hdirectory, if_neg (Nat.not_lt.2 hshort), Except.ok_bind]
      cases rest with
      | nil => rw [walk_nil, Except.ok_bind, textAt, hempty]
      | cons next rest =>
        rw [walk_cons, enter_missing (hempty piece), Except.error_bind, Except.error_bind]

/-- **Making a directory on the way** to a path that goes down leaves what is read there: before it
the way ended at the directory, and now it ends in it. -/
theorem readText_createDir {before after : List String} (hgrounded : t.Grounded)
    (hdescends : t.Descends path) (hpieces : pieces path = before ++ after)
    (hgoes : ∃ p ∈ after, ¬Stays p) (h : t.createDir before = .ok u) :
    u.readText path = t.readText path ∧ u.Descends path := by
  obtain ⟨place, hwalk, hmissing, rfl⟩ := createDir_eq_ok_iff.1 h
  have hplace := ne_nil_of_missing hmissing
  have hkeeps := keepsDirectories_putDirectory hmissing
  rw [Descends, hpieces, behind_append hwalk, behind_missing hmissing] at hdescends
  have hempty (name : String) : (t.put place .directory).node? (place ++ [name]) = none := by
    rw [node?_put t hplace, if_neg (by simp)]
    exact hgrounded.child_missing hmissing name
  have hdirectory : (t.put place .directory).node? place = some .directory := by
    rw [node?_put t hplace, if_pos rfl]
  refine ⟨?_, ?_⟩
  · have hbefore : (t.walk place after >>= t.textAt) = .error .notFound := by
      obtain ⟨p, hp, -⟩ := hgoes
      obtain ⟨piece, rest, rfl⟩ := List.exists_cons_of_ne_nil (List.ne_nil_of_mem hp)
      rw [walk_cons, enter_missing hmissing, Except.error_bind, Except.error_bind]
    rw [readText_eq, readText_eq, hpieces, walk_append, walk_append, hkeeps.walk_eq hwalk, hwalk]
    cases checkPath path with
    | error e => rfl
    | ok _ => exact (not_found_below hdirectory hempty hdescends hgoes).trans hbefore.symm
  · rw [Descends, hpieces, behind_append (hkeeps.walk_eq hwalk)]
    intro p hp
    exact hdescends p ((behind_suffix _ _ _).subset hp)

/-! ### Making several directories -/

/-- What holds before directories are made and is kept by making one of them holds after it, wherever
it stops. -/
theorem createDirsFrom_induction {I : FileTree → Prop} {ps : List String}
    (hstep : ∀ {t u : FileTree} {before}, before <:+ ps → before ≠ [] → I t →
      t.createDir before.reverse = .ok u → I u) (ht : I t) : I (t.createDirsFrom ps).1 := by
  induction ps generalizing t with
  | nil => exact ht
  | cons last rest ih =>
    have hlast {t u : FileTree} (ht : I t) (h : t.createDir (last :: rest).reverse = .ok u) : I u :=
      hstep (List.suffix_refl _) (by simp) ht h
    rw [createDirsFrom]
    split
    · next u hmade => exact hlast ht hmade
    · have hrest : I (t.createDirsFrom rest).1 :=
        ih (fun hbefore => hstep (hbefore.trans (List.suffix_cons _ _))) ht
      split
      · next hstopped => exact (congrArg (I ·.1) hstopped).mp hrest
      · next u hmade =>
        rw [hmade] at hrest
        split
        · next hlastMade => exact hlast hrest hlastMade
        · exact hrest
    · exact ht

theorem content?_createDirsFrom (t : FileTree) (ps : List String) (q : Place) :
    (t.createDirsFrom ps).1.content? q = t.content? q := by
  refine createDirsFrom_induction (I := fun u => u.content? q = t.content? q) ?_ rfl
  intro u v before _ _ hu hmade
  obtain ⟨place, -, hmissing, rfl⟩ := createDir_eq_ok_iff.1 hmade
  rw [content?_putDirectory hmissing, hu]

/-- **Making the directory of a path** that goes down leaves what is read at the path, also if it
stops on the way. -/
theorem readText_createDirsFrom (hgrounded : t.Grounded) (hdescends : t.Descends path)
    {ps : List String} (hps : ps <:+ reversedPieces (parent path)) :
    (t.createDirsFrom ps).1.readText path = t.readText path := by
  -- What is read stays only as long as the path goes down, so both are kept together.
  have hkept : (t.createDirsFrom ps).1.Grounded ∧
      (t.createDirsFrom ps).1.readText path = t.readText path ∧
      (t.createDirsFrom ps).1.Descends path := by
    refine createDirsFrom_induction
      (I := fun u => u.Grounded ∧ u.readText path = t.readText path ∧ u.Descends path) ?_
      ⟨hgrounded, rfl, hdescends⟩
    rintro u v before hbefore hne ⟨hgrounded, hread, hdescends⟩ hmade
    obtain ⟨after, hpieces, hgoes⟩ := pieces_eq_of_suffix_parent (hbefore.trans hps) hne
    obtain ⟨hread', hdescends'⟩ := readText_createDir hgrounded hdescends hpieces hgoes hmade
    exact ⟨hgrounded.createDir hmade, hread'.trans hread, hdescends'⟩
  exact hkept.2.1

end ColorTheme.FileTree
