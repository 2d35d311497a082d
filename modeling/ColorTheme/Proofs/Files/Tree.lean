import ColorTheme.Files.Tree
import ColorTheme.Proofs.Except
import ColorTheme.Proofs.Files.Path

/-!
# Following paths in a tree

There are no links, so a path leads to one place at most, which its pieces tell without the tree.  The
tree decides whether the path can be followed there: every place on the way has to be a directory.
Steps that leave the directories where they are thus leave the paths alone.
-/

namespace ColorTheme

/-! ### Places -/

namespace Files

/-- One piece on from a place, whatever is there. -/
def goOn (place : Place) (piece : String) : Place :=
  if Stays piece then place
  else if piece = ".." then place.dropLast
  else place ++ [piece]

/-- The place that a path denotes. -/
def placeOf (path : String) : Place := (pieces path).foldl goOn []

theorem goOn_stays {piece : String} (h : Stays piece) (place : Place) : goOn place piece = place :=
  if_pos h

theorem goOn_name {piece : String} (h : IsName piece) (place : Place) :
    goOn place piece = place ++ [piece] := by
  rw [goOn, if_neg h.not_stays, if_neg h.2.2]

theorem foldl_goOn_stays {trail : List String} (h : ∀ p ∈ trail, Stays p) (place : Place) :
    trail.foldl goOn place = place := by
  induction trail with
  | nil => rfl
  | cons p rest ih =>
    rw [List.foldl_cons, goOn_stays (h p List.mem_cons_self)]
    exact ih fun q hq => h q (List.mem_cons_of_mem _ hq)

end Files

namespace FileTree

open Files

variable {t u : FileTree} {place : Place}

/-! ### What is found at a place -/

/-- What the file at a place holds. -/
def content? (t : FileTree) (place : Place) : Option Content :=
  match t.node? place with
  | some (.file content) => some content
  | _ => none

theorem content?_eq_some_iff {content : Content} :
    t.content? place = some content ↔ t.node? place = some (.file content) := by
  unfold content?
  split <;> simp_all

theorem content?_congr (h : t.node? place = u.node? place) : t.content? place = u.content? place := by
  rw [content?, content?, h]

theorem lookup_filter (nodes : List (Place × FileNode)) (place q : Place) :
    (nodes.filter (·.1 ≠ place)).lookup q = if q = place then none else nodes.lookup q := by
  induction nodes with
  | nil => simp
  | cons n rest ih =>
    obtain ⟨p, node⟩ := n
    rw [List.filter_cons]
    by_cases hp : p = place
    · subst hp
      rw [if_neg (by simp), ih, List.lookup_cons]
      by_cases hq : q = p
      · rw [if_pos hq, if_pos hq]
      · rw [if_neg hq, if_neg hq, beq_eq_false_iff_ne.2 hq]
    · rw [if_pos (by simpa using hp), List.lookup_cons, List.lookup_cons, ih]
      by_cases hq : q = p
      · subst hq
        simp [hp]
      · rw [beq_eq_false_iff_ne.2 hq]

theorem node?_put (t : FileTree) (hplace : place ≠ []) (node : FileNode) (q : Place) :
    (t.put place node).node? q = if q = place then some node else t.node? q := by
  unfold node? put
  by_cases hq : q = place
  · subst hq
    simp [hplace]
  · by_cases hroot : q = []
    · subst hroot
      simp [hq]
    · simp only [hroot, if_false, List.lookup_cons, beq_eq_false_iff_ne.2 hq, lookup_filter, hq]

theorem node?_take (t : FileTree) (hplace : place ≠ []) (q : Place) :
    (t.take place).node? q = if q = place then none else t.node? q := by
  unfold node? take
  by_cases hroot : q = []
  · subst hroot
    simp [hplace.symm]
  · simp only [hroot, if_false, lookup_filter]

/-! ### Entering -/

theorem enter_congr (h : t.node? place = u.node? place) (piece : String) :
    t.enter place piece = u.enter place piece := by
  rw [enter, enter, h]

theorem directory_of_enter {piece : String} {q : Place} (h : t.enter place piece = .ok q) :
    t.node? place = some .directory := by
  unfold enter at h
  split at h
  · cases h
  · cases h
  · next hdirectory => exact hdirectory

theorem enter_missing (h : t.node? place = none) (piece : String) :
    t.enter place piece = .error .notFound := by
  rw [enter, h]

theorem enter_eq_goOn {piece : String} {q : Place} (h : t.enter place piece = .ok q) :
    q = goOn place piece := by
  have hdirectory := directory_of_enter h
  rw [enter, hdirectory] at h
  by_cases hstays : Stays piece
  · rw [goOn_stays hstays]
    exact (Except.ok.inj ((if_pos hstays).symm.trans h)).symm
  · replace h := (if_neg hstays).symm.trans h
    rw [goOn, if_neg hstays]
    split at h
    · next hup =>
      rw [if_pos hup]
      exact (Except.ok.inj h).symm
    · next hup =>
      rw [if_neg hup]
      split at h
      · cases h
      · exact (Except.ok.inj h).symm

theorem enter_stays {piece : String} (h : Stays piece) (hdirectory : t.node? place = some .directory) :
    t.enter place piece = .ok place := by
  have hpiece : piece = "" ∨ piece = "." := h
  rw [enter, hdirectory]
  exact if_pos hpiece

theorem enter_name {piece : String} (h : IsName piece)
    (hdirectory : t.node? place = some .directory) :
    t.enter place piece =
      if nameLimit < piece.utf8ByteSize then .error .nameTooLong else .ok (place ++ [piece]) := by
  have hpiece : ¬(piece = "" ∨ piece = ".") := h.not_stays
  rw [enter, hdirectory]
  simp only [if_neg hpiece, if_neg h.2.2]

/-! ### Following pieces -/

/-- The place that pieces lead to from another one. -/
def walk (t : FileTree) (place : Place) (pieces : List String) : Except OsError Place :=
  pieces.foldlM t.enter place

@[simp]
theorem walk_nil (t : FileTree) (place : Place) : t.walk place [] = .ok place := rfl

theorem walk_cons (t : FileTree) (place : Place) (piece : String) (rest : List String) :
    t.walk place (piece :: rest) = t.enter place piece >>= fun q => t.walk q rest :=
  List.foldlM_cons

theorem walk_append (t : FileTree) (place : Place) (ps qs : List String) :
    t.walk place (ps ++ qs) = t.walk place ps >>= fun q => t.walk q qs :=
  List.foldlM_append

theorem walk_singleton (t : FileTree) (place : Place) (piece : String) :
    t.walk place [piece] = t.enter place piece := by
  rw [walk_cons]
  cases t.enter place piece <;> rfl

theorem walk_eq_foldl {ps : List String} {q : Place} (h : t.walk place ps = .ok q) :
    q = ps.foldl goOn place := by
  induction ps generalizing place with
  | nil => exact (Except.ok.inj h).symm
  | cons piece rest ih =>
    rw [walk_cons, Except.bind_eq_ok_iff] at h
    obtain ⟨next, henter, hrest⟩ := h
    rw [ih hrest, enter_eq_goOn henter, List.foldl_cons]

/-- Directories of one tree are directories of the other. -/
def KeepsDirectories (t u : FileTree) : Prop :=
  ∀ q, t.node? q = some .directory → u.node? q = some .directory

theorem KeepsDirectories.walk_eq (h : KeepsDirectories t u) {ps : List String} {q : Place}
    (hwalk : t.walk place ps = .ok q) : u.walk place ps = .ok q := by
  induction ps generalizing place with
  | nil => exact hwalk
  | cons piece rest ih =>
    rw [walk_cons, Except.bind_eq_ok_iff] at hwalk
    obtain ⟨next, henter, hrest⟩ := hwalk
    have hdirectory := directory_of_enter henter
    have henter' : u.enter place piece = .ok next := by
      rw [← enter_congr (hdirectory.trans (h place hdirectory).symm), henter]
    rw [walk_cons, henter', Except.ok_bind, ih hrest]

theorem walk_stays_congr {ps : List String} (hps : ∀ p ∈ ps, Stays p)
    (h : t.node? place = u.node? place) : t.walk place ps = u.walk place ps := by
  induction ps with
  | nil => rfl
  | cons piece rest ih =>
    have hrest := ih fun p hp => hps p (List.mem_cons_of_mem _ hp)
    have hpiece := hps piece List.mem_cons_self
    rw [walk_cons, walk_cons, enter_congr h]
    cases henter : u.enter place piece with
    | error e => rfl
    | ok q =>
      rw [enter_eq_goOn henter, goOn_stays hpiece]
      exact hrest

/-! ### Reading -/

def textAt (t : FileTree) (place : Place) : Except OsError String :=
  match t.node? place with
  | none => .error .notFound
  | some .directory => .error .isDirectory
  | some (.file (.binary _)) => .error .notText
  | some (.file (.text s)) => .ok s

theorem readText_eq (t : FileTree) (path : String) :
    t.readText path =
      (checkPath path >>= fun _ => t.walk [] (pieces path)) >>= t.textAt := rfl

theorem textAt_congr (h : t.node? place = u.node? place) : t.textAt place = u.textAt place := by
  rw [textAt, textAt, h]

end FileTree

end ColorTheme
