import ColorTheme.Files.Path
import ColorTheme.Proofs.Text.Split

/-!
# Paths and their names

A path is told by its pieces.  If it ends in a name, maybe with pieces behind that stay where they
are, the path with another extension has the same pieces before the name and nothing behind it.  With
an extension of several parts the name is never the same one.
-/

namespace ColorTheme.Files

/-! ### Pieces -/

theorem pieces_ne_nil (path : String) : pieces path ≠ [] := by
  rw [pieces, ne_eq, List.map_eq_nil_iff]
  exact Text.split_ne_nil _ _

theorem ofPieces_pieces (path : String) : ofPieces (pieces path) = path := by
  rw [← String.toList_inj, ofPieces, String.toList_intercalate, pieces, List.map_map]
  have hid : (String.toList ∘ String.ofList) = id := funext fun cs => String.toList_ofList
  have hslash : "/".toList = ['/'] := by decide
  rw [hid, List.map_id, hslash, Text.intercalate_split]

theorem slashless_of_mem_pieces {path piece : String} (h : piece ∈ pieces path) :
    '/' ∉ piece.toList := by
  obtain ⟨cs, hcs, rfl⟩ := List.mem_map.1 h
  rw [String.toList_ofList]
  exact Text.any_eq_false_iff.1 (Text.any_eq_false_of_mem_split hcs)

theorem pieces_ofPieces {ps : List String} (hne : ps ≠ []) (h : ∀ p ∈ ps, '/' ∉ p.toList) :
    pieces (ofPieces ps) = ps := by
  have hslash : "/".toList = ['/'] := by decide
  have hslashless : ∀ cs ∈ ps.map String.toList, '/' ∉ cs := by
    intro cs hcs
    obtain ⟨p, hp, rfl⟩ := List.mem_map.1 hcs
    exact h p hp
  rw [pieces, ofPieces, String.toList_intercalate, hslash,
    Text.split_intercalate (by simpa using hne) hslashless, List.map_map]
  have hid : (String.ofList ∘ String.toList) = id := funext fun s => String.ofList_toList
  rw [hid, List.map_id]

/-! ### Pieces that stay and names -/

/-- A piece that stays where it is. -/
def Stays (piece : String) : Prop := piece = "" ∨ piece = "."

instance : DecidablePred Stays := fun _ => inferInstanceAs (Decidable (_ ∨ _))

/-- A piece that goes down. -/
def IsName (piece : String) : Prop := piece ≠ "" ∧ piece ≠ "." ∧ piece ≠ ".."

theorem IsName.not_stays {piece : String} (h : IsName piece) : ¬Stays piece := by
  rintro (hempty | hdot)
  · exact h.1 hempty
  · exact h.2.1 hdot

theorem dropStaying_append {stay before : List String} {piece : String}
    (hstay : ∀ p ∈ stay, Stays p) (hpiece : ¬Stays piece) :
    dropStaying (stay ++ piece :: before) = piece :: before := by
  induction stay with
  | nil =>
    cases before with
    | nil =>
      have hempty : piece ≠ "" := fun h => hpiece (.inl h)
      rw [List.nil_append, dropStaying, if_neg hempty]
    | cons next before =>
      have hneither : ¬(piece = "" ∨ piece = ".") := hpiece
      rw [List.nil_append, dropStaying, if_neg hneither]
      simp
  | cons p stay ih =>
    have hp : p = "" ∨ p = "." := hstay p List.mem_cons_self
    rw [List.cons_append, dropStaying, if_pos hp]
    · exact ih fun q hq => hstay q (List.mem_cons_of_mem _ hq)
    · simp

theorem eq_append_of_dropStaying {ps before : List String} {piece : String}
    (h : dropStaying ps = piece :: before) :
    piece ≠ "" ∧ ∃ stay, ps = stay ++ piece :: before ∧ ∀ p ∈ stay, Stays p := by
  induction ps with
  | nil => cases h
  | cons p rest ih =>
    cases rest with
    | nil =>
      rw [dropStaying] at h
      split at h
      · cases h
      · next hempty =>
        obtain ⟨rfl, rfl⟩ := List.cons.inj h
        exact ⟨hempty, [], rfl, by simp⟩
    | cons q rest =>
      rw [dropStaying] at h
      · split at h
        · next hp =>
          obtain ⟨hempty, stay, hsplit, hstay⟩ := ih h
          refine ⟨hempty, p :: stay, by rw [hsplit]; rfl, ?_⟩
          intro r hr
          rcases List.mem_cons.1 hr with rfl | hr
          · exact hp
          · exact hstay r hr
        · next hp =>
          obtain ⟨rfl, rfl⟩ := List.cons.inj h
          exact ⟨fun hempty => hp (.inl hempty), [], rfl, by simp⟩
      · simp

/-- A path whose pieces end in a name, with pieces behind it that stay. -/
structure EndsIn (path : String) (dir : List String) (name : String) (trail : List String) :
    Prop where
  pieces_eq : pieces path = dir ++ name :: trail
  isName : IsName name
  stays : ∀ p ∈ trail, Stays p

namespace EndsIn

variable {path name : String} {dir trail : List String}

theorem reversedPieces_eq (h : EndsIn path dir name trail) :
    reversedPieces path = name :: dir.reverse := by
  have hreverse : (pieces path).reverse = trail.reverse ++ name :: dir.reverse := by
    rw [h.pieces_eq]
    simp
  rw [reversedPieces, hreverse, dropStaying_append _ h.isName.not_stays]
  intro p hp
  exact h.stays p (List.mem_reverse.1 hp)

theorem name?_eq (h : EndsIn path dir name trail) : name? path = some name := by
  rw [name?, h.reversedPieces_eq]
  exact if_neg fun hdots => hdots.elim h.isName.2.1 h.isName.2.2

theorem slashless (h : EndsIn path dir name trail) : '/' ∉ name.toList := by
  have hmem : name ∈ pieces path := by
    rw [h.pieces_eq]
    simp
  exact slashless_of_mem_pieces hmem

theorem slashless_dir (h : EndsIn path dir name trail) {p : String} (hp : p ∈ dir) :
    '/' ∉ p.toList := by
  have hmem : p ∈ pieces path := by
    rw [h.pieces_eq]
    simp [hp]
  exact slashless_of_mem_pieces hmem

end EndsIn

/-- A path that goes up in the end does not end in a name. -/
theorem name?_eq_none_of_up {path : String} {dir trail : List String}
    (h : pieces path = dir ++ ".." :: trail) (htrail : ∀ p ∈ trail, Stays p) :
    name? path = none := by
  have hreverse : (pieces path).reverse = trail.reverse ++ ".." :: dir.reverse := by
    rw [h]
    simp
  have hup : ¬Stays ".." := by decide
  rw [name?, reversedPieces, hreverse, dropStaying_append _ hup]
  · rfl
  · intro p hp
    exact htrail p (List.mem_reverse.1 hp)

theorem endsIn_of_name? {path name : String} (h : name? path = some name) :
    ∃ dir trail, EndsIn path dir name trail := by
  unfold name? at h
  split at h
  · cases h
  · next piece before hreversed =>
    split at h
    · cases h
    · next hdots =>
      obtain rfl := Option.some.inj h
      obtain ⟨hempty, stay, hsplit, hstay⟩ := eq_append_of_dropStaying hreversed
      have hpieces : pieces path = before.reverse ++ piece :: stay.reverse := by
        rw [← List.reverse_inj, hsplit]
        simp
      refine ⟨before.reverse, stay.reverse, hpieces, ⟨hempty, ?_, ?_⟩, ?_⟩
      · exact fun h => hdots (.inl h)
      · exact fun h => hdots (.inr h)
      · intro p hp
        exact hstay p (List.mem_reverse.1 hp)

/-! ### The directory of a path -/

theorem not_stays_of_dropStaying {ps before : List String} {piece : String}
    (h : dropStaying ps = piece :: before) (hbefore : before ≠ []) : ¬Stays piece := by
  induction ps with
  | nil => cases h
  | cons p rest ih =>
    cases rest with
    | nil =>
      rw [dropStaying] at h
      split at h
      · cases h
      · exact absurd (List.cons.inj h).2.symm hbefore
    | cons q rest =>
      rw [dropStaying] at h
      · split at h
        · exact ih h
        · next hp =>
          rw [← (List.cons.inj h).1]
          exact hp
      · simp

theorem dropStaying_dropStaying (ps : List String) :
    dropStaying (dropStaying ps) = dropStaying ps := by
  cases hdrop : dropStaying ps with
  | nil => rfl
  | cons piece before =>
    cases before with
    | nil => rw [dropStaying, if_neg (eq_append_of_dropStaying hdrop).1]
    | cons q before =>
      have hpiece := not_stays_of_dropStaying hdrop (by simp)
      exact dropStaying_append (List.forall_mem_nil Stays) hpiece

theorem dropStaying_suffix (ps : List String) : dropStaying ps <:+ ps := by
  cases hdrop : dropStaying ps with
  | nil => exact List.nil_suffix
  | cons piece before =>
    obtain ⟨-, stay, rfl, -⟩ := eq_append_of_dropStaying hdrop
    exact List.suffix_append _ _

theorem reversedPieces_parent (path : String) :
    reversedPieces (parent path) = dropStaying (reversedPieces path).tail := by
  by_cases hnil : dropStaying (reversedPieces path).tail = []
  · rw [parent, hnil]
    decide
  · have hsuffix : dropStaying (reversedPieces path).tail <:+ (pieces path).reverse :=
      ((dropStaying_suffix _).trans (List.tail_suffix _)).trans (dropStaying_suffix _)
    have hpieces : pieces (parent path) = (dropStaying (reversedPieces path).tail).reverse := by
      refine pieces_ofPieces (by simpa using hnil) ?_
      intro p hp
      exact slashless_of_mem_pieces
        (List.mem_reverse.1 (hsuffix.subset (List.mem_reverse.1 hp)))
    rw [reversedPieces, hpieces, List.reverse_reverse, dropStaying_dropStaying]

/-- A path goes on behind its directory and behind all that lead there. -/
theorem pieces_eq_of_suffix_parent {path : String} {before : List String}
    (h : before <:+ reversedPieces (parent path)) (hne : before ≠ []) :
    ∃ after, pieces path = before.reverse ++ after ∧ ∃ p ∈ after, ¬Stays p := by
  rw [reversedPieces_parent] at h
  obtain ⟨between, hbetween⟩ := h.trans (dropStaying_suffix _)
  cases hreversed : reversedPieces path with
  | nil =>
    rw [hreversed] at hbetween
    exact absurd (List.append_eq_nil_iff.1 hbetween).2 hne
  | cons last rest =>
    rw [hreversed, List.tail_cons] at hbetween
    have hrest : rest ≠ [] := by
      rw [← hbetween]
      simp [hne]
    obtain ⟨-, stay, hsplit, -⟩ := eq_append_of_dropStaying hreversed
    refine ⟨between.reverse ++ last :: stay.reverse, ?_, last, by simp, ?_⟩
    · rw [← List.reverse_inj, hsplit, ← hbetween]
      simp
    · exact not_stays_of_dropStaying hreversed hrest

/-! ### Names and extensions -/

theorem splitName_join {stem extension : String} (hstem : stem ≠ "")
    (hextension : '.' ∉ extension.toList) :
    splitName (stem ++ "." ++ extension) = (stem, some extension) := by
  have hsplit : Text.split (· = '.') (stem ++ "." ++ extension).toList =
      Text.split (· = '.') stem.toList ++ [extension.toList] := by
    have hchars : (stem ++ "." ++ extension).toList =
        stem.toList ++ '.' :: extension.toList := by simp
    have hdotless : extension.toList.any (· = '.') = false := Text.any_eq_false_iff.2 hextension
    rw [hchars, Text.split_append_sep (by simp), Text.split_eq_self hdotless]
  have hjoin : ['.'].intercalate (Text.split (· = '.') stem.toList) = stem.toList :=
    Text.intercalate_split _
  -- The piece before the last dot can only be empty and alone if the stem is empty.
  obtain ⟨before, rest, hbefore⟩ := List.exists_cons_of_ne_nil
    (mt List.reverse_eq_nil_iff.1 (Text.split_ne_nil (· = '.') stem.toList))
  have hstemSplit : Text.split (· = '.') stem.toList = (before :: rest).reverse := by
    rw [← hbefore, List.reverse_reverse]
  have hwhole : ¬(rest.isEmpty ∧ before.isEmpty) := by
    rintro ⟨hrest, hempty⟩
    rw [List.isEmpty_iff] at hrest hempty
    rw [hstemSplit, hrest, hempty] at hjoin
    exact hstem (String.toList_inj.1 hjoin.symm)
  rw [splitName, hsplit, List.reverse_append, List.reverse_singleton, List.singleton_append, hbefore]
  simp only [if_neg hwhole]
  rw [← hstemSplit, hjoin, String.ofList_toList, String.ofList_toList]

theorem splitName_cases (name : String) :
    splitName name = (name, none) ∨ ∃ stem extension, stem ≠ "" ∧ '.' ∉ extension.toList ∧
      name = stem ++ "." ++ extension ∧ splitName name = (stem, some extension) := by
  by_cases hdot : '.' ∈ name.toList
  · obtain ⟨ys, xs, hlast, hys⟩ := List.eq_append_cons_of_mem (List.mem_reverse.2 hdot)
    have hchars : name.toList = xs.reverse ++ '.' :: ys.reverse := by
      rw [← List.reverse_inj, hlast]
      simp
    have hextension : '.' ∉ (String.ofList ys.reverse).toList := by
      rw [String.toList_ofList, List.mem_reverse]
      exact hys
    by_cases hxs : xs = []
    · refine .inl ?_
      rw [hxs, List.reverse_nil, List.nil_append] at hchars
      rw [splitName, hchars, Text.split_sep_cons (by simp),
        Text.split_eq_self (Text.any_eq_false_iff.2 (mt List.mem_reverse.1 hys))]
      rfl
    · have hstem : String.ofList xs.reverse ≠ "" := by
        intro hempty
        rw [← String.toList_inj, String.toList_ofList] at hempty
        exact hxs (List.reverse_eq_nil_iff.1 hempty)
      have hname : name = String.ofList xs.reverse ++ "." ++ String.ofList ys.reverse := by
        rw [← String.toList_inj, hchars]
        simp
      refine .inr ⟨_, _, hstem, hextension, hname, ?_⟩
      rw [hname, splitName_join hstem hextension]
  · refine .inl ?_
    rw [splitName, Text.split_eq_self (Text.any_eq_false_iff.2 hdot)]
    rfl

/-- **An extension of several parts makes another name.** -/
theorem stem_append_ne {extension : String} (hdot : '.' ∈ extension.toList) (name : String) :
    (splitName name).1 ++ "." ++ extension ≠ name := by
  intro heq
  rcases splitName_cases name with hwhole | ⟨stem, own, -, hown, hname, hsplit⟩
  · rw [hwhole] at heq
    have hlength := congrArg (·.toList.length) heq
    simp at hlength
  · -- Both extensions would stand after the same stem, but only one has a dot.
    rw [hsplit, hname, ← String.toList_inj] at heq
    simp only [String.toList_append, List.append_cancel_left_eq] at heq
    exact hown (heq ▸ hdot)

/-! ### Another extension -/

/-- Pieces behind a name, as characters. -/
def trailChars (trail : List String) : List Char := trail.flatMap fun p => '/' :: p.toList

theorem trailChars_cons (p : String) (trail : List String) :
    trailChars (p :: trail) = '/' :: (p.toList ++ trailChars trail) := by
  rw [trailChars, List.flatMap_cons, List.cons_append]
  rfl

theorem toList_ofPieces (dir : List String) (name : String) (trail : List String) :
    (ofPieces (dir ++ name :: trail)).toList =
      dir.flatMap (fun p => p.toList ++ ['/']) ++ (name.toList ++ trailChars trail) := by
  have hslash : "/".toList = ['/'] := by decide
  rw [ofPieces, String.toList_intercalate, hslash]
  induction dir with
  | nil =>
    rw [List.nil_append, List.flatMap_nil, List.nil_append]
    induction trail generalizing name with
    | nil => simp [List.intercalate, trailChars]
    | cons p trail ih =>
      rw [List.map_cons, Text.intercalate_cons _ (by simp), ih]
      simp [trailChars]
  | cons p dir ih =>
    rw [List.cons_append, List.map_cons, Text.intercalate_cons _ (by simp), ih]
    simp

theorem take_trailChars {trail : List String} (h : ∀ p ∈ trail, Stays p) (n : Nat) :
    ∃ kept, (∀ p ∈ kept, Stays p) ∧ (trailChars trail).take n = trailChars kept := by
  induction trail generalizing n with
  | nil => exact ⟨[], by simp, by simp [trailChars]⟩
  | cons p trail ih =>
    have ih := ih fun q hq => h q (List.mem_cons_of_mem _ hq)
    have hcons (stay : String) (hstay : Stays stay) (m : Nat) : ∃ kept, (∀ p ∈ kept, Stays p) ∧
        '/' :: (stay.toList ++ (trailChars trail).take m) = trailChars kept := by
      obtain ⟨kept, hkept, htake⟩ := ih m
      refine ⟨stay :: kept, ?_, ?_⟩
      · intro q hq
        rcases List.mem_cons.1 hq with rfl | hq
        · exact hstay
        · exact hkept q hq
      · rw [trailChars_cons, htake]
    rcases n with _ | n
    · exact ⟨[], by simp, by simp [trailChars]⟩
    rcases h p List.mem_cons_self with rfl | rfl
    · obtain ⟨kept, hkept, htake⟩ := hcons "" (.inl rfl) n
      exact ⟨kept, hkept, by simpa [trailChars] using htake⟩
    · rcases n with _ | n
      · exact ⟨[""], by simp [Stays], by simp [trailChars]⟩
      · obtain ⟨kept, hkept, htake⟩ := hcons "." (.inr rfl) n
        exact ⟨kept, hkept, by simpa [trailChars] using htake⟩

section extension
variable {extension path name : String} {dir trail : List String}

theorem pieces_putExtension (hextension : '/' ∉ extension.toList)
    (h : EndsIn path dir name trail) :
    pieces (putExtension extension path) = dir ++ [(splitName name).1 ++ "." ++ extension] := by
  have hstem : '/' ∉ (splitName name).1.toList := by
    intro hmem
    rcases splitName_cases name with hwhole | ⟨stem, own, -, -, hname, hsplit⟩
    · rw [hwhole] at hmem
      exact h.slashless hmem
    · rw [hsplit] at hmem
      refine h.slashless ?_
      rw [hname]
      simp [hmem]
  rw [putExtension, h.name?_eq, h.reversedPieces_eq]
  simp only [List.tail_cons, List.reverse_cons, List.reverse_reverse]
  refine pieces_ofPieces (by simp) ?_
  intro p hp
  rcases List.mem_append.1 hp with hp | hp
  · exact h.slashless_dir hp
  · rw [List.mem_singleton.1 hp]
    simp [hstem, hextension]

theorem extension_eq (h : EndsIn path dir name trail) :
    Files.extension path = (splitName name).2.getD "" := by
  rw [Files.extension, h.name?_eq, Option.bind_some]

theorem withExtension_of_nameless (extension : String) (h : name? path = none) :
    withExtension extension path = path := by
  have hextension : Files.extension path = "" := by
    rw [Files.extension, h]
    rfl
  have hkept : String.ofList (path.toList.take (path.toList.length - "".toList.length)) = path := by
    simp
  rw [withExtension, hextension, hkept, putExtension, h]

/-- **The path with another extension**: what stood before the name still does, nothing stands
behind it, and the name has its old stem.  Else the path that is left ends in no name. -/
theorem withExtension_cases (hextension : '/' ∉ extension.toList)
    (h : EndsIn path dir name trail) :
    name? (withExtension extension path) = none ∨
      pieces (withExtension extension path) = dir ++ [(splitName name).1 ++ "." ++ extension] := by
  have hpath : path.toList = dir.flatMap (fun p => p.toList ++ ['/']) ++
      (name.toList ++ trailChars trail) := by
    rw [← toList_ofPieces, ← h.pieces_eq, ofPieces_pieces]
  rw [withExtension, extension_eq h]
  rcases splitName_cases name with hwhole | ⟨stem, own, hstem, hown, hname, hsplit⟩
  · refine .inr ?_
    have hkept : String.ofList (path.toList.take (path.toList.length - "".toList.length)) = path := by
      simp
    rw [hwhole, Option.getD_none, hkept, pieces_putExtension hextension h, hwhole]
  · -- The end of the path is cut by the length of the extension, wherever that leads.
    obtain ⟨kept, hkept, htake⟩ := take_trailChars h.stays
      ((trailChars trail).length - own.toList.length)
    let cut := String.ofList (own.toList.take (trailChars trail).length)
    have hbase : String.ofList (path.toList.take (path.toList.length - own.toList.length)) =
        ofPieces (dir ++ (stem ++ "." ++ cut) :: kept) := by
      let front := dir.flatMap (fun p => p.toList ++ ['/']) ++ (stem.toList ++ ['.'])
      have hsplitPath : path.toList = front ++ (own.toList ++ trailChars trail) := by
        rw [hpath, hname]
        simp [front]
      have hlength : path.toList.length - own.toList.length =
          front.length + (trailChars trail).length := by
        rw [hsplitPath]
        simp only [List.length_append]
        omega
      rw [hlength, hsplitPath, List.take_length_add_append, List.take_append, htake,
        ← String.toList_inj, toList_ofPieces, String.toList_ofList]
      simp [front, cut]
    have hcut : '.' ∉ cut.toList := by
      rw [String.toList_ofList]
      exact fun hmem => hown (List.mem_of_mem_take hmem)
    have hpieces : pieces (ofPieces (dir ++ (stem ++ "." ++ cut) :: kept)) =
        dir ++ (stem ++ "." ++ cut) :: kept := by
      refine pieces_ofPieces (by simp) ?_
      intro p hp
      rcases List.mem_append.1 hp with hp | hp
      · exact h.slashless_dir hp
      rcases List.mem_cons.1 hp with rfl | hp
      · have hslashless := h.slashless
        rw [hname] at hslashless
        simp only [String.toList_append, List.mem_append, not_or] at hslashless ⊢
        refine ⟨hslashless.1, ?_⟩
        rw [String.toList_ofList]
        exact fun hmem => hslashless.2 (List.mem_of_mem_take hmem)
      · rcases hkept p hp with rfl | rfl <;> decide
    rw [hsplit, Option.getD_some, hbase]
    by_cases hup : stem ++ "." ++ cut = ".."
    · refine .inl ?_
      rw [hup] at hpieces ⊢
      rw [putExtension, name?_eq_none_of_up hpieces hkept]
      exact name?_eq_none_of_up hpieces hkept
    · refine .inr ?_
      have hlong : 2 ≤ (stem ++ "." ++ cut).toList.length := by
        have hpos : stem.toList ≠ [] := fun hnil => hstem (String.toList_inj.1 hnil)
        have hpos := List.length_pos_iff.2 hpos
        simp only [String.toList_append, List.length_append]
        have hone : ".".toList.length = 1 := by decide
        omega
      have hends : EndsIn (ofPieces (dir ++ (stem ++ "." ++ cut) :: kept)) dir
          (stem ++ "." ++ cut) kept := by
        refine ⟨hpieces, ⟨?_, ?_, hup⟩, hkept⟩
        · rintro hempty
          rw [hempty] at hlong
          exact absurd hlong (by decide)
        · rintro hdot
          rw [hdot] at hlong
          exact absurd hlong (by decide)
      rw [pieces_putExtension hextension hends, splitName_join hstem hcut]

end extension

end ColorTheme.Files
