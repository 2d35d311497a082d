import ColorTheme.Text.Split

/-!
# Splitting at a separator

Splitting and joining undo each other: the pieces of a text have no separator in them, joined they are
the text again, and pieces without separators are found again in the text that joins them.
-/

namespace ColorTheme.Text

/-! ### Splitting at every separator of a class -/

section split
variable {isSeparator : Char → Bool} {piece : List Char} {sep : Char}

theorem split_sep_cons (hsep : isSeparator sep = true) (cs : List Char) :
    split isSeparator (sep :: cs) = [] :: split isSeparator cs := by simp [split, hsep]

theorem split_cons_of_not_sep {c : Char} (hc : isSeparator c = false) {cs piece : List Char}
    {rest : List (List Char)} (h : split isSeparator cs = piece :: rest) :
    split isSeparator (c :: cs) = (c :: piece) :: rest := by
  unfold split at h ⊢
  rw [List.foldr_cons, h]
  simp [hc]

theorem split_append_sep (hsep : isSeparator sep = true) (xs ys : List Char) :
    split isSeparator (xs ++ sep :: ys) = split isSeparator xs ++ split isSeparator ys := by
  induction xs with
  | nil => rw [List.nil_append, split_sep_cons hsep]; rfl
  | cons c xs ih =>
    rw [List.cons_append]
    by_cases hc : isSeparator c = true
    · rw [split_sep_cons hc, split_sep_cons hc, ih, List.cons_append]
    · rw [Bool.not_eq_true] at hc
      obtain ⟨piece, rest, hsplit⟩ := List.exists_cons_of_ne_nil (split_ne_nil isSeparator xs)
      rw [hsplit, List.cons_append] at ih
      rw [split_cons_of_not_sep hc ih, split_cons_of_not_sep hc hsplit, List.cons_append]

theorem split_eq_self (hpiece : piece.any isSeparator = false) :
    split isSeparator piece = [piece] := by
  induction piece with
  | nil => rfl
  | cons c piece ih =>
    rw [List.any_cons, Bool.or_eq_false_iff] at hpiece
    exact split_cons_of_not_sep hpiece.1 (ih hpiece.2)

theorem split_append_cons (hpiece : piece.any isSeparator = false) (hsep : isSeparator sep = true)
    (rest : List Char) :
    split isSeparator (piece ++ sep :: rest) = piece :: split isSeparator rest := by
  rw [split_append_sep hsep, split_eq_self hpiece, List.singleton_append]

theorem any_eq_false_of_mem_split {cs : List Char} (h : piece ∈ split isSeparator cs) :
    piece.any isSeparator = false := by
  induction cs generalizing piece with
  | nil =>
    rw [split, List.foldr_nil, List.mem_singleton] at h
    rw [h, List.any_nil]
  | cons c cs ih =>
    by_cases hc : isSeparator c = true
    · rw [split_sep_cons hc] at h
      rcases List.mem_cons.1 h with rfl | h
      · rfl
      · exact ih h
    · rw [Bool.not_eq_true] at hc
      obtain ⟨first, rest, hsplit⟩ := List.exists_cons_of_ne_nil (split_ne_nil isSeparator cs)
      rw [split_cons_of_not_sep hc hsplit] at h
      rcases List.mem_cons.1 h with rfl | h
      · rw [List.any_cons, hc, Bool.false_or]
        exact ih (by rw [hsplit]; exact List.mem_cons_self)
      · exact ih (by rw [hsplit]; exact List.mem_cons_of_mem _ h)

end split

/-! ### Splitting at one character -/

section character
variable {sep : Char}

theorem any_eq_false_iff {piece : List Char} : piece.any (· = sep) = false ↔ sep ∉ piece := by
  rw [List.any_eq_false]
  simp only [decide_eq_true_eq]
  exact ⟨fun h hmem => h sep hmem rfl, fun h c hc heq => h (heq ▸ hc)⟩

/-- Lines are found again at their ends. -/
theorem split_lines {lines : List (List Char)} (h : ∀ line ∈ lines, sep ∉ line)
    (rest : List Char) : split (· = sep) (lines.flatMap (· ++ [sep]) ++ rest) =
      lines ++ split (· = sep) rest := by
  induction lines with
  | nil => rfl
  | cons line lines ih =>
    have hline : line.any (· = sep) = false := any_eq_false_iff.2 (h line List.mem_cons_self)
    rw [List.flatMap_cons, List.append_assoc, List.append_assoc, List.singleton_append,
      split_append_cons hline (by simp), ih fun l hl => h l (List.mem_cons_of_mem _ hl),
      List.cons_append]

theorem intercalate_cons (piece : List Char) {rest : List (List Char)} (h : rest ≠ []) :
    [sep].intercalate (piece :: rest) = piece ++ sep :: [sep].intercalate rest := by
  obtain ⟨next, rest, rfl⟩ := List.exists_cons_of_ne_nil h
  rw [List.intercalate_cons_cons, List.append_assoc, List.singleton_append]

theorem intercalate_split (cs : List Char) : [sep].intercalate (split (· = sep) cs) = cs := by
  induction cs with
  | nil => rfl
  | cons c cs ih =>
    by_cases hc : c = sep
    · rw [split_sep_cons (by simp [hc]), intercalate_cons _ (split_ne_nil _ cs), ih, hc,
        List.nil_append]
    · obtain ⟨piece, rest, hsplit⟩ := List.exists_cons_of_ne_nil (split_ne_nil (· = sep) cs)
      rw [split_cons_of_not_sep (by simp [hc]) hsplit]
      rw [hsplit] at ih
      cases rest with
      | nil => simpa [List.intercalate] using ih
      | cons next rest =>
        rw [intercalate_cons _ (by simp)] at ih ⊢
        rw [List.cons_append, ih]

theorem split_intercalate {pieces : List (List Char)} (hne : pieces ≠ [])
    (h : ∀ piece ∈ pieces, sep ∉ piece) :
    split (· = sep) ([sep].intercalate pieces) = pieces := by
  induction pieces with
  | nil => exact absurd rfl hne
  | cons piece rest ih =>
    have hpiece : piece.any (· = sep) = false := any_eq_false_iff.2 (h piece List.mem_cons_self)
    by_cases hrest : rest = []
    · rw [hrest]
      simpa [List.intercalate] using split_eq_self hpiece
    · have ih := ih hrest fun p hp => h p (List.mem_cons_of_mem _ hp)
      rw [intercalate_cons _ hrest, split_append_cons hpiece (by simp), ih]

end character

end ColorTheme.Text
