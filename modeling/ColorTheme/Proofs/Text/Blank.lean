import ColorTheme.Text.Blank
import Mathlib.Data.List.DropRight

/-!
# Trimming

A trimmed text has no blank at either end, so trimming it again changes nothing.  Nothing is left of a
text exactly if it is blank.
-/

namespace ColorTheme

namespace Text

theorem trimEnd_eq_rdropWhile (cs : List Char) : trimEnd cs = cs.rdropWhile isBlank := rfl

theorem trimStart_trim (cs : List Char) : trimStart (trim cs) = trim cs := by
  have hstart : trim cs <+: trimStart cs := by
    rw [trim, trimEnd_eq_rdropWhile]
    exact List.rdropWhile_prefix isBlank _
  rw [trimStart, List.dropWhile_eq_self_iff]
  intro hl
  rw [hstart.getElem hl]
  exact List.dropWhile_get_zero_not isBlank cs _

/-- **Trimming twice** is trimming once. -/
theorem trim_trim (cs : List Char) : trim (trim cs) = trim cs := by
  rw [trim, trimStart_trim, trim, trimEnd_eq_rdropWhile, trimEnd_eq_rdropWhile,
    List.rdropWhile_idempotent]

/-- Blanks around a text whose ends are not blank are trimmed off. -/
theorem trim_append {front cs back : List Char} (hfront : ∀ c ∈ front, isBlank c = true)
    (hback : ∀ c ∈ back, isBlank c = true) (hne : cs ≠ [])
    (hfirst : ∀ c ∈ cs.head?, isBlank c = false) (hlast : ∀ c ∈ cs.getLast?, isBlank c = false) :
    trim (front ++ (cs ++ back)) = cs := by
  have hstart : trimStart (front ++ (cs ++ back)) = cs ++ back := by
    obtain ⟨c, cs, rfl⟩ := List.exists_cons_of_ne_nil hne
    rw [trimStart, List.dropWhile_append_of_pos hfront, List.cons_append,
      List.dropWhile_cons_of_neg (by simp [hfirst c rfl])]
  have hback : ∀ c ∈ back.reverse, isBlank c = true := fun c hc => hback c (List.mem_reverse.1 hc)
  rw [trim, hstart, trimEnd, List.reverse_append, List.dropWhile_append_of_pos hback]
  exact List.rdropWhile_eq_self_iff.2 fun hl => by simp [hlast _ (List.getLast?_eq_some_getLast hl)]

theorem trim_eq_nil_iff {cs : List Char} : trim cs = [] ↔ ∀ c ∈ cs, isBlank c = true := by
  rw [trim, trimEnd_eq_rdropWhile, List.rdropWhile_eq_nil_iff, ← List.dropWhile_eq_nil_iff,
    trimStart, List.dropWhile_idempotent, List.dropWhile_eq_nil_iff]

end Text

theorem toList_trimmed (s : String) : (trimmed s).toList = Text.trim s.toList := by
  rw [trimmed, String.toList_ofList]

theorem trim_eq_nil_iff_isBlankText {s : String} :
    Text.trim s.toList = [] ↔ isBlankText s = true := by
  rw [Text.trim_eq_nil_iff, isBlankText, List.all_eq_true]

theorem trimmed_eq_empty_iff {s : String} : trimmed s = "" ↔ isBlankText s = true := by
  rw [← trim_eq_nil_iff_isBlankText, ← toList_trimmed, String.toList_eq_nil_iff]

end ColorTheme
