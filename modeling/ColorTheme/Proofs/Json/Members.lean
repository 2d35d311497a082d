import ColorTheme.Proofs.Json.Skipping

/-!
# Members of an object

How a reader gets from one member of an object to the next, and what it makes of a value that has to
be a text or `null`.
-/

namespace ColorTheme.Json

open Reader

/-! ### Keys -/

theorem key_append {s : String} {before cs : List Char} (hbefore : Blanks before)
    (h : TextForm s cs) (rest : List Char) : key (before ++ (cs ++ rest)) = .ok (s, rest) := by
  obtain ⟨hchars⟩ := h
  have hread := text_of_charsForm hchars rest
  rw [key, skipBlanks_append hbefore, List.cons_append, skipBlanks_cons (by decide)]
  simpa using hread

/-- What stands before a member: nothing before the first one. -/
def separator (first : Bool) : List Char := if first then [] else [',']

theorem nextKey_append {key : String} {head : List Char} (h : HeadForm .record key head)
    (first : Bool) (rest : List Char) :
    ∃ left, nextKey first (separator first ++ (head ++ rest)) = .ok (some key, left) ∧
      colon left = .ok rest := by
  obtain _ | @⟨_, before, cs, after, hbefore, htext, hafter⟩ := h
  refine ⟨after ++ ':' :: rest, ?_, colon_append hafter rest⟩
  have hkey := key_append hbefore htext (after ++ ':' :: rest)
  have hkey' := key_append blanks_nil htext (after ++ ':' :: rest)
  obtain ⟨hchars⟩ := htext
  cases first with
  | true =>
    simp only [separator, if_true, List.nil_append, List.append_assoc, List.cons_append] at hkey' ⊢
    rw [nextKey, skipBlanks_append hbefore, skipBlanks_cons (by decide)]
    simp [hkey']
  | false =>
    simp only [separator, List.append_assoc, List.cons_append, List.nil_append] at hkey ⊢
    rw [nextKey, if_neg (by decide), List.cons_append, skipBlanks_cons (by decide)]
    simp [hkey]

theorem nextKey_blanks {blanks : List Char} (h : Blanks blanks) (first : Bool) (cs : List Char) :
    nextKey first (blanks ++ cs) = nextKey first cs := by
  simp only [nextKey, skipBlanks_append h]

theorem Form.length_le {frame : Frame} {entries : List (String × Meaning)} {cs : List Char}
    (h : Form (.parts frame entries) cs) : entries.length ≤ cs.length := by
  have hpart {entry : String × Meaning} {cs : List Char} (h : Form (.part frame entry) cs) :
      1 ≤ cs.length := by
    cases h with
    | part _ _ hvalue _ =>
      obtain ⟨c, more, rfl, -⟩ := hvalue.exists_first
      simp only [List.length_append, List.length_cons]
      omega
  induction entries generalizing cs with
  | nil => cases h
  | cons entry entries ih =>
    cases h with
    | single h => exact hpart h
    | cons h h' =>
      have hmore := ih h'
      simp only [List.length_append, List.length_cons]
      omega

/-! ### Wanted values -/

/-- What a reader that wants a text or `null` makes of a value. -/
def Meaning.value? : Meaning → Option (Option String)
  | .null => some none
  | .text s => some (some s)
  | .other => none

/-- **A text and `null` are read, and nothing else is.** -/
theorem textOrNull_append {m : Meaning} {cs before : List Char} (h : Form (.value m) cs)
    (hbefore : Blanks before) (rest : List Char) :
    (textOrNull (before ++ (cs ++ rest))).toOption = m.value?.map fun value => (value, rest) := by
  rw [textOrNull, skipBlanks_append hbefore]
  cases m with
  | null =>
    cases h
    rfl
  | text s =>
    cases h with
    | text htext =>
      obtain ⟨hchars⟩ := htext
      have hread := text_of_charsForm hchars rest
      have hskip (cs : List Char) : skipBlanks ('"' :: cs) = '"' :: cs := rfl
      simp [hskip, textValue, hread, Except.toOption, Meaning.value?]
  | other =>
    obtain ⟨c, more, rfl, hblank, -, -, hfirst⟩ := h.exists_first
    obtain ⟨hnull, hquote⟩ := hfirst rfl
    rw [List.cons_append, skipBlanks_cons hblank]
    simp [hnull, textValue, skipBlanks_cons hblank, hquote, Except.toOption, Meaning.value?]

end ColorTheme.Json
