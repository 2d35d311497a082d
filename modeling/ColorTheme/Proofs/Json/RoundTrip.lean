import ColorTheme.Proofs.Json.Tokens
import ColorTheme.Proofs.SortedMap
import ColorTheme.Store.TextMap
import ColorTheme.Text.Blank

/-!
# Objects of texts, written and read

Reading gives back what was written: a text from its quoted form, and a map from texts to texts from its
indented object.
-/

namespace ColorTheme

/-- **A text is read from its quoted form.** -/
theorem Json.Reader.text_quoted (s : String) (rest : List Char) :
    text (s.toList.flatMap escapeChar ++ '"' :: rest) = .ok (s, rest) :=
  text_of_charsForm (charsForm_escaped s.toList) rest

namespace TextMap

open Json Json.Reader

/-! ### Members -/

section members
variable (s : String) (rest : List Char)

theorem key_quoted : key (quotedChars s ++ rest) = .ok (s, rest) := by
  have hquote : isBlank '"' = false := rfl
  have hread := text_quoted s rest
  simpa [key, quotedChars, skipBlanks, hquote] using hread

theorem textValue_quoted : textValue (quotedChars s ++ rest) = .ok (s, rest) := by
  have hquote : isBlank '"' = false := rfl
  have hread := text_quoted s rest
  simpa [textValue, quotedChars, skipBlanks, hquote] using hread

end members

section blanks
variable {c : Char} (hc : isBlank c = true) (cs : List Char)
include hc

theorem key_blank : key (c :: cs) = key cs := by simp [key, skipBlanks, hc]

theorem textValue_blank : textValue (c :: cs) = textValue cs := by
  simp [textValue, skipBlanks, hc]

theorem nextKey_blank (first : Bool) : nextKey first (c :: cs) = nextKey first cs := by
  simp [nextKey, skipBlanks, hc]

end blanks

theorem nextKey_first (s : String) (rest : List Char) :
    nextKey true (quotedChars s ++ rest) = .ok (some s, rest) := by
  change (key (quotedChars s ++ rest) >>= fun read => .ok (some read.1, read.2)) = _
  rw [key_quoted, Except.ok_bind]

theorem nextKey_next (s : String) (rest : List Char) :
    nextKey false (',' :: '\n' :: ' ' :: ' ' :: (quotedChars s ++ rest)) = .ok (some s, rest) := by
  change (key ('\n' :: ' ' :: ' ' :: (quotedChars s ++ rest)) >>= fun read =>
    .ok (some read.1, read.2)) = _
  rw [key_blank rfl, key_blank rfl, key_blank rfl, key_quoted, Except.ok_bind]

theorem value_after_colon (s : String) (rest : List Char) :
    (colon (':' :: ' ' :: (quotedChars s ++ rest)) >>= textValue) = .ok (s, rest) := by
  change textValue (' ' :: (quotedChars s ++ rest)) = _
  rw [textValue_blank rfl, textValue_quoted]

/-! ### Objects -/

def memberChars (e : String × String) : List Char :=
  quotedChars e.1 ++ ':' :: ' ' :: quotedChars e.2

/-- Members after the first, each on a line of its own. -/
def laterChars (entries : List (String × String)) : List Char :=
  entries.flatMap fun e => ',' :: '\n' :: ' ' :: ' ' :: memberChars e

/-- The map with entries set one after the other. -/
def insertAll (map : SortedMap String) (entries : List (String × String)) : SortedMap String :=
  entries.foldl (fun m e => m.insert e.1 e.2) map

theorem members_later (entries : List (String × String)) (map : SortedMap String) {fuel : Nat}
    (hfuel : entries.length < fuel) (rest : List Char) :
    members fuel false map (laterChars entries ++ '\n' :: '\x7d' :: rest) =
      .ok (insertAll map entries, rest) := by
  induction entries generalizing map fuel with
  | nil =>
    -- One step is left for the brace that closes the object.
    obtain ⟨fuel, rfl⟩ : ∃ n, fuel = n + 1 := ⟨fuel - 1, by simp at hfuel; omega⟩
    rfl
  | cons e entries ih =>
    obtain ⟨fuel, rfl⟩ : ∃ n, fuel = n + 1 := ⟨fuel - 1, by omega⟩
    have hlength : entries.length < fuel := by simpa using hfuel
    have ih := ih (map.insert e.1 e.2) hlength
    have hkey := nextKey_next e.1
      (':' :: ' ' :: (quotedChars e.2 ++ (laterChars entries ++ '\n' :: '\x7d' :: rest)))
    have hvalue := value_after_colon e.2 (laterChars entries ++ '\n' :: '\x7d' :: rest)
    simp only [laterChars, List.flatMap_cons, memberChars, List.cons_append, List.append_assoc]
      at hkey hvalue ih ⊢
    rw [members, hkey, Except.ok_bind]
    simp only [← bind_assoc, hvalue]
    exact ih

theorem members_object (e : String × String) (entries : List (String × String)) {fuel : Nat}
    (hfuel : entries.length < fuel) (rest : List Char) :
    members (fuel + 1) true .empty
        ('\n' :: ' ' :: ' ' :: (memberChars e ++ (laterChars entries ++ '\n' :: '\x7d' :: rest))) =
      .ok (insertAll .empty (e :: entries), rest) := by
  have hlater := members_later entries (SortedMap.empty.insert e.1 e.2) hfuel rest
  have hkey := nextKey_first e.1
    (':' :: ' ' :: (quotedChars e.2 ++ (laterChars entries ++ '\n' :: '\x7d' :: rest)))
  have hvalue := value_after_colon e.2 (laterChars entries ++ '\n' :: '\x7d' :: rest)
  rw [members, nextKey_blank rfl, nextKey_blank rfl, nextKey_blank rfl, memberChars,
    List.append_assoc, List.cons_append, List.cons_append, hkey, Except.ok_bind]
  simp only [← bind_assoc, hvalue]
  exact hlater

theorem length_le_length_later (entries : List (String × String)) :
    entries.length ≤ (laterChars entries).length := by
  induction entries with
  | nil => simp
  | cons e entries ih =>
    have hcons : laterChars (e :: entries) =
        ',' :: '\n' :: ' ' :: ' ' :: (memberChars e ++ laterChars entries) := by
      simp [laterChars]
    simp only [hcons, List.length_cons, List.length_append]
    omega

/-! ### Writing -/

theorem intercalate_cons {sep x : List Char} {xs : List (List Char)} :
    sep.intercalate (x :: xs) = x ++ xs.flatMap (sep ++ ·) := by
  induction xs generalizing x with
  | nil => simp [List.intercalate]
  | cons y ys ih => simp [List.intercalate_cons_cons, ih]

theorem prettyMembers_texts (level : Nat) (entries : List (String × String)) :
    prettyMembers level (entries.map fun e => (e.1, .text e.2)) =
      entries.map fun e => String.ofList (memberChars e) := by
  induction entries with
  | nil => rfl
  | cons e entries ih =>
    have hmember : quoted e.1 ++ ": " ++ quoted e.2 = String.ofList (memberChars e) := by
      rw [← String.toList_inj]
      simp [quoted, memberChars]
    rw [List.map_cons, prettyMembers, List.map_cons, ih, prettyAt, hmember]

theorem toList_pretty_record (e : String × String) (entries : List (String × String)) :
    (Json.record ((e :: entries).map fun e => (e.1, .text e.2))).pretty.toList =
      '\x7b' :: '\n' :: ' ' :: ' ' :: (memberChars e ++ (laterChars entries ++ ['\n', '\x7d'])) := by
  have hindent : (indent 1).toList = [' ', ' '] := by decide
  have hnone : (indent 0).toList = [] := by decide
  rw [pretty, prettyAt, prettyMembers_texts, block]
  simp [String.toList_intercalate, intercalate_cons, hindent, hnone, laterChars,
    List.flatMap_map]

/-! ### Round trip -/

theorem insertAll_entries (map : SortedMap String) : insertAll .empty map.entries = map := by
  apply SortedMap.ext_get?
  intro k
  rw [insertAll, SortedMap.get?_foldl_insert map.sorted, SortedMap.get?_empty, Option.or_none]
  rfl

theorem read_pretty (map : SortedMap String) : read (toJson map).pretty.toList = .ok (map, []) := by
  have hentries := insertAll_entries map
  rw [toJson, SortedMap.toList]
  cases hmap : map.entries with
  | nil =>
    rw [hmap] at hentries
    rw [← hentries]
    rfl
  | cons e entries =>
    rw [hmap] at hentries
    -- A reader may take as many steps as there are characters, and each member has some.
    have hlength := length_le_length_later entries
    rw [toList_pretty_record, ← hentries]
    refine members_object e entries ?_ []
    simp only [List.length_cons, List.length_append]
    omega

/-- **A map is read from its indented object.** -/
theorem ofJson_pretty (map : SortedMap String) : ofJson (toJson map).pretty = .ok map := by
  rw [ofJson, Reader.whole, read_pretty]
  rfl

theorem not_blank_of_ofJson {text : String} {map : SortedMap String}
    (h : ofJson text = .ok map) : isBlankText text = false := by
  rw [ofJson, Reader.whole, Except.bind_eq_ok_iff] at h
  obtain ⟨⟨_, _⟩, hread, -⟩ := h
  rw [read] at hread
  split at hread
  · next rest hbrace =>
    have hskipped : '\x7b' ∈ Reader.skipBlanks text.toList := by
      rw [hbrace]
      exact List.mem_cons_self
    have hmem : '\x7b' ∈ text.toList := (List.dropWhile_suffix _).subset hskipped
    rw [isBlankText, List.all_eq_false]
    exact ⟨_, hmem, by decide⟩
  · cases hread

end TextMap

end ColorTheme
