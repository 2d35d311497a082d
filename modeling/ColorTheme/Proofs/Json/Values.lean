import ColorTheme.Proofs.Json.Grammar
import ColorTheme.Proofs.Number.Shortest

/-!
# Texts of values

The grammar once more, with the value that a text writes in place of what it is to a reader that wants a
text or `null`.  Everything that is printed, without blanks or indented, is a text of its value.
-/

namespace ColorTheme.Json

open Reader (Frame)
open Binary64 (IsNumeral)

/-! ### The grammar -/

/-- What a stretch of a text writes.  The parts of a list have no keys. -/
inductive Stretch where
  | value (v : Json)
  | part (frame : Frame) (entry : String × Json)
  | parts (frame : Frame) (entries : List (String × Json))
  | content (frame : Frame) (entries : List (String × Json))

/-- **The text writes the value.**  A number is written by the numerals that are read as it, and by
`null` if it is not finite. -/
inductive Writes : Stretch → List Char → Prop
  | null : Writes (.value .null) ['n', 'u', 'l', 'l']
  | yes : Writes (.value (.bool true)) ['t', 'r', 'u', 'e']
  | no : Writes (.value (.bool false)) ['f', 'a', 'l', 's', 'e']
  | whole {n : Nat} {cs : List Char} : WholeForm cs → ofDigits cs = n → Writes (.value (.whole n)) cs
  | number {x : Binary64} {cs : List Char} : NumberForm cs → IsNumeral cs x →
      Writes (.value (.number x)) cs
  | boundless {x : Binary64} : x.isFinite = false → Writes (.value (.number x)) ['n', 'u', 'l', 'l']
  | text {s : String} {cs : List Char} : TextForm s cs → Writes (.value (.text s)) cs
  | list {values : List Json} {cs : List Char} :
      Writes (.content .list (values.map fun v => ("", v))) cs →
      Writes (.value (.list values)) ('[' :: (cs ++ [']']))
  | record {members : List (String × Json)} {cs : List Char} : Writes (.content .record members) cs →
      Writes (.value (.record members)) ('\x7b' :: (cs ++ ['\x7d']))
  | part {frame : Frame} {key : String} {v : Json} {head before cs after : List Char} :
      HeadForm frame key head → Blanks before → Writes (.value v) cs → Blanks after →
      Writes (.part frame (key, v)) (head ++ (before ++ (cs ++ after)))
  | single {frame : Frame} {entry : String × Json} {cs : List Char} :
      Writes (.part frame entry) cs → Writes (.parts frame [entry]) cs
  | cons {frame : Frame} {entry : String × Json} {entries : List (String × Json)}
      {cs ds : List Char} : Writes (.part frame entry) cs → Writes (.parts frame entries) ds →
      Writes (.parts frame (entry :: entries)) (cs ++ ',' :: ds)
  | empty {frame : Frame} {cs : List Char} : Blanks cs → Writes (.content frame []) cs
  | filled {frame : Frame} {entries : List (String × Json)} {cs : List Char} :
      Writes (.parts frame entries) cs → Writes (.content frame entries) cs

/-- A value with blanks around it. -/
inductive Document (v : Json) : List Char → Prop
  | padded {before cs after : List Char} : Blanks before → Writes (.value v) cs → Blanks after →
      Document v (before ++ (cs ++ after))

/-! ### What a value means -/

def Stretch.meant : Stretch → Part
  | .value v => .value v.meaning
  | .part frame entry => .part frame (entry.1, entry.2.meaning)
  | .parts frame entries => .parts frame (meanings entries)
  | .content frame entries => .content frame (meanings entries)

theorem WholeForm.numberForm {cs : List Char} (h : WholeForm cs) : NumberForm cs := by
  have hform := NumberForm.signed (.inl rfl) h .absent .absent
  simpa using hform

/-- The texts of a value are those of what it means. -/
theorem Writes.form {stretch : Stretch} {cs : List Char} (h : Writes stretch cs) :
    Form stretch.meant cs := by
  induction h with
  | null => exact .null
  | yes => exact .bool (.inl rfl)
  | no => exact .bool (.inr rfl)
  | whole h => exact .number h.numberForm
  | number h hx =>
    obtain ⟨_, -, -, hfinite⟩ := hx
    rw [Stretch.meant, meaning, if_pos hfinite]
    exact .number h
  | boundless hx =>
    rw [Stretch.meant, meaning, if_neg (by rw [hx]; exact Bool.false_ne_true)]
    exact .null
  | text h => exact .text h
  | list _ ih => exact .framed ih
  | record _ ih => exact .framed ih
  | part hhead hbefore _ hafter ih => exact .part hhead hbefore ih hafter
  | single _ ih => exact .single ih
  | cons _ _ ih ih' => exact .cons ih ih'
  | empty h => exact .empty h
  | filled _ ih => exact .filled ih

/-- A text of an object is an object with its members. -/
theorem Writes.objectForm {members : List (String × Json)} {cs : List Char}
    (h : Writes (.value (.record members)) cs) : ObjectForm (meanings members) cs := by
  cases h with
  | record h =>
    have hobject := ObjectForm.braced blanks_nil h.form blanks_nil
    simpa using hobject

theorem Writes.objectForm_part {members : List (String × Json)} {cs : List Char}
    (h : Writes (.part .list ("", .record members)) cs) : ObjectForm (meanings members) cs := by
  cases h with
  | part hhead hbefore hvalue hafter =>
    cases hhead
    exact (hvalue.objectForm.append_blanks hafter).prepend_blanks hbefore

theorem Writes.objectsForm {objects : List (List (String × Json))} {cs : List Char}
    (h : Writes (.parts .list (objects.map fun members => ("", .record members))) cs) :
    ObjectsForm (objects.map meanings) cs := by
  induction objects generalizing cs with
  | nil => cases h
  | cons members objects ih =>
    rw [List.map_cons] at h
    generalize hrest : objects.map (fun members => ("", Json.record members)) = rest at h
    cases h with
    | single h =>
      rw [List.map_eq_nil_iff] at hrest
      rw [hrest]
      exact .single h.objectForm_part
    | cons h hlater =>
      rw [← hrest] at hlater
      exact .cons h.objectForm_part (ih hlater)

theorem Writes.listForm {objects : List (List (String × Json))} {cs : List Char}
    (h : Writes (.value (.list (objects.map .record))) cs) :
    ListForm (objects.map meanings) cs := by
  cases h with
  | list h =>
    rw [List.map_map] at h
    generalize hentries : objects.map ((fun v => ("", v)) ∘ Json.record) = entries at h
    cases h with
    | empty hblanks =>
      rw [List.map_eq_nil_iff] at hentries
      rw [hentries]
      exact .empty hblanks
    | filled h =>
      rw [← hentries] at h
      exact .filled h.objectsForm

/-! ### Printed scalars -/

theorem wholeForm_of_first {d : Char} {ds : List Char} (hd : d ≠ '0' ∨ ds = [])
    (hds : Numeral.Digits (d :: ds)) : WholeForm (d :: ds) := by
  by_cases hzero : d = '0'
  · rw [hzero, hd.resolve_left fun hne => hne hzero]
    exact .zero
  · exact .digits hzero hds

theorem placesForm_point {places : List Char} (h : Numeral.Digits places) :
    PlacesForm (Binary64.point places) := by
  rw [Binary64.point]
  split
  · exact .absent
  · next hne => exact .present hne h

theorem numberForm_write (layout : Binary64.Layout) {x : Binary64} (hx : x.isFinite = true) :
    NumberForm (x.write layout) := by
  cases x with
  | finite s m =>
    obtain ⟨q, cs, hform, -, hwrite⟩ := Binary64.exists_unsigned layout m
    have hsign : (if s then ['-'] else []) = [] ∨ (if s then ['-'] else []) = ['-'] := by
      cases s
      · exact .inl rfl
      · exact .inr rfl
    rw [hwrite]
    cases hform with
    | parts hd hwhole hplaces hexponent _ =>
      exact .signed hsign (wholeForm_of_first hd hwhole) (placesForm_point hplaces) hexponent
  | _ => cases hx

theorem writes_writeNumber (x : Binary64) : Writes (.value (.number x)) (writeNumber x).toList := by
  rw [writeNumber]
  split
  · next hx =>
    rw [String.toList_ofList]
    exact .number (numberForm_write numberLayout hx) (Binary64.isNumeral_write numberLayout hx)
  · next hx => exact .boundless (Bool.eq_false_iff.2 hx)

theorem writes_toString (n : Nat) : Writes (.value (.whole n)) (toString n).toList := by
  have htext : (toString n).toList = digitsOf n := by
    rw [Nat.toString_eq_ofList_toDigits, String.toList_ofList, digitsOf]
  rw [htext]
  refine .whole ?_ (ofDigits_digitsOf n)
  by_cases hn : n = 0
  · rw [hn]
    exact .zero
  · obtain ⟨d, ds, hdigits, hd⟩ := Binary64.exists_digitsOf hn
    rw [hdigits]
    exact .digits hd (hdigits ▸ fun _ => isDigit_of_mem_digitsOf)

theorem writes_writeBool (b : Bool) : Writes (.value (.bool b)) (writeBool b).toList := by
  cases b
  · exact .no
  · exact .yes

theorem writes_quoted (s : String) : Writes (.value (.text s)) (quoted s).toList := by
  rw [quoted, String.toList_ofList]
  exact .text (textForm_quoted s)

/-! ### Printed lists and objects -/

/-- Parts with commas between them, the same text before each of them and another one behind the
last, are in a relation on sequences if each part with what is around it is in one on its own. -/
theorem intercalate_related {α : Type} (one : α → List Char → Prop)
    (all : List α → List Char → Prop) {front after : List Char}
    (hsingle : ∀ a cs, one a cs → all [a] cs)
    (hcons : ∀ a entries cs ds, one a cs → all entries ds → all (a :: entries) (cs ++ ',' :: ds))
    (hafter : ∀ a cs, one a cs → one a (cs ++ after)) {entries : List α} {parts : List (List Char)}
    (h : List.Forall₂ (fun a cs => one a (front ++ cs)) entries parts) (hne : entries ≠ []) :
    all entries (front ++ ((',' :: front).intercalate parts ++ after)) := by
  induction h with
  | nil => exact absurd rfl hne
  | @cons _ part _ _ hpart hrest ih =>
    cases hrest with
    | nil =>
      have hlast := hafter _ _ hpart
      rw [List.append_assoc] at hlast
      exact hsingle _ _ (by simpa using hlast)
    | cons _ _ =>
      have hmore := hcons _ _ _ _ hpart (ih (List.cons_ne_nil _ _))
      simpa only [List.intercalate_cons_cons, List.append_assoc, List.cons_append] using hmore

theorem Writes.append_blanks {frame : Frame} {entry : String × Json} {cs : List Char}
    (h : Writes (.part frame entry) cs) {blanks : List Char} (hblanks : Blanks blanks) :
    Writes (.part frame entry) (cs ++ blanks) := by
  cases h with
  | part hhead hbefore hvalue hafter =>
    have hform := Writes.part hhead hbefore hvalue (hafter.append hblanks)
    simpa only [List.append_assoc] using hform

section parts
variable {v : Json} {before cs : List Char} (hbefore : Blanks before) (h : Writes (.value v) cs)
include hbefore h

theorem writes_element : Writes (.part .list ("", v)) (before ++ cs) := by
  have hpart := Writes.part .element hbefore h blanks_nil
  simpa using hpart

theorem writes_member (key : String) {mid : List Char} (hmid : Blanks mid) :
    Writes (.part .record (key, v)) (before ++ (quotedChars key ++ ':' :: (mid ++ cs))) := by
  have hpart := Writes.part (.member hbefore (textForm_quoted key) blanks_nil) hmid h blanks_nil
  simpa using hpart

end parts

theorem blanks_line (level : Nat) : Blanks ('\n' :: (indent level).toList) :=
  blanks_break.append (blanks_indent level)

section frame
variable {frame : Frame} {entries : List (String × Json)} {parts : List String}

theorem writes_intercalate
    (h : List.Forall₂ (fun entry s => Writes (.part frame entry) s.toList) entries parts) :
    Writes (.content frame entries) (",".intercalate parts).toList := by
  by_cases hne : entries = []
  · subst hne
    rw [List.forall₂_nil_left_iff.1 h]
    exact .empty blanks_nil
  · have hparts : List.Forall₂ (fun entry cs => Writes (.part frame entry) ([] ++ cs)) entries
        (parts.map String.toList) := List.forall₂_map_right_iff.2 h
    have hform := intercalate_related (fun entry => Writes (.part frame entry))
      (fun entries => Writes (.parts frame entries)) (fun _ _ => .single) (fun _ _ _ _ => .cons)
      (fun _ _ h => h.append_blanks blanks_nil) hparts hne
    rw [String.toList_intercalate]
    exact .filled (by simpa using hform)

theorem writes_block (level : Nat)
    (h : List.Forall₂ (fun entry s => Writes (.part frame entry)
      ('\n' :: ((indent (level + 1)).toList ++ s.toList))) entries parts) :
    ∃ cs, Writes (.content frame entries) cs ∧ ∀ opening closing,
      (block opening closing level parts).toList = opening.toList ++ (cs ++ closing.toList) := by
  by_cases hne : entries = []
  · subst hne
    rw [List.forall₂_nil_left_iff.1 h]
    exact ⟨[], .empty blanks_nil, fun opening closing => by simp [block]⟩
  · have hparts : List.Forall₂ (fun entry cs => Writes (.part frame entry) (['\n'] ++ cs)) entries
        (parts.map fun s => (indent (level + 1)).toList ++ s.toList) :=
      List.forall₂_map_right_iff.2 h
    have hafter := blanks_line level
    have hform := intercalate_related (fun entry => Writes (.part frame entry))
      (fun entries => Writes (.parts frame entries)) (fun _ _ => .single) (fun _ _ _ _ => .cons)
      (fun _ _ h => h.append_blanks hafter) hparts hne
    have hlines : parts ≠ [] := by
      rintro rfl
      exact hne (List.forall₂_nil_right_iff.1 h)
    refine ⟨_, .filled hform, fun opening closing => ?_⟩
    simp [block, hlines, String.toList_intercalate, Function.comp_def]

end frame

mutual

/-- **What is printed without blanks is a text of the value.** -/
theorem writes_compact : ∀ v : Json, Writes (.value v) v.compact.toList
  | .null => by
    rw [compact]
    exact .null
  | .bool b => by
    rw [compact]
    exact writes_writeBool b
  | .whole n => by
    rw [compact]
    exact writes_toString n
  | .number x => by
    rw [compact]
    exact writes_writeNumber x
  | .text s => by
    rw [compact]
    exact writes_quoted s
  | .list values => by
    have hlist := Writes.list (writes_intercalate (writes_compactList values))
    rw [compact]
    simpa using hlist
  | .record members => by
    have hrecord := Writes.record (writes_intercalate (writes_compactMembers members))
    rw [compact]
    simpa using hrecord

theorem writes_compactList : ∀ values : List Json,
    List.Forall₂ (fun (entry : String × Json) s => Writes (.part .list entry) s.toList)
      (values.map fun v => ("", v)) (compactList values)
  | [] => by
    rw [compactList]
    exact .nil
  | v :: values => by
    have helement := writes_element blanks_nil (writes_compact v)
    rw [compactList]
    exact .cons (by simpa using helement) (writes_compactList values)

theorem writes_compactMembers : ∀ members : List (String × Json),
    List.Forall₂ (fun entry s => Writes (.part .record entry) s.toList) members
      (compactMembers members)
  | [] => by
    rw [compactMembers]
    exact .nil
  | (key, v) :: members => by
    have hmember := writes_member blanks_nil (writes_compact v) key blanks_nil
    rw [compactMembers]
    exact .cons (by simpa [quoted] using hmember) (writes_compactMembers members)

end

mutual

/-- **What is printed indented is a text of the value**, at every level. -/
theorem writes_prettyAt (level : Nat) : ∀ v : Json, Writes (.value v) (v.prettyAt level).toList
  | .null => by
    rw [prettyAt]
    exact .null
  | .bool b => by
    rw [prettyAt]
    exact writes_writeBool b
  | .whole n => by
    rw [prettyAt]
    exact writes_toString n
  | .number x => by
    rw [prettyAt]
    exact writes_writeNumber x
  | .text s => by
    rw [prettyAt]
    exact writes_quoted s
  | .list values => by
    obtain ⟨cs, hcontent, hblock⟩ := writes_block level (writes_prettyList (level + 1) values)
    rw [prettyAt, hblock]
    exact .list hcontent
  | .record members => by
    obtain ⟨cs, hcontent, hblock⟩ := writes_block level (writes_prettyMembers (level + 1) members)
    rw [prettyAt, hblock]
    exact .record hcontent

theorem writes_prettyList (level : Nat) : ∀ values : List Json,
    List.Forall₂ (fun (entry : String × Json) s => Writes (.part .list entry)
      ('\n' :: ((indent level).toList ++ s.toList))) (values.map fun v => ("", v))
      (prettyList level values)
  | [] => by
    rw [prettyList]
    exact .nil
  | v :: values => by
    have helement := writes_element (blanks_line level) (writes_prettyAt level v)
    rw [prettyList]
    exact .cons helement (writes_prettyList level values)

theorem writes_prettyMembers (level : Nat) : ∀ members : List (String × Json),
    List.Forall₂ (fun entry s => Writes (.part .record entry)
      ('\n' :: ((indent level).toList ++ s.toList))) members (prettyMembers level members)
  | [] => by
    rw [prettyMembers]
    exact .nil
  | (key, v) :: members => by
    have hmid : Blanks [' '] := by decide
    have hmember := writes_member (blanks_line level) (writes_prettyAt level v) key hmid
    rw [prettyMembers]
    exact .cons (by simpa [quoted] using hmember) (writes_prettyMembers level members)

end

/-- A printed value with a line break behind it. -/
theorem document_pretty (v : Json) : Document v (v.pretty ++ "\n").toList := by
  have hdocument := Document.padded blanks_nil (writes_prettyAt 0 v) blanks_break
  rw [String.toList_append]
  exact hdocument

end ColorTheme.Json
