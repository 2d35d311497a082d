import ColorTheme.Json.Printer
import ColorTheme.Json.Reader
import ColorTheme.Proofs.Number.Numeral

/-!
# The grammar of JSON

Which texts are values, as a relation: blanks between the tokens, every way to write a character,
numbers of any length, lists and objects of any depth.  The grammar is one relation on the parts of a
text, so that an induction goes through values, their parts and all that is between them at once.
-/

namespace ColorTheme.Json

open Reader (Frame)

/-! ### Characters -/

/-- Nothing but blanks. -/
def Blanks (cs : List Char) : Prop := ∀ c ∈ cs, c ∈ [' ', '\n', '\t', '\r']

-- Named, since a test of all characters would be an instance as well.
instance (cs : List Char) : Decidable (Blanks cs) :=
  List.decidableBAll (· ∈ [' ', '\n', '\t', '\r']) cs

/-- A hexadecimal digit in either case. -/
def HexDigit (n : Nat) (d : Char) : Prop :=
  n < 16 ∧ (d = Nat.digitChar n ∨ d = (Nat.digitChar n).toUpper)

instance (n : Nat) (d : Char) : Decidable (HexDigit n d) :=
  inferInstanceAs (Decidable (n < 16 ∧ (d = Nat.digitChar n ∨ d = (Nat.digitChar n).toUpper)))

/-- Four hexadecimal digits. -/
inductive UnitForm : Nat → List Char → Prop
  | digits {m n p q : Nat} {a b c d : Char} : HexDigit m a → HexDigit n b → HexDigit p c →
      HexDigit q d → UnitForm (((m * 16 + n) * 16 + p) * 16 + q) [a, b, c, d]

/-- The letters after a backslash and what they stand for. -/
def shortEscapes : List (Char × Char) :=
  [('"', '"'), ('\\', '\\'), ('/', '/'), ('b', '\x08'), ('f', '\x0c'), ('n', '\n'), ('r', '\r'),
   ('t', '\t')]

/-- The ways to write a character: itself, a short escape, its code, or the two codes of the pair that
stands for it. -/
inductive CharForm (c : Char) : List Char → Prop
  | plain : 0x20 ≤ c.toNat → c ≠ '"' → c ≠ '\\' → CharForm c [c]
  | short {letter : Char} : (letter, c) ∈ shortEscapes → CharForm c ['\\', letter]
  | code {cs : List Char} : UnitForm c.toNat cs → CharForm c ('\\' :: 'u' :: cs)
  | pair {high low : Nat} {cs ds : List Char} : 0xd800 ≤ high ∧ high < 0xdc00 →
      0xdc00 ≤ low ∧ low < 0xe000 →
      c.toNat = 0x10000 + (high - 0xd800) * 0x400 + (low - 0xdc00) → UnitForm high cs →
      UnitForm low ds → CharForm c ('\\' :: 'u' :: (cs ++ '\\' :: 'u' :: ds))

/-- Characters one after the other, each in one of its forms. -/
inductive CharsForm : List Char → List Char → Prop
  | nil : CharsForm [] []
  | cons {c : Char} {s form cs : List Char} : CharForm c form → CharsForm s cs →
      CharsForm (c :: s) (form ++ cs)

/-- A text between quotes. -/
inductive TextForm (s : String) : List Char → Prop
  | quoted {cs : List Char} : CharsForm s.toList cs → TextForm s ('"' :: (cs ++ ['"']))

/-! ### Numbers -/

/-- A zero, or digits that do not start with one. -/
inductive WholeForm : List Char → Prop
  | zero : WholeForm ['0']
  | digits {d : Char} {ds : List Char} : d ≠ '0' → Numeral.Digits (d :: ds) → WholeForm (d :: ds)

/-- Nothing, or a point and digits. -/
inductive PlacesForm : List Char → Prop
  | absent : PlacesForm []
  | present {ds : List Char} : ds ≠ [] → Numeral.Digits ds → PlacesForm ('.' :: ds)

/-- A number, with an exponent of any size. -/
inductive NumberForm : List Char → Prop
  | signed {sign whole places exponent : List Char} {e : Int} : sign = [] ∨ sign = ['-'] →
      WholeForm whole → PlacesForm places → Numeral.Exponent e exponent →
      NumberForm (sign ++ (whole ++ (places ++ exponent)))

/-! ### Values -/

/-- What a value is to a reader that wants a text or `null`. -/
inductive Meaning where
  | null
  | text (s : String)
  | other
  deriving DecidableEq

def Reader.Frame.opening : Frame → Char
  | .list => '['
  | .record => '\x7b'

/-- What stands before the value of a part: nothing in a list, a key and a colon in an object. -/
inductive HeadForm : Frame → String → List Char → Prop
  | element : HeadForm .list "" []
  | member {key : String} {before cs after : List Char} : Blanks before → TextForm key cs →
      Blanks after → HeadForm .record key (before ++ (cs ++ (after ++ [':'])))

/-- What a stretch of a text is. -/
inductive Part where
  | value (m : Meaning)
  /-- A part of a list or an object, with the blanks around it. -/
  | part (frame : Frame) (entry : String × Meaning)
  /-- Parts with commas between them. -/
  | parts (frame : Frame) (entries : List (String × Meaning))
  /-- All that is between the brackets. -/
  | content (frame : Frame) (entries : List (String × Meaning))

/-- **The text is a part of this kind.** -/
inductive Form : Part → List Char → Prop
  | null : Form (.value .null) ['n', 'u', 'l', 'l']
  | bool {cs : List Char} : cs = ['t', 'r', 'u', 'e'] ∨ cs = ['f', 'a', 'l', 's', 'e'] →
      Form (.value .other) cs
  | number {cs : List Char} : NumberForm cs → Form (.value .other) cs
  | text {s : String} {cs : List Char} : TextForm s cs → Form (.value (.text s)) cs
  | framed {frame : Frame} {entries : List (String × Meaning)} {cs : List Char} :
      Form (.content frame entries) cs →
      Form (.value .other) (frame.opening :: (cs ++ [frame.closing]))
  | part {frame : Frame} {key : String} {m : Meaning} {head before cs after : List Char} :
      HeadForm frame key head → Blanks before → Form (.value m) cs → Blanks after →
      Form (.part frame (key, m)) (head ++ (before ++ (cs ++ after)))
  | single {frame : Frame} {entry : String × Meaning} {cs : List Char} :
      Form (.part frame entry) cs → Form (.parts frame [entry]) cs
  | cons {frame : Frame} {entry : String × Meaning} {entries : List (String × Meaning)}
      {cs ds : List Char} : Form (.part frame entry) cs → Form (.parts frame entries) ds →
      Form (.parts frame (entry :: entries)) (cs ++ ',' :: ds)
  | empty {frame : Frame} {cs : List Char} : Blanks cs → Form (.content frame []) cs
  | filled {frame : Frame} {entries : List (String × Meaning)} {cs : List Char} :
      Form (.parts frame entries) cs → Form (.content frame entries) cs

/-- An object with these members, with blanks around it. -/
inductive ObjectForm (members : List (String × Meaning)) : List Char → Prop
  | braced {before cs after : List Char} : Blanks before → Form (.content .record members) cs →
      Blanks after → ObjectForm members (before ++ '\x7b' :: (cs ++ '\x7d' :: after))

/-- Objects with these members, with commas between them. -/
inductive ObjectsForm : List (List (String × Meaning)) → List Char → Prop
  | single {members : List (String × Meaning)} {cs : List Char} : ObjectForm members cs →
      ObjectsForm [members] cs
  | cons {members : List (String × Meaning)} {objects : List (List (String × Meaning))}
      {cs ds : List Char} : ObjectForm members cs → ObjectsForm objects ds →
      ObjectsForm (members :: objects) (cs ++ ',' :: ds)

/-- A list of objects with these members. -/
inductive ListForm : List (List (String × Meaning)) → List Char → Prop
  | empty {cs : List Char} : Blanks cs → ListForm [] ('[' :: (cs ++ [']']))
  | filled {objects : List (List (String × Meaning))} {cs : List Char} : ObjectsForm objects cs →
      ListForm objects ('[' :: (cs ++ [']']))

/-! ### What is written is in the grammar -/

theorem Blanks.append {cs ds : List Char} (hcs : Blanks cs) (hds : Blanks ds) : Blanks (cs ++ ds) :=
  fun c hc => (List.mem_append.1 hc).elim (hcs c) (hds c)

theorem blanks_nil : Blanks [] := List.forall_mem_nil _

theorem blanks_break : Blanks ['\n'] := by decide

theorem blanks_indent (level : Nat) : Blanks (indent level).toList := by
  intro c hc
  rw [indent, String.toList_ofList] at hc
  rw [List.eq_of_mem_replicate hc]
  decide

theorem hexDigit_digitChar {n : Nat} (hn : n < 16) : HexDigit n (Nat.digitChar n) := ⟨hn, .inl rfl⟩

theorem charForm_escapeChar (c : Char) : CharForm c (escapeChar c) := by
  unfold escapeChar
  split
  · exact .short (by decide)
  · exact .short (by decide)
  · exact .short (by decide)
  · exact .short (by decide)
  · exact .short (by decide)
  · exact .short (by decide)
  · exact .short (by decide)
  · next hquote hslash _ _ _ _ _ =>
    split
    · next hcontrol =>
      have hzero : HexDigit 0 '0' := hexDigit_digitChar (by decide)
      have hunit := UnitForm.digits hzero hzero (hexDigit_digitChar (n := c.toNat / 16) (by omega))
        (hexDigit_digitChar (n := c.toNat % 16) (by omega))
      refine .code ?_
      rwa [show ((0 * 16 + 0) * 16 + c.toNat / 16) * 16 + c.toNat % 16 = c.toNat by omega] at hunit
    · next hcontrol => exact .plain (Nat.not_lt.1 hcontrol) hquote hslash

theorem charsForm_escaped (s : List Char) : CharsForm s (s.flatMap escapeChar) := by
  induction s with
  | nil => exact .nil
  | cons c s ih =>
    rw [List.flatMap_cons]
    exact .cons (charForm_escapeChar c) ih

theorem textForm_quoted (s : String) : TextForm s (quotedChars s) :=
  .quoted (charsForm_escaped s.toList)

theorem form_member {key : String} {m : Meaning} {before mid cs : List Char} (hbefore : Blanks before)
    (hmid : Blanks mid) (h : Form (.value m) cs) :
    Form (.part .record (key, m)) (before ++ (quotedChars key ++ ':' :: (mid ++ cs))) := by
  have hform := Form.part (.member hbefore (textForm_quoted key) blanks_nil) hmid h blanks_nil
  simpa using hform

theorem ObjectForm.prepend_blanks {members : List (String × Meaning)} {cs : List Char}
    (h : ObjectForm members cs) {blanks : List Char} (hblanks : Blanks blanks) :
    ObjectForm members (blanks ++ cs) := by
  cases h with
  | braced hbefore hcontent hafter =>
    have hform := ObjectForm.braced (hblanks.append hbefore) hcontent hafter
    simpa only [List.append_assoc] using hform

theorem ObjectForm.append_blanks {members : List (String × Meaning)} {cs : List Char}
    (h : ObjectForm members cs) {blanks : List Char} (hblanks : Blanks blanks) :
    ObjectForm members (cs ++ blanks) := by
  cases h with
  | braced hbefore hcontent hafter =>
    have hform := ObjectForm.braced hbefore hcontent (hafter.append hblanks)
    simpa only [List.append_assoc, List.cons_append] using hform

/-- What a written value is to a reader that wants a text or `null`. -/
def meaning : Json → Meaning
  | .null => .null
  | .number x => if x.isFinite then .other else .null
  | .text s => .text s
  | _ => .other

/-- The members of a written object as its reader finds them. -/
def meanings (members : List (String × Json)) : List (String × Meaning) :=
  members.map fun member => (member.1, member.2.meaning)

end ColorTheme.Json
