import ColorTheme.Proofs.Json.Tokens

/-!
# Skipping values

A value of the grammar is skipped whole, however deep it is and whatever stands in it.  Each step of
the skipping is described once; the induction then goes over the grammar and counts the steps, of which
there are at most two for each character.
-/

namespace ColorTheme.Json

open Reader

/-! ### Steps -/

section step
variable {frames : List Frame} {frame : Frame} {cs rest : List Char} (fuel : Nat)

theorem skipWith_done : skipWith (fuel + 1) .next [] cs = .ok cs := rfl

theorem skipWith_open (h : skipBlanks cs = frame.opening :: rest) :
    skipWith (fuel + 1) .value frames cs = skipWith fuel .first (frame :: frames) rest := by
  cases frame <;> simp [skipWith, h, Frame.opening]

theorem skipWith_scalar {c : Char} {more : List Char} (h : skipBlanks cs = c :: more)
    (hlist : c ≠ '[') (hrecord : c ≠ '\x7b') (hscalar : skipScalar (c :: more) = .ok rest) :
    skipWith (fuel + 1) .value frames cs = skipWith fuel .next frames rest := by
  simp [skipWith, h, hlist, hrecord, hscalar]

theorem skipWith_first {c : Char} {more : List Char} (h : skipBlanks cs = c :: more)
    (hclosing : c ≠ frame.closing) (hkey : skipKey frame (c :: more) = .ok rest) :
    skipWith (fuel + 1) .first (frame :: frames) cs =
      skipWith fuel .value (frame :: frames) rest := by
  simp [skipWith, h, hclosing, hkey]

theorem skipWith_comma (hkey : skipKey frame rest = .ok cs) :
    skipWith (fuel + 1) .next (frame :: frames) (',' :: rest) =
      skipWith fuel .value (frame :: frames) cs := by
  have hcomma : skipBlanks (',' :: rest) = ',' :: rest := rfl
  simp [skipWith, hcomma, hkey]

theorem skipWith_close {awaited : Awaited} (hawaited : awaited = .first ∨ awaited = .next)
    (h : skipBlanks cs = frame.closing :: rest) :
    skipWith (fuel + 1) awaited (frame :: frames) cs = skipWith fuel .next frames rest := by
  rcases hawaited with rfl | rfl
  · simp [skipWith, h]
  · cases frame <;> simp [skipWith, h, Frame.closing]

end step

theorem skipWith_next_append {blanks : List Char} (h : Blanks blanks) (fuel : Nat) (frame : Frame)
    (frames : List Frame) (cs : List Char) :
    skipWith fuel .next (frame :: frames) (blanks ++ cs) =
      skipWith fuel .next (frame :: frames) cs := by
  cases fuel with
  | zero => rfl
  | succ fuel => simp [skipWith, skipBlanks_append h]

/-! ### Where values start -/

theorem NumberForm.exists_first {cs : List Char} (h : NumberForm cs) :
    ∃ c more, cs = c :: more ∧ (c = '-' ∨ c.isDigit = true) := by
  obtain ⟨hsign, hwhole, -, -⟩ := h
  rcases hsign with rfl | rfl
  · obtain ⟨d, ds, rfl, hd⟩ := hwhole.exists_first
    exact ⟨d, _, rfl, .inr hd⟩
  · exact ⟨'-', _, rfl, .inl rfl⟩

/-- Neither a blank nor what starts another value starts a number. -/
theorem not_mem_of_first {c : Char} (hc : c = '-' ∨ c.isDigit = true) :
    c ∉ ['n', 't', 'f', '"', '[', '\x7b', ']', '\x7d', ' ', '\n', '\t', '\r'] := by
  have hall : ∀ d ∈ ['n', 't', 'f', '"', '[', '\x7b', ']', '\x7d', ' ', '\n', '\t', '\r'],
      ¬(d = '-' ∨ d.isDigit = true) := by simp
  exact fun hmem => hall c hmem hc

/-- A value starts with no blank and no closing bracket, and its first character tells texts and `null`
from the others. -/
theorem Form.exists_first {m : Meaning} {cs : List Char} (h : Form (.value m) cs) :
    ∃ c more, cs = c :: more ∧ isBlank c = false ∧ c ≠ ']' ∧ c ≠ '\x7d' ∧
      (m = .other → c ≠ 'n' ∧ c ≠ '"') := by
  cases h with
  | null => exact ⟨'n', _, rfl, by decide⟩
  | bool hword =>
    rcases hword with rfl | rfl
    · exact ⟨'t', _, rfl, by decide⟩
    · exact ⟨'f', _, rfl, by decide⟩
  | number hnumber =>
    obtain ⟨c, more, rfl, hc⟩ := hnumber.exists_first
    have hnot := not_mem_of_first hc
    simp only [List.mem_cons, List.not_mem_nil, or_false, not_or] at hnot
    exact ⟨c, more, rfl, by simp [isBlank, hnot], by simp [hnot]⟩
  | text htext =>
    cases htext
    exact ⟨'"', _, rfl, by decide, by decide, by decide, by simp⟩
  | @framed frame =>
    cases frame
    · exact ⟨'[', _, rfl, by decide⟩
    · exact ⟨'\x7b', _, rfl, by decide⟩

/-! ### Keys -/

theorem colon_append {blanks : List Char} (h : Blanks blanks) (rest : List Char) :
    colon (blanks ++ ':' :: rest) = .ok rest := by
  rw [colon, skipBlanks_append h]
  rfl

/-- What stands before a value is skipped, and is no bracket. -/
theorem skipKey_append {frame : Frame} {key : String} {head : List Char}
    (h : HeadForm frame key head) (rest : List Char) : skipKey frame (head ++ rest) = .ok rest := by
  cases h with
  | element => rfl
  | @member _ before cs after hbefore htext hafter =>
    cases htext with
    | quoted hchars =>
      have hskip := skipText_of_charsForm hchars (after ++ ':' :: rest)
      have hcolon := colon_append hafter rest
      simp only [skipKey, List.append_assoc, List.cons_append, List.nil_append,
        skipBlanks_append hbefore]
      rw [skipBlanks_cons (by decide)]
      simp [hskip, hcolon]

/-! ### Values without parts -/

theorem skipScalar_of_number {cs : List Char} (h : NumberForm cs) {rest : List Char}
    (hrest : Delimited rest) : skipScalar (cs ++ rest) = .ok rest := by
  have hread := number_append h hrest .malformed
  obtain ⟨c, more, rfl, hc⟩ := h.exists_first
  have hnot := not_mem_of_first hc
  simp only [List.mem_cons, List.not_mem_nil, or_false, not_or] at hnot
  rw [List.cons_append] at hread ⊢
  simpa [skipScalar, hnot] using hread

theorem Delimited.of_blanks {blanks rest : List Char} (h : Blanks blanks) (hrest : Delimited rest) :
    Delimited (blanks ++ rest) := by
  cases blanks with
  | nil => exact hrest
  | cons b blanks =>
    have hb := h b List.mem_cons_self
    exact ⟨b, blanks ++ rest, rfl, List.mem_append_left _ hb⟩

/-! ### Counting steps -/

/-- The value is skipped in that many steps, whatever frames are open. -/
def SkipsValue (cs : List Char) (n : Nat) : Prop :=
  ∀ fuel frames before rest, Blanks before → Delimited rest →
    skipWith (fuel + n) .value frames (before ++ (cs ++ rest)) = skipWith fuel .next frames rest

/-- The parts are skipped in that many steps, as the first ones of a frame and after a comma. -/
def SkipsParts (frame : Frame) (cs : List Char) (n : Nat) : Prop :=
  ∀ fuel frames rest, Delimited rest →
    skipWith (fuel + n) .first (frame :: frames) (cs ++ rest) =
        skipWith fuel .next (frame :: frames) rest ∧
      skipWith (fuel + n) .next (frame :: frames) (',' :: (cs ++ rest)) =
        skipWith fuel .next (frame :: frames) rest

/-- What is between the brackets is skipped with the closing one in that many steps. -/
def SkipsContent (frame : Frame) (cs : List Char) (n : Nat) : Prop :=
  ∀ fuel frames rest,
    skipWith (fuel + n) .first (frame :: frames) (cs ++ frame.closing :: rest) =
      skipWith fuel .next frames rest

/-- **How a part of a text is skipped**, in at most two steps for each character. -/
def Skips : Part → List Char → Prop
  | .value _, cs => ∃ n, n + 1 ≤ 2 * cs.length ∧ SkipsValue cs n
  | .part frame _, cs => ∃ n ≤ 2 * cs.length, SkipsParts frame cs n
  | .parts frame _, cs => ∃ n ≤ 2 * cs.length, SkipsParts frame cs n
  | .content frame _, cs => ∃ n ≤ 2 * cs.length + 1, SkipsContent frame cs n

theorem skips_scalar {m : Meaning} {c : Char} {more : List Char} (hblank : isBlank c = false)
    (hlist : c ≠ '[') (hrecord : c ≠ '\x7b')
    (h : ∀ rest, Delimited rest → skipScalar (c :: (more ++ rest)) = .ok rest) :
    Skips (.value m) (c :: more) := by
  refine ⟨1, by simp only [List.length_cons]; omega, fun fuel frames before rest hbefore hrest => ?_⟩
  refine skipWith_scalar fuel ?_ hlist hrecord (h rest hrest)
  rw [skipBlanks_append hbefore, List.cons_append, skipBlanks_cons hblank]

theorem skips_framed {frame : Frame} {entries : List (String × Meaning)} {cs : List Char}
    (h : Skips (.content frame entries) cs) :
    Skips (.value .other) (frame.opening :: (cs ++ [frame.closing])) := by
  obtain ⟨n, hn, hskip⟩ := h
  have hblank : isBlank frame.opening = false := by cases frame <;> decide
  refine ⟨n + 1, ?_, fun fuel frames before rest hbefore _ => ?_⟩
  · simp only [List.length_cons, List.length_append, List.length_nil]
    omega
  · have hopen : skipBlanks (before ++ (frame.opening :: (cs ++ [frame.closing]) ++ rest)) =
        frame.opening :: (cs ++ frame.closing :: rest) := by
      rw [skipBlanks_append hbefore, List.cons_append, skipBlanks_cons hblank, List.append_assoc]
      rfl
    rw [← Nat.add_assoc, skipWith_open _ hopen, hskip]

/-- A part does not start with the bracket that closes its frame, and its value comes after the key. -/
theorem HeadForm.exists_start {frame : Frame} {key : String} {m : Meaning}
    {head before cs : List Char} (h : HeadForm frame key head) (hbefore : Blanks before)
    (hcs : Form (.value m) cs) (rest : List Char) :
    ∃ c more, skipBlanks (head ++ (before ++ (cs ++ rest))) = c :: more ∧ c ≠ frame.closing ∧
      ∃ left, Blanks left ∧ skipKey frame (c :: more) = .ok (left ++ (cs ++ rest)) := by
  cases h with
  | element =>
    obtain ⟨c, more, rfl, hblank, hclosing, -, -⟩ := hcs.exists_first
    refine ⟨c, more ++ rest, ?_, hclosing, [], blanks_nil, rfl⟩
    rw [List.nil_append, skipBlanks_append hbefore, List.cons_append, skipBlanks_cons hblank]
  | @member _ front cs' after hfront htext hafter =>
    have hkey := skipKey_append (.member blanks_nil htext hafter) (before ++ (cs ++ rest))
    obtain ⟨hchars⟩ := htext
    simp only [List.nil_append, List.append_assoc, List.cons_append] at hkey ⊢
    refine ⟨'"', _, ?_, by decide, before, hbefore, hkey⟩
    rw [skipBlanks_append hfront, skipBlanks_cons (by decide)]

theorem skips_part {frame : Frame} {key : String} {m : Meaning} {head before cs after : List Char}
    (hhead : HeadForm frame key head) (hbefore : Blanks before) (hcs : Form (.value m) cs)
    (hafter : Blanks after) (h : Skips (.value m) cs) :
    Skips (.part frame (key, m)) (head ++ (before ++ (cs ++ after))) := by
  obtain ⟨n, hn, hskip⟩ := h
  refine ⟨n + 1, by simp only [List.length_append]; omega, fun fuel frames rest hrest => ?_⟩
  have hvalue {left : List Char} (hleft : Blanks left) :
      skipWith (fuel + n) .value (frame :: frames) (left ++ (cs ++ (after ++ rest))) =
        skipWith fuel .next (frame :: frames) rest := by
    rw [hskip fuel _ _ _ hleft (hrest.of_blanks hafter), skipWith_next_append hafter]
  simp only [List.append_assoc]
  constructor
  · obtain ⟨c, more, hstart, hclosing, left, hleft, hkey⟩ :=
      hhead.exists_start hbefore hcs (after ++ rest)
    rw [← Nat.add_assoc, skipWith_first _ hstart hclosing hkey, hvalue hleft]
  · rw [← Nat.add_assoc, skipWith_comma _ (skipKey_append hhead _), hvalue hbefore]

theorem skips_cons {frame : Frame} {entry : String × Meaning} {entries : List (String × Meaning)}
    {cs ds : List Char} (h : Skips (.part frame entry) cs) (h' : Skips (.parts frame entries) ds) :
    Skips (.parts frame (entry :: entries)) (cs ++ ',' :: ds) := by
  obtain ⟨m, hm, hfirst⟩ := h
  obtain ⟨n, hn, hmore⟩ := h'
  refine ⟨n + m, ?_, fun fuel frames rest hrest => ?_⟩
  · simp only [List.length_append, List.length_cons]
    omega
  · have hcomma : Delimited (',' :: (ds ++ rest)) := ⟨',', _, rfl, by decide⟩
    obtain ⟨hfirst, hnext⟩ := hfirst (fuel + n) frames _ hcomma
    rw [List.append_assoc, List.cons_append, ← Nat.add_assoc, hfirst, hnext]
    exact ⟨(hmore fuel frames rest hrest).2, (hmore fuel frames rest hrest).2⟩

theorem skips_empty (frame : Frame) {cs : List Char} (h : Blanks cs) :
    Skips (.content frame []) cs := by
  refine ⟨1, by omega, fun fuel frames rest => skipWith_close fuel (.inl rfl) ?_⟩
  rw [skipBlanks_append h]
  exact skipBlanks_cons (by cases frame <;> decide) rest

theorem skips_filled {frame : Frame} {entries : List (String × Meaning)} {cs : List Char}
    (h : Skips (.parts frame entries) cs) : Skips (.content frame entries) cs := by
  obtain ⟨n, hn, hskip⟩ := h
  refine ⟨1 + n, by omega, fun fuel frames rest => ?_⟩
  have hclosing : Delimited (frame.closing :: rest) := ⟨_, rest, rfl, by cases frame <;> decide⟩
  rw [← Nat.add_assoc, (hskip (fuel + 1) frames _ hclosing).1]
  exact skipWith_close fuel (.inr rfl) (skipBlanks_cons (by cases frame <;> decide) rest)

/-- **Every part of a text is skipped whole.** -/
theorem Form.skips {part : Part} {cs : List Char} (h : Form part cs) : Skips part cs := by
  induction h with
  | null => exact skips_scalar rfl (by decide) (by decide) fun rest _ => rfl
  | bool hword =>
    rcases hword with rfl | rfl
    · exact skips_scalar rfl (by decide) (by decide) fun rest _ => rfl
    · exact skips_scalar rfl (by decide) (by decide) fun rest _ => rfl
  | number hnumber =>
    have hskip (rest : List Char) (hrest : Delimited rest) := skipScalar_of_number hnumber hrest
    obtain ⟨c, more, rfl, hc⟩ := hnumber.exists_first
    have hnot := not_mem_of_first hc
    simp only [List.mem_cons, List.not_mem_nil, or_false, not_or] at hnot
    exact skips_scalar (by simp [isBlank, hnot]) hnot.2.2.2.2.1 hnot.2.2.2.2.2.1 hskip
  | text htext =>
    obtain ⟨hchars⟩ := htext
    refine skips_scalar rfl (by decide) (by decide) fun rest _ => ?_
    rw [List.append_assoc]
    exact skipText_of_charsForm hchars rest
  | framed _ ih => exact skips_framed ih
  | part hhead hbefore hcs hafter ih => exact skips_part hhead hbefore hcs hafter ih
  | single _ ih => exact ih
  | cons _ _ ih ih' => exact skips_cons ih ih'
  | empty h => exact skips_empty _ h
  | filled _ ih => exact skips_filled ih

/-- **A value is skipped**, with blanks before it and whatever it holds. -/
theorem skipValue_of_form {m : Meaning} {cs before rest : List Char} (h : Form (.value m) cs)
    (hbefore : Blanks before) (hrest : Delimited rest) :
    skipValue (before ++ (cs ++ rest)) = .ok rest := by
  obtain ⟨n, hn, hskip⟩ := h.skips
  obtain ⟨spare, hspare⟩ : ∃ spare, 2 * (before ++ (cs ++ rest)).length + 2 = spare + 1 + n := by
    refine ⟨2 * (before ++ (cs ++ rest)).length + 1 - n, ?_⟩
    simp only [List.length_append]
    omega
  rw [skipValue, hspare, hskip (spare + 1) [] before rest hbefore hrest, skipWith_done]

end ColorTheme.Json
