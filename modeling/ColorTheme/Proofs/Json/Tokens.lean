import ColorTheme.Proofs.Except
import ColorTheme.Proofs.Json.Grammar
import Mathlib.Tactic.IntervalCases

/-!
# Reading tokens

A token of the grammar is read whole, whatever follows, and a number if no more of it can follow.
Texts are read in two ways: for what they say, and to be skipped.
-/

namespace ColorTheme.Json

open Reader

/-! ### Blanks -/

theorem Blanks.isBlank {cs : List Char} (h : Blanks cs) : ∀ c ∈ cs, isBlank c = true := by
  have hall : ∀ c ∈ [' ', '\n', '\t', '\r'], Reader.isBlank c = true := by
    simp [Reader.isBlank]
  exact fun c hc => hall c (h c hc)

theorem skipBlanks_append {blanks : List Char} (h : Blanks blanks) (cs : List Char) :
    skipBlanks (blanks ++ cs) = skipBlanks cs :=
  List.dropWhile_append_of_pos h.isBlank

theorem skipBlanks_cons {c : Char} (hc : isBlank c = false) (cs : List Char) :
    skipBlanks (c :: cs) = c :: cs :=
  List.dropWhile_cons_of_neg (by rw [hc]; exact Bool.false_ne_true)

theorem finish_blanks {blanks : List Char} (h : Blanks blanks) : finish blanks = .ok () := by
  have hskip := skipBlanks_append h []
  rw [List.append_nil] at hskip
  rw [finish, hskip]
  rfl

/-! ### Codes -/

theorem hexValue?_of_hexDigit {n : Nat} {d : Char} (h : HexDigit n d) : hexValue? d = some n := by
  obtain ⟨hn, rfl | rfl⟩ := h <;> interval_cases n <;> rfl

theorem unit_of_unitForm {n : Nat} {cs : List Char} (h : UnitForm n cs) (rest : List Char) :
    unit (cs ++ rest) = .ok (n, rest) := by
  obtain ⟨ha, hb, hc, hd⟩ := h
  simp [unit, hexValue?_of_hexDigit ha, hexValue?_of_hexDigit hb, hexValue?_of_hexDigit hc,
    hexValue?_of_hexDigit hd]

theorem not_surrogate (c : Char) :
    isLowSurrogate c.toNat = false ∧ isHighSurrogate c.toNat = false := by
  have hvalid : c.toNat < 0xd800 ∨ 0xdfff < c.toNat ∧ c.toNat < 0x110000 := c.valid
  simp only [isLowSurrogate, isHighSurrogate, Bool.and_eq_false_iff, decide_eq_false_iff_not]
  omega

theorem unicode_of_code {c : Char} {cs : List Char} (h : UnitForm c.toNat cs) (rest : List Char) :
    unicode (cs ++ rest) = .ok (c, rest) := by
  obtain ⟨hlow, hhigh⟩ := not_surrogate c
  simp [unicode, unit_of_unitForm h, hlow, hhigh]

theorem unicode_of_pair {c : Char} {high low : Nat} {cs ds : List Char}
    (hhigh : 0xd800 ≤ high ∧ high < 0xdc00) (hlow : 0xdc00 ≤ low ∧ low < 0xe000)
    (hc : c.toNat = 0x10000 + (high - 0xd800) * 0x400 + (low - 0xdc00)) (h : UnitForm high cs)
    (h' : UnitForm low ds) (rest : List Char) :
    unicode (cs ++ '\\' :: 'u' :: (ds ++ rest)) = .ok (c, rest) := by
  have hfirst : isLowSurrogate high = false ∧ isHighSurrogate high = true := by
    simp only [isLowSurrogate, isHighSurrogate, Bool.and_eq_false_iff, Bool.and_eq_true,
      decide_eq_false_iff_not, decide_eq_true_eq]
    omega
  have hsecond : isLowSurrogate low = true := by
    simp only [isLowSurrogate, Bool.and_eq_true, decide_eq_true_eq]
    omega
  have hpaired : paired high low = c := by rw [paired, ← hc, Char.ofNat_toNat]
  simp [unicode, unit_of_unitForm h, unit_of_unitForm h', hfirst, hsecond, hpaired]

theorem shortEscape?_of_mem {letter c : Char} (h : (letter, c) ∈ shortEscapes) :
    letter ≠ 'u' ∧ shortEscape? letter = some c := by
  have hall : ∀ e ∈ shortEscapes, e.1 ≠ 'u' ∧ shortEscape? e.1 = some e.2 := by decide
  exact hall _ h

/-! ### Characters -/

section char
variable {c : Char} {form : List Char}

theorem CharForm.exists_first (h : CharForm c form) : ∃ d more, form = d :: more ∧ d ≠ '"' := by
  cases h with
  | plain _ hquote _ => exact ⟨c, [], rfl, hquote⟩
  | short => exact ⟨'\\', _, rfl, by decide⟩
  | code => exact ⟨'\\', _, rfl, by decide⟩
  | pair => exact ⟨'\\', _, rfl, by decide⟩

/-- **A character is read from any of its forms.** -/
theorem textChar_of_charForm (h : CharForm c form) (rest : List Char) :
    textChar (form ++ rest) = .ok (c, rest) := by
  cases h with
  | plain hcontrol _ hslash => simp [textChar, hslash, hcontrol]
  | short hmem =>
    obtain ⟨hletter, hescape⟩ := shortEscape?_of_mem hmem
    simp [textChar, hescape]
  | code hunit => exact unicode_of_code hunit rest
  | pair hhigh hlow hc hunit hunit' =>
    have hread := unicode_of_pair hhigh hlow hc hunit hunit' rest
    simpa [textChar] using hread

end char

/-! ### Texts -/

theorem CharsForm.length_le {s cs : List Char} (h : CharsForm s cs) : s.length ≤ cs.length := by
  induction h with
  | nil => exact le_rfl
  | cons hchar _ ih =>
    obtain ⟨d, more, rfl, -⟩ := hchar.exists_first
    simp only [List.length_cons, List.cons_append, List.length_append]
    omega

theorem textBody_of_charsForm {s cs : List Char} (h : CharsForm s cs) (rest : List Char) {fuel : Nat}
    (hfuel : s.length < fuel) (read : List Char) :
    textBody fuel read (cs ++ '"' :: rest) = .ok (String.ofList (read.reverse ++ s), rest) := by
  induction h generalizing fuel read with
  | nil =>
    obtain ⟨fuel, rfl⟩ : ∃ n, fuel = n + 1 := ⟨fuel - 1, by simp at hfuel; omega⟩
    simp [textBody]
  | @cons c s form cs hchar _ ih =>
    obtain ⟨fuel, rfl⟩ : ∃ n, fuel = n + 1 := ⟨fuel - 1, by omega⟩
    have hlength : s.length < fuel := by simpa using hfuel
    have hread := textChar_of_charForm hchar (cs ++ '"' :: rest)
    obtain ⟨d, more, rfl, hd⟩ := hchar.exists_first
    rw [List.append_assoc, List.cons_append] at *
    have ih := ih hlength (c :: read)
    rw [List.reverse_cons, List.append_assoc] at ih
    rw [textBody, hread, Except.ok_bind]
    · exact ih
    · intro rest heq
      exact hd (List.cons.inj heq).1

/-- **A text is read from any of its forms**, from its opening quote on. -/
theorem text_of_charsForm {s : String} {cs : List Char} (h : CharsForm s.toList cs)
    (rest : List Char) : Reader.text (cs ++ '"' :: rest) = .ok (s, rest) := by
  have hlength := h.length_le
  rw [Reader.text, textBody_of_charsForm h rest (by rw [List.length_append]; omega)]
  simp

/-! ### Skipping texts -/

theorem skipTextBody_step {d : Char} {more rest : List Char} (hd : d ≠ '"')
    (h : skipTextChar (d :: more) = .ok rest) (fuel : Nat) :
    skipTextBody (fuel + 1) (d :: more) = skipTextBody fuel rest := by
  rw [skipTextBody, h, Except.ok_bind]
  intro rest heq
  exact hd (List.cons.inj heq).1

/-- A character is skipped in one step, and a pair in two. -/
theorem skipTextBody_of_charForm {c : Char} {form : List Char} (h : CharForm c form) :
    ∃ n ≤ form.length, ∀ fuel rest,
      skipTextBody (fuel + n) (form ++ rest) = skipTextBody fuel rest := by
  have hslash : '\\' ≠ '"' := by decide
  cases h with
  | plain hcontrol hquote hbackslash =>
    refine ⟨1, le_rfl, fun fuel rest => skipTextBody_step hquote ?_ fuel⟩
    simp [skipTextChar, hbackslash, hcontrol]
  | short hmem =>
    obtain ⟨hletter, hescape⟩ := shortEscape?_of_mem hmem
    refine ⟨1, by simp, fun fuel rest => skipTextBody_step hslash ?_ fuel⟩
    simp [skipTextChar, hescape]
  | code hunit =>
    refine ⟨1, by simp, fun fuel rest => skipTextBody_step hslash ?_ fuel⟩
    simp [skipTextChar, unit_of_unitForm hunit]
  | @pair _ _ cs ds _ _ _ hunit hunit' =>
    refine ⟨2, by simp, fun fuel rest => ?_⟩
    have hfirst : skipTextChar ('\\' :: 'u' :: (cs ++ '\\' :: 'u' :: (ds ++ rest))) =
        .ok ('\\' :: 'u' :: (ds ++ rest)) := by simp [skipTextChar, unit_of_unitForm hunit]
    have hsecond : skipTextChar ('\\' :: 'u' :: (ds ++ rest)) = .ok rest := by
      simp [skipTextChar, unit_of_unitForm hunit']
    rw [List.cons_append, List.cons_append, List.append_assoc, List.cons_append, List.cons_append,
      skipTextBody_step hslash hfirst, skipTextBody_step hslash hsecond]

theorem skipTextBody_of_charsForm {s cs : List Char} (h : CharsForm s cs) :
    ∃ n ≤ cs.length, ∀ fuel rest,
      skipTextBody (fuel + n) (cs ++ '"' :: rest) = skipTextBody fuel ('"' :: rest) := by
  induction h with
  | nil => exact ⟨0, le_rfl, fun _ _ => rfl⟩
  | cons hchar _ ih =>
    obtain ⟨n, hn, hskip⟩ := ih
    obtain ⟨m, hm, hchar⟩ := skipTextBody_of_charForm hchar
    refine ⟨n + m, by rw [List.length_append]; omega, fun fuel rest => ?_⟩
    rw [← Nat.add_assoc, List.append_assoc, hchar, hskip]

/-- **A text is skipped in any of its forms**, from its opening quote on. -/
theorem skipText_of_charsForm {s cs : List Char} (h : CharsForm s cs) (rest : List Char) :
    skipText (cs ++ '"' :: rest) = .ok rest := by
  obtain ⟨n, hn, hskip⟩ := skipTextBody_of_charsForm h
  have hfuel : (cs ++ '"' :: rest).length + 1 = cs.length - n + rest.length + 1 + 1 + n := by
    simp only [List.length_append, List.length_cons]
    omega
  rw [skipText, hfuel, hskip]
  rfl

/-! ### Numbers -/

/-- What can follow a value: a blank, a comma or a closing bracket. -/
def Delimited (cs : List Char) : Prop :=
  ∃ c rest, cs = c :: rest ∧ c ∈ [' ', '\n', '\t', '\r', ',', ']', '\x7d']

theorem Delimited.notFirst {cs : List Char} (h : Delimited cs) :
    Numeral.NotFirst (fun c => c.isDigit = true ∨ c = '.' ∨ c = 'e' ∨ c = 'E') cs := by
  have hall : ∀ c ∈ [' ', '\n', '\t', '\r', ',', ']', '\x7d'],
      ¬(c.isDigit = true ∨ c = '.' ∨ c = 'e' ∨ c = 'E') := by simp
  obtain ⟨c, rest, rfl, hc⟩ := h
  intro d hd
  obtain rfl : c = d := Option.some.inj hd
  exact hall c hc

theorem digits_append {ds rest : List Char} (hne : ds ≠ []) (hds : Numeral.Digits ds)
    (hrest : Numeral.NotFirst (fun c => c.isDigit = true) rest) (atEnd : Fault) :
    Reader.digits atEnd (ds ++ rest) = .ok rest := by
  obtain ⟨d, ds, rfl⟩ := List.exists_cons_of_ne_nil hne
  have hd := hds d List.mem_cons_self
  have hdrop := Numeral.dropWhile_digits (fun d hd => hds d (List.mem_cons_of_mem _ hd)) hrest
  simp [Reader.digits, hd, hdrop]

theorem exponentPart_present {letter : Char} (hletter : letter = 'e' ∨ letter = 'E') {negative : Bool}
    {sign cs : List Char} (hsign : Numeral.Sign negative sign)
    (hcs : Numeral.NotFirst (fun c => c = '-' ∨ c = '+') cs) (atEnd : Fault) :
    exponentPart atEnd (letter :: (sign ++ cs)) = Reader.digits atEnd cs := by
  have hmark : (decide (letter = 'e') || decide (letter = 'E')) = true := by simpa using hletter
  cases hsign with
  | absent =>
    simp only [exponentPart, hmark, if_true, List.nil_append]
    split
    · exact absurd rfl (not_or.1 (hcs _ rfl)).2
    · exact absurd rfl (not_or.1 (hcs _ rfl)).1
    · rfl
  | plus => simp [exponentPart, hletter]
  | minus => simp [exponentPart, hletter]

theorem exponentPart_append {e : Int} {exponent rest : List Char} (h : Numeral.Exponent e exponent)
    (hrest : Delimited rest) (atEnd : Fault) : exponentPart atEnd (exponent ++ rest) = .ok rest := by
  have hnotFirst := hrest.notFirst
  cases h with
  | absent =>
    obtain ⟨c, rest, rfl, -⟩ := hrest
    have hc := hnotFirst c rfl
    simp only [not_or] at hc
    simp [exponentPart, hc]
  | @present letter negative sign ds hletter hsign hne hds =>
    have hread := digits_append hne hds (fun c hc h => hnotFirst c hc (.inl h)) atEnd
    obtain ⟨d, ds, rfl⟩ := List.exists_cons_of_ne_nil hne
    have hfirst := Numeral.notFirst_of_isDigit (hds d List.mem_cons_self) (ds ++ rest)
    rw [List.cons_append, List.append_assoc, List.cons_append,
      exponentPart_present hletter hsign hfirst, ← List.cons_append, hread]

theorem wholePart_append {whole rest : List Char} (h : WholeForm whole) (hne : rest ≠ [])
    (hrest : Numeral.NotFirst (fun c => c.isDigit = true) rest) (atEnd : Fault) :
    wholePart atEnd (whole ++ rest) = .ok rest := by
  cases h with
  | zero =>
    obtain ⟨c, rest, rfl⟩ := List.exists_cons_of_ne_nil hne
    have hc := hrest c rfl
    simp [wholePart, hc]
  | @digits d ds hd hds =>
    have hread := digits_append (List.cons_ne_nil d ds) hds hrest atEnd
    rw [List.cons_append] at hread ⊢
    rw [wholePart, hread]
    intro c rest heq
    exact hd (List.cons.inj heq).1

theorem WholeForm.exists_first {whole : List Char} (h : WholeForm whole) :
    ∃ d ds, whole = d :: ds ∧ d.isDigit = true := by
  cases h with
  | zero => exact ⟨'0', [], rfl, rfl⟩
  | digits _ hds => exact ⟨_, _, rfl, hds _ List.mem_cons_self⟩

theorem notFirst_exponent {e : Int} {exponent rest : List Char} (h : Numeral.Exponent e exponent)
    (hrest : Delimited rest) :
    Numeral.NotFirst (fun c => c.isDigit = true ∨ c = '.') (exponent ++ rest) := by
  cases h with
  | absent => exact fun c hc h => hrest.notFirst c hc (h.imp_right .inl)
  | present hletter hsign hne hds =>
    exact (Numeral.Exponent.present hletter hsign hne hds).notFirst

theorem WholeForm.ne_minus {whole : List Char} (h : WholeForm whole) (rest : List Char) :
    ∀ more, whole ++ rest = '-' :: more → False := by
  obtain ⟨d, ds, rfl, hd⟩ := h.exists_first
  intro more heq
  obtain ⟨rfl, -⟩ := List.cons.inj heq
  cases hd

theorem number_minus {cs : List Char} (h : ∀ more, cs = '-' :: more → False) (atEnd : Fault) :
    Reader.number atEnd ('-' :: cs) = Reader.number atEnd cs := by
  rw [Reader.number.eq_def atEnd cs]
  split
  · exact absurd rfl (h _)
  · rfl

theorem number_unsigned {whole places exponent rest : List Char} {e : Int} (hwhole : WholeForm whole)
    (hplaces : PlacesForm places) (hexponent : Numeral.Exponent e exponent) (hrest : Delimited rest)
    (atEnd : Fault) :
    Reader.number atEnd (whole ++ (places ++ (exponent ++ rest))) = .ok rest := by
  have hbehind := exponentPart_append hexponent hrest atEnd
  have hnotFirst := notFirst_exponent hexponent hrest
  have hunsigned := hwhole.ne_minus (places ++ (exponent ++ rest))
  rw [Reader.number]
  · cases hplaces with
    | absent =>
      have hne : exponent ++ rest ≠ [] := by
        obtain ⟨c, rest, rfl, -⟩ := hrest
        simp
      rw [List.nil_append, wholePart_append hwhole hne fun c hc h => hnotFirst c hc (.inl h),
        Except.ok_bind]
      split
      · rename_i heq
        exact absurd (.inr rfl) (hnotFirst '.' (by rw [heq]; rfl))
      · exact hbehind
    | @present ds hds hdigits =>
      have hpoint : Numeral.NotFirst (fun c => c.isDigit = true)
          ('.' :: (ds ++ (exponent ++ rest))) := by
        intro c hc
        obtain rfl : '.' = c := Option.some.inj hc
        decide
      have hread := digits_append hds hdigits (fun c hc h => hnotFirst c hc (.inl h)) atEnd
      rw [List.cons_append, wholePart_append hwhole (List.cons_ne_nil _ _) hpoint,
        Except.ok_bind]
      change (Reader.digits atEnd (ds ++ (exponent ++ rest)) >>= exponentPart atEnd) = _
      rw [hread, Except.ok_bind, hbehind]
  · exact hunsigned

/-- **A number is read whole**, if what follows can be no more of it. -/
theorem number_append {cs rest : List Char} (h : NumberForm cs) (hrest : Delimited rest)
    (atEnd : Fault) : Reader.number atEnd (cs ++ rest) = .ok rest := by
  obtain ⟨hsign, hwhole, hplaces, hexponent⟩ := h
  have hunsigned := number_unsigned hwhole hplaces hexponent hrest atEnd
  simp only [List.append_assoc]
  rcases hsign with rfl | rfl
  · exact hunsigned
  · rw [← hunsigned]
    exact number_minus (hwhole.ne_minus _) atEnd

end ColorTheme.Json
