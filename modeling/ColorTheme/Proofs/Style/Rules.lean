import ColorTheme.Proofs.Color.Language
import ColorTheme.Proofs.Text.Bytes
import ColorTheme.Proofs.Text.Split
import ColorTheme.Style.Properties

/-!
# Reading rules back

A rule of a style sheet is read line by line: what stands between the braces is taken apart at the
line breaks, and each line at its first colon with a blank behind it.  Where no name has a colon and
nothing has a line break in it, this gives the properties back that the rule was written from.
-/

namespace ColorTheme.Style

/-! ### Lines -/

/-- The text before and behind the first colon with a blank after it. -/
def divide? : List Char → Option (List Char × List Char)
  | ':' :: ' ' :: value => some ([], value)
  | c :: rest => (divide? rest).map fun parts => (c :: parts.1, parts.2)
  | [] => none

theorem divide?_append {name : List Char} (h : ':' ∉ name) (value : List Char) :
    divide? (name ++ ':' :: ' ' :: value) = some (name, value) := by
  induction name with
  | nil => rfl
  | cons c name ih =>
    rw [List.mem_cons, not_or] at h
    have hc : c ≠ ':' := fun heq => h.1 heq.symm
    rw [List.cons_append, divide?, ih h.2, Option.map_some]
    rintro rest hcolon
    exact absurd hcolon hc

def lineChars (e : String × String) : List Char :=
  ' ' :: ' ' :: (e.1.toList ++ ':' :: ' ' :: (e.2.toList ++ [';']))

/-- Reads a line: two blanks, a name, a colon and a blank, a value, a semicolon. -/
def readLine? (line : List Char) : Option (String × String) := do
  let content ← Color.dropLast? ';' (← Color.dropFront? [' ', ' '] line)
  let (name, value) ← divide? content
  return (String.ofList name, String.ofList value)

theorem readLine?_lineChars {e : String × String} (h : ':' ∉ e.1.toList) :
    readLine? (lineChars e) = some e := by
  have hfront : Color.dropFront? [' ', ' '] (lineChars e) =
      some (e.1.toList ++ ':' :: ' ' :: e.2.toList ++ [';']) := by
    rw [Color.dropFront?_eq_some_iff]
    simp [lineChars]
  have hlast : Color.dropLast? ';' (e.1.toList ++ ':' :: ' ' :: e.2.toList ++ [';']) =
      some (e.1.toList ++ ':' :: ' ' :: e.2.toList) :=
    Color.dropLast?_eq_some_iff.2 rfl
  rw [readLine?, hfront, Option.bind_eq_bind, Option.bind_some, hlast, Option.bind_eq_bind,
    Option.bind_some, divide?_append h]
  simp

/-! ### Rules -/

/-- The lines between the braces of a rule. -/
def bodyLines? (selector css : String) : Option (List (List Char)) := do
  let body ← Color.dropFront? (selector ++ " \x7b\n").toList css.toList
  match (Text.split (· = '\n') body).reverse with
  | [] :: ['\x7d'] :: lines => some lines.reverse
  | _ => none

/-- Reads the properties of a rule with a selector. -/
def readRule? (selector css : String) : Option (List (String × String)) := do
  (← bodyLines? selector css).mapM readLine?

/-- A property that can be told from the line that it is written to. -/
structure Legible (e : String × String) : Prop where
  colon : ':' ∉ e.1.toList
  name_break : '\n' ∉ e.1.toList
  value_break : '\n' ∉ e.2.toList

theorem Legible.line_break {e : String × String} (h : Legible e) : '\n' ∉ lineChars e := by
  have hname := h.name_break
  have hvalue := h.value_break
  simp [lineChars, hname, hvalue]

theorem toList_css (selector : String) (p : Properties) :
    (p.css selector).toList = (selector ++ " \x7b\n").toList ++
      (p.toList.flatMap (fun e => lineChars e ++ ['\n']) ++ ['\x7d', '\n']) := by
  have hline (e : String × String) :
      (Properties.cssLine e).toList = lineChars e ++ ['\n'] := by
    simp [Properties.cssLine, lineChars]
  simp [Properties.css, List.flatMap_map, hline]

/-- The lines of a body are found again at the line breaks. -/
theorem split_body {entries : List (String × String)} (h : ∀ e ∈ entries, Legible e) :
    Text.split (· = '\n') (entries.flatMap (fun e => lineChars e ++ ['\n']) ++ ['\x7d', '\n']) =
      entries.map lineChars ++ [['\x7d'], []] := by
  have hlines : ∀ line ∈ entries.map lineChars, '\n' ∉ line := by
    intro line hline
    obtain ⟨e, he, rfl⟩ := List.mem_map.1 hline
    exact (h e he).line_break
  rw [← List.flatMap_map lineChars (· ++ ['\n']), Text.split_lines hlines]
  rfl

theorem mapM_readLine? {entries : List (String × String)} (h : ∀ e ∈ entries, Legible e) :
    (entries.map lineChars).mapM readLine? = some entries := by
  induction entries with
  | nil => rfl
  | cons e rest ih =>
    rw [List.map_cons, List.mapM_cons, readLine?_lineChars (h e List.mem_cons_self).colon,
      ih fun e he => h e (List.mem_cons_of_mem _ he)]
    rfl

variable {p : Properties} (h : ∀ e ∈ p.toList, Legible e) (selector : String)
include h

/-- Between the braces there is one line for each property, in their order. -/
theorem bodyLines?_css : bodyLines? selector (p.css selector) = some (p.toList.map lineChars) := by
  have hbody := Color.dropFront?_eq_some_iff.2 (toList_css selector p)
  rw [bodyLines?, hbody, Option.bind_eq_bind, Option.bind_some, split_body h]
  simp

/-- **The properties of a rule are read back.** -/
theorem readRule?_css : readRule? selector (p.css selector) = some p.toList := by
  rw [readRule?, bodyLines?_css h, Option.bind_eq_bind, Option.bind_some, mapM_readLine? h]

end ColorTheme.Style
