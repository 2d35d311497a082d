import ColorTheme.Json.Reader
import ColorTheme.Json.Printer
import ColorTheme.Color.Parser
import ColorTheme.Color.Printer

/-!
# Words and colors in JSON

A color is a text.  A mode, a role or a tone is its word as a text, or an object whose only key is
the word and whose value is `null`.
-/

namespace ColorTheme

namespace Json.Reader

/-- Reads a word, alone or as the only key of an object. -/
def wordValue {α : Type} (find : String → Option α) (cs : List Char) :
    Except Fault (α × List Char) :=
  match skipBlanks cs with
  | [] => .error .truncated
  | '"' :: rest => do
    let (s, rest) ← text rest
    match find s with
    | some a => return (a, rest)
    | none => .error .mismatch
  | '\x7b' :: rest => do
    let (s, rest) ← key rest
    match find s with
    | none => .error .mismatch
    | some a =>
      match skipBlanks (← nullValue (← colon rest)) with
      | [] => .error .truncated
      | '\x7d' :: rest => return (a, rest)
      | _ => .error .malformed
  | _ => .error .malformed

end Json.Reader

def Tone.ofName? (word : String) : Option Tone := [Tone.light, .dark].find? (·.name = word)

def Mode.ofName? (word : String) : Option Mode := Mode.all.find? (·.name = word)

def Role.ofName? (word : String) : Option Role := Role.all.find? (·.name = word)

def Tone.ofJson : String → Except Json.Fault Tone := Json.Reader.whole (Json.Reader.wordValue Tone.ofName?)

def Mode.ofJson : String → Except Json.Fault Mode := Json.Reader.whole (Json.Reader.wordValue Mode.ofName?)

def Role.ofJson : String → Except Json.Fault Role := Json.Reader.whole (Json.Reader.wordValue Role.ofName?)

/-- Reads a color in JSON; a text that is no color is a value of the wrong kind. -/
def Color.ofJson : String → Except Json.Fault Color :=
  Json.Reader.whole fun cs => do
    let (s, rest) ← Json.Reader.textValue cs
    match Color.parse s with
    | .ok c => return (c, rest)
    | .error _ => .error .mismatch

def Tone.toJson (t : Tone) : Json := .text t.name

def Mode.toJson (m : Mode) : Json := .text m.name

def Role.toJson (r : Role) : Json := .text r.name

def Color.toJson (c : Color) : Json := .text c.text

end ColorTheme
