import ColorTheme.Json.Printer
import ColorTheme.Json.Reader
import ColorTheme.SortedMap

/-!
# Objects of texts

The form of a map from texts to texts in JSON: an object whose values are texts.
-/

namespace ColorTheme.TextMap

open Json.Reader

/-- Reads the members of an object to its end; the last value of a key stays. -/
def members : Nat → Bool → SortedMap String → List Char →
    Except Json.Fault (SortedMap String × List Char)
  | 0, _, _, _ => .error .truncated
  | fuel + 1, first, map, cs => do
    match ← nextKey first cs with
    | (none, rest) => return (map, rest)
    | (some key, rest) =>
      let (value, rest) ← textValue (← colon rest)
      members fuel false (map.insert key value) rest

def read (cs : List Char) : Except Json.Fault (SortedMap String × List Char) :=
  match skipBlanks cs with
  | '\x7b' :: rest => members (rest.length + 1) true .empty rest
  | cs => .error (wrongValue cs)

def ofJson : String → Except Json.Fault (SortedMap String) := whole read

/-- The map as an object with its keys in order. -/
def toJson (map : SortedMap String) : Json :=
  .record (map.toList.map fun (key, value) => (key, .text value))

end ColorTheme.TextMap
