import ColorTheme.Number.Decimal

/-!
# Writing JSON

The values that are written, with the members of an object in the order they are given, in two
layouts: without any blank, and indented by two spaces a level.
-/

namespace ColorTheme

/-- A value to be written. -/
inductive Json where
  | null
  | bool (b : Bool)
  | whole (n : Nat)
  | number (x : Binary64)
  | text (s : String)
  | list (values : List Json)
  | record (members : List (String × Json))

namespace Json

/-! ### Scalars -/

def escapeChar (c : Char) : List Char :=
  match c with
  | '"' => ['\\', '"']
  | '\\' => ['\\', '\\']
  | '\x08' => ['\\', 'b']
  | '\x0c' => ['\\', 'f']
  | '\n' => ['\\', 'n']
  | '\r' => ['\\', 'r']
  | '\t' => ['\\', 't']
  | c =>
    if c.toNat < 0x20 then
      ['\\', 'u', '0', '0', Nat.digitChar (c.toNat / 16), Nat.digitChar (c.toNat % 16)]
    else [c]

/-- A text between quotes, as characters. -/
def quotedChars (s : String) : List Char := '"' :: (s.toList.flatMap escapeChar ++ ['"'])

def quoted (s : String) : String := String.ofList (quotedChars s)

/-- Numbers have the fewest digits and at least one place; a leading digit below the fifth place or
from the seventeenth digit on gives an exponent. -/
def numberLayout : Binary64.Layout := ⟨some (-5), some 15, true⟩

/-- A number; what is not finite has no form. -/
def writeNumber (x : Binary64) : String :=
  if x.isFinite then String.ofList (x.write numberLayout) else "null"

def writeBool (b : Bool) : String := if b then "true" else "false"

/-! ### Without blanks -/

mutual

/-- The value without blanks. -/
def compact : Json → String
  | .null => "null"
  | .bool b => writeBool b
  | .whole n => toString n
  | .number x => writeNumber x
  | .text s => quoted s
  | .list values => "[" ++ ",".intercalate (compactList values) ++ "]"
  | .record members => "\x7b" ++ ",".intercalate (compactMembers members) ++ "\x7d"

def compactList : List Json → List String
  | [] => []
  | v :: vs => compact v :: compactList vs

def compactMembers : List (String × Json) → List String
  | [] => []
  | (k, v) :: ms => (quoted k ++ ":" ++ compact v) :: compactMembers ms

end

/-! ### Indented -/

def indent (level : Nat) : String := String.ofList (List.replicate (2 * level) ' ')

/-- Parts on lines of their own, one level below `level`, between brackets. -/
def block (opening closing : String) (level : Nat) (parts : List String) : String :=
  if parts.isEmpty then opening ++ closing
  else
    opening ++ "\n" ++ ",\n".intercalate (parts.map (indent (level + 1) ++ ·)) ++ "\n" ++
      indent level ++ closing

mutual

/-- The value with two spaces a level, at a level. -/
def prettyAt (level : Nat) : Json → String
  | .null => "null"
  | .bool b => writeBool b
  | .whole n => toString n
  | .number x => writeNumber x
  | .text s => quoted s
  | .list values => block "[" "]" level (prettyList (level + 1) values)
  | .record members => block "\x7b" "\x7d" level (prettyMembers (level + 1) members)

def prettyList (level : Nat) : List Json → List String
  | [] => []
  | v :: vs => prettyAt level v :: prettyList level vs

def prettyMembers (level : Nat) : List (String × Json) → List String
  | [] => []
  | (k, v) :: ms => (quoted k ++ ": " ++ prettyAt level v) :: prettyMembers level ms

end

def pretty (v : Json) : String := prettyAt 0 v

end Json

end ColorTheme
