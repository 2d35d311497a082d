import ColorTheme.Text.Unprintable
import ColorTheme.Text.Combining

/-!
# Quoted text

The form in which messages show a text that was supplied: between double quotes, with the quote
and the backslash escaped, and with an escape for every character that could not be seen.
-/

namespace ColorTheme.Text

/-- The code of a character between braces, in the fewest lowercase hexadecimal digits. -/
def codeEscape (c : Char) : List Char :=
  '\\' :: 'u' :: '\x7b' :: (Nat.toDigits 16 c.toNat ++ ['\x7d'])

/-- One character of a quoted text. -/
def quotedChar (c : Char) : List Char :=
  match c with
  | '\x00' => ['\\', '0']
  | '\t' => ['\\', 't']
  | '\r' => ['\\', 'r']
  | '\n' => ['\\', 'n']
  | '\\' => ['\\', '\\']
  | '"' => ['\\', '"']
  | c =>
    if 0x20 ≤ c.toNat ∧ c.toNat ≤ 0x7e then [c]
    else if isCombining c || isUnprintable c then codeEscape c
    else [c]

def quoted (s : String) : String :=
  String.ofList ('"' :: (s.toList.flatMap quotedChar ++ ['"']))

end ColorTheme.Text
