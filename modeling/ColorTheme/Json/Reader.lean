import ColorTheme.Number.Decimal

/-!
# Reading JSON

The tokens of a JSON text, and skipping a value of any depth.  Each reader takes the text from where
it stands and gives back what is left.  A text can fail in three ways: it breaks the grammar, it
holds a value of the wrong kind, or it ends too early; the first fault on the way decides.
-/

namespace ColorTheme.Json

inductive Fault where
  /-- The text breaks the grammar. -/
  | malformed
  /-- A value is well-formed so far but not what is asked for. -/
  | mismatch
  /-- The text ends too early. -/
  | truncated
  deriving DecidableEq, Repr

namespace Reader

/-! ### Blanks and words -/

/-- The four blanks of the grammar. -/
def isBlank (c : Char) : Bool := c = ' ' || c = '\n' || c = '\t' || c = '\r'

def skipBlanks (cs : List Char) : List Char := cs.dropWhile isBlank

def word : List Char → List Char → Except Fault (List Char)
  | [], cs => .ok cs
  | _ :: _, [] => .error .truncated
  | w :: ws, c :: cs => if w = c then word ws cs else .error .malformed

def colon (cs : List Char) : Except Fault (List Char) :=
  match skipBlanks cs with
  | [] => .error .truncated
  | ':' :: rest => .ok rest
  | _ => .error .malformed

/-- Nothing but blanks is left. -/
def finish (cs : List Char) : Except Fault Unit :=
  if (skipBlanks cs).isEmpty then .ok () else .error .malformed

/-- Reads a whole text with a reader for its value. -/
def whole {α : Type} (read : List Char → Except Fault (α × List Char)) (s : String) :
    Except Fault α := do
  let (a, rest) ← read s.toList
  finish rest
  return a

/-! ### Texts -/

def hexValue? (c : Char) : Option Nat :=
  if '0' ≤ c ∧ c ≤ '9' then some (c.toNat - '0'.toNat)
  else if 'a' ≤ c ∧ c ≤ 'f' then some (c.toNat - 'a'.toNat + 10)
  else if 'A' ≤ c ∧ c ≤ 'F' then some (c.toNat - 'A'.toNat + 10)
  else none

def byteCount (cs : List Char) : Nat := cs.foldr (fun c n => c.utf8Size + n) 0

/-- Reads the four hexadecimal digits of a unit; with fewer than four bytes left the text ends too
early, whatever they are. -/
def unit (cs : List Char) : Except Fault (Nat × List Char) :=
  match (cs.take 4).mapM hexValue? with
  | some [a, b, c, d] => .ok (((a * 16 + b) * 16 + c) * 16 + d, cs.drop 4)
  | _ => .error (if byteCount (cs.take 4) < 4 then .truncated else .malformed)

/-- The first unit of a pair. -/
def isHighSurrogate (n : Nat) : Bool := 0xd800 ≤ n && n ≤ 0xdbff

/-- The second unit of a pair. -/
def isLowSurrogate (n : Nat) : Bool := 0xdc00 ≤ n && n ≤ 0xdfff

/-- The character of a pair of units. -/
def paired (high low : Nat) : Char :=
  Char.ofNat (0x10000 + (high - 0xd800) * 0x400 + (low - 0xdc00))

/-- Reads the units of one character: one unit, or a high and a low one. -/
def unicode (cs : List Char) : Except Fault (Char × List Char) := do
  let (n, rest) ← unit cs
  if isLowSurrogate n then .error .malformed
  else if isHighSurrogate n then
    match rest with
    | [] | ['\\'] => .error .truncated
    | '\\' :: 'u' :: rest =>
      let (m, rest) ← unit rest
      if isLowSurrogate m then .ok (paired n m, rest) else .error .malformed
    | _ => .error .malformed
  else .ok (Char.ofNat n, rest)

/-- The character that a letter after a backslash stands for. -/
def shortEscape? (c : Char) : Option Char :=
  match c with
  | '"' => some '"'
  | '\\' => some '\\'
  | '/' => some '/'
  | 'b' => some '\x08'
  | 'f' => some '\x0c'
  | 'n' => some '\n'
  | 'r' => some '\r'
  | 't' => some '\t'
  | _ => none

/-- Reads one character of a text; control characters have to be escaped. -/
def textChar : List Char → Except Fault (Char × List Char)
  | [] => .error .truncated
  | '\\' :: [] => .error .truncated
  | '\\' :: 'u' :: rest => unicode rest
  | '\\' :: c :: rest =>
    match shortEscape? c with
    | some c => .ok (c, rest)
    | none => .error .malformed
  | c :: rest => if c.toNat < 0x20 then .error .malformed else .ok (c, rest)

/-- Reads characters up to the closing quote; `read` holds those before, the last one first. -/
def textBody : Nat → List Char → List Char → Except Fault (String × List Char)
  | 0, _, _ => .error .truncated
  | _ + 1, read, '"' :: rest => .ok (String.ofList read.reverse, rest)
  | fuel + 1, read, cs => do
    let (c, rest) ← textChar cs
    textBody fuel (c :: read) rest

/-- Reads a text after its opening quote. -/
def text (cs : List Char) : Except Fault (String × List Char) := textBody (cs.length + 1) [] cs

/-- Skips one character of a text; of units only the digits are looked at. -/
def skipTextChar : List Char → Except Fault (List Char)
  | [] => .error .truncated
  | '\\' :: [] => .error .truncated
  | '\\' :: 'u' :: rest => return (← unit rest).2
  | '\\' :: c :: rest => if (shortEscape? c).isSome then .ok rest else .error .malformed
  | c :: rest => if c.toNat < 0x20 then .error .malformed else .ok rest

def skipTextBody : Nat → List Char → Except Fault (List Char)
  | 0, _ => .error .truncated
  | _ + 1, '"' :: rest => .ok rest
  | fuel + 1, cs => do skipTextBody fuel (← skipTextChar cs)

def skipText (cs : List Char) : Except Fault (List Char) := skipTextBody (cs.length + 1) cs

/-! ### Numbers -/

/-- Reads one digit or more; `atEnd` is the fault of a text that ends before. -/
def digits (atEnd : Fault) (cs : List Char) : Except Fault (List Char) :=
  match cs with
  | [] => .error atEnd
  | c :: rest => if c.isDigit then .ok (rest.dropWhile Char.isDigit) else .error .malformed

/-- Reads the whole part of a number: a zero, or digits that do not start with one. -/
def wholePart (atEnd : Fault) (cs : List Char) : Except Fault (List Char) :=
  match cs with
  | '0' :: c :: rest => if c.isDigit then .error .malformed else .ok (c :: rest)
  | cs => digits atEnd cs

/-- Reads an exponent, if there is one. -/
def exponentPart (atEnd : Fault) (cs : List Char) : Except Fault (List Char) :=
  match cs with
  | c :: rest =>
    if c = 'e' || c = 'E' then
      match rest with
      | '+' :: rest | '-' :: rest => digits atEnd rest
      | rest => digits atEnd rest
    else .ok cs
  | [] => .ok []

def number (atEnd : Fault) (cs : List Char) : Except Fault (List Char) := do
  let rest ← wholePart atEnd (match cs with | '-' :: rest => rest | cs => cs)
  match rest with
  | '.' :: rest => exponentPart atEnd (← digits atEnd rest)
  | rest => exponentPart atEnd rest

/-- Takes in digits after those of `n` as long as the number stays below `2 ^ 64`; gives the number
and the digits that are left. -/
def takeDigits (n : Nat) : List Char → Nat × List Char
  | [] => (n, [])
  | c :: cs =>
    let m := 10 * n + digitValue c
    if m < 2 ^ 64 then takeDigits m cs else (n, c :: cs)

/-- Whether a number is in range.  Of its digits only those count that fit in 64 bits; the digits
left out before the point count as zeros.  The number they write is rounded, and so is its product
with the power of ten, which has to be a finite number. -/
def isInRange (x : Numeral) : Bool :=
  let (n, wholeLeft) := takeDigits 0 x.whole
  let (n, placesLeft) := takeDigits n x.places
  let e := x.exponent + wholeLeft.length + placesLeft.length - x.places.length
  n = 0 || e < 0 || (e ≤ 308 && (Binary64.ofNat n * Binary64.ofDecimal false 1 e).isFinite)

/-! ### Wrong values -/

/-- The fault that a reader gives back, and `mismatch` if there is none. -/
def faultOr {α : Type} : Except Fault α → Fault
  | .ok _ => .mismatch
  | .error fault => fault

/-- The fault of a number where none is wanted; one that is out of range breaks the grammar. -/
def numberFault (cs : List Char) : Fault :=
  match number .truncated cs with
  | .error fault => fault
  | .ok rest =>
    match Numeral.read? (cs.take (cs.length - rest.length)) with
    | some x => if isInRange x then .mismatch else .malformed
    | none => .malformed

/-- The fault of a value of the wrong kind.  A word, a number or a text is read first. -/
def wrongValue (cs : List Char) : Fault :=
  match skipBlanks cs with
  | [] => .truncated
  | 'n' :: rest => faultOr (word ['u', 'l', 'l'] rest)
  | 't' :: rest => faultOr (word ['r', 'u', 'e'] rest)
  | 'f' :: rest => faultOr (word ['a', 'l', 's', 'e'] rest)
  | '"' :: rest => faultOr (text rest)
  | '[' :: _ => .mismatch
  | '\x7b' :: _ => .mismatch
  | c :: rest => if c = '-' || c.isDigit then numberFault (c :: rest) else .malformed

def textValue (cs : List Char) : Except Fault (String × List Char) :=
  match skipBlanks cs with
  | '"' :: rest => text rest
  | cs => .error (wrongValue cs)

def textOrNull (cs : List Char) : Except Fault (Option String × List Char) :=
  match skipBlanks cs with
  | 'n' :: rest => do return (none, ← word ['u', 'l', 'l'] rest)
  | cs => do
    let (s, rest) ← textValue cs
    return (some s, rest)

def nullValue (cs : List Char) : Except Fault (List Char) :=
  match skipBlanks cs with
  | 'n' :: rest => word ['u', 'l', 'l'] rest
  | cs => .error (wrongValue cs)

/-! ### Skipping -/

/-- A list or an object that is open. -/
inductive Frame where
  | list
  | record
  deriving DecidableEq, Repr

/-- The bracket that ends it. -/
def Frame.closing : Frame → Char
  | .list => ']'
  | .record => '\x7d'

/-- What comes next while a value is skipped. -/
inductive Awaited where
  | value
  /-- The first part of the innermost frame, or its end. -/
  | first
  /-- A comma and a further part of the innermost frame, or its end. -/
  | next
  deriving DecidableEq, Repr

/-- Skips a value without parts. -/
def skipScalar (cs : List Char) : Except Fault (List Char) :=
  match cs with
  | 'n' :: rest => word ['u', 'l', 'l'] rest
  | 't' :: rest => word ['r', 'u', 'e'] rest
  | 'f' :: rest => word ['a', 'l', 's', 'e'] rest
  | '"' :: rest => skipText rest
  | cs => number .malformed cs

/-- Skips what stands before the value of a part: nothing, or a key and a colon. -/
def skipKey (frame : Frame) (cs : List Char) : Except Fault (List Char) :=
  match frame with
  | .list => .ok cs
  | .record =>
    match skipBlanks cs with
    | [] => .error .truncated
    | '"' :: rest => do colon (← skipText rest)
    | _ => .error .malformed

/-- Skips with the open frames, the innermost first, until none is open. -/
def skipWith : Nat → Awaited → List Frame → List Char → Except Fault (List Char)
  | 0, _, _, _ => .error .truncated
  | _ + 1, .next, [], cs => .ok cs
  | fuel + 1, awaited, frames, cs =>
    match awaited, frames, skipBlanks cs with
    | _, _, [] => .error .truncated
    | .value, frames, '[' :: rest => skipWith fuel .first (.list :: frames) rest
    | .value, frames, '\x7b' :: rest => skipWith fuel .first (.record :: frames) rest
    | .value, frames, cs =>
      match skipScalar cs with
      | .ok rest => skipWith fuel .next frames rest
      | .error fault => .error fault
    | .first, frame :: frames, c :: rest =>
      if c = frame.closing then skipWith fuel .next frames rest
      else match skipKey frame (c :: rest) with
        | .ok rest => skipWith fuel .value (frame :: frames) rest
        | .error fault => .error fault
    | .next, frame :: frames, c :: rest =>
      if c = ',' then
        match skipKey frame rest with
        | .ok rest => skipWith fuel .value (frame :: frames) rest
        | .error fault => .error fault
      else if c = frame.closing then skipWith fuel .next frames rest
      else .error .malformed
    | _, [], _ => .error .malformed

/-- Skips a value.  Every second step takes a character, so twice the length is enough. -/
def skipValue (cs : List Char) : Except Fault (List Char) :=
  skipWith (2 * cs.length + 2) .value [] cs

/-! ### Members -/

def key (cs : List Char) : Except Fault (String × List Char) :=
  match skipBlanks cs with
  | [] => .error .truncated
  | '"' :: rest => text rest
  | _ => .error .malformed

/-- Reads up to the key of the next member of an object, and gives nothing at its end. -/
def nextKey (first : Bool) (cs : List Char) : Except Fault (Option String × List Char) :=
  match skipBlanks cs with
  | [] => .error .truncated
  | '\x7d' :: rest => .ok (none, rest)
  | c :: rest => do
    let rest ← if first then .ok (c :: rest) else if c = ',' then .ok rest else .error .malformed
    let (s, rest) ← key rest
    return (some s, rest)

/-- Whether a list goes on, and the text from its next value or its closing bracket on. -/
def nextElement (first : Bool) (cs : List Char) : Except Fault (Bool × List Char) :=
  match skipBlanks cs with
  | [] => .error .truncated
  | ']' :: rest => .ok (false, ']' :: rest)
  | c :: rest =>
    if first then .ok (true, c :: rest)
    else if c = ',' then
      match skipBlanks rest with
      | [] => .error .truncated
      | ']' :: _ => .error .malformed
      | rest => .ok (true, rest)
    else .error .malformed

/-- Reads the closing bracket of a list; a comma before it is one part too many, whatever follows. -/
def listEnd (cs : List Char) : Except Fault (List Char) :=
  match skipBlanks cs with
  | [] => .error .truncated
  | ']' :: rest => .ok rest
  | _ => .error .malformed

end Reader

end ColorTheme.Json
