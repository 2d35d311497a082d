import ColorTheme.Json.Printer
import ColorTheme.Json.Reader
import ColorTheme.Slots
import ColorTheme.Screening

/-!
# Branding policies

The colors that an organization supplies for the roles in both modes, and their form in JSON: an
object with a text or `null` under each of eight keys, or a list of the eight values in their order.
Other keys are skipped.
-/

namespace ColorTheme

/-- The supplied colors; what is absent is left to the defaults. -/
structure Policy where
  colors : Slots (Option String)
  deriving DecidableEq

namespace Policy

def empty : Policy := ⟨.fill none⟩

/-- The color supplied for a role in a mode, unless it is blank. -/
def supplied (p : Policy) (role : Role) (mode : Mode) : Option String :=
  (p.colors.get role mode).filter fun s => !isBlankText s

/-! ### Keys -/

/-- The keys in their order, each with its role and mode. -/
def keys : List (String × Role × Mode) :=
  [("primaryColor", .primary, .light), ("primaryColorDark", .primary, .dark),
   ("warnColor", .warn, .light), ("warnColorDark", .warn, .dark),
   ("backgroundColor", .background, .light), ("backgroundColorDark", .background, .dark),
   ("fontColor", .text, .light), ("fontColorDark", .text, .dark)]

/-- The role and mode of a key. -/
def slotOf? (key : String) : Option (Role × Mode) := (keys.find? (·.1 = key)).map (·.2)

/-! ### Reading -/

/-- What was read so far: for each slot nothing, or the value of its key. -/
abbrev Found := Slots (Option (Option String))

/-- The policy of the values that were found. -/
def ofFound (found : Found) : Policy := ⟨found.map fun value => value.getD none⟩

/-- Reads one member after its key; a second value for a key is a wrong value. -/
def member (found : Found) (key : String) (cs : List Char) :
    Except Json.Fault (Found × List Char) :=
  match slotOf? key with
  | none => do return (found, ← Json.Reader.skipValue (← Json.Reader.colon cs))
  | some (role, mode) =>
    if (found.get role mode).isSome then .error .mismatch
    else do
      let (value, rest) ← Json.Reader.textOrNull (← Json.Reader.colon cs)
      return (found.set role mode (some value), rest)

/-- Reads the members of an object to its end. -/
def members : Nat → Bool → Found → List Char → Except Json.Fault (Found × List Char)
  | 0, _, _, _ => .error .truncated
  | fuel + 1, first, found, cs => do
    match ← Json.Reader.nextKey first cs with
    | (none, rest) => return (found, rest)
    | (some key, rest) =>
      let (found, rest) ← member found key rest
      members fuel false found rest

/-- Reads the values of a list for slots in their order; the list may end early. -/
def elements : List (String × Role × Mode) → Bool → Found → List Char →
    Except Json.Fault (Found × List Char)
  | [], _, found, cs => .ok (found, cs)
  | (_, role, mode) :: rest, first, found, cs => do
    match ← Json.Reader.nextElement first cs with
    | (false, cs) => return (found, cs)
    | (true, cs) =>
      let (value, cs) ← Json.Reader.textOrNull cs
      elements rest false (found.set role mode (some value)) cs

/-- Reads a policy and what follows. -/
def read (cs : List Char) : Except Json.Fault (Policy × List Char) :=
  match Json.Reader.skipBlanks cs with
  | '\x7b' :: rest => do
    let (found, rest) ← members (rest.length + 1) true (.fill none) rest
    return (ofFound found, rest)
  | '[' :: rest => do
    let (found, rest) ← elements keys true (.fill none) rest
    return (ofFound found, ← Json.Reader.listEnd rest)
  | cs => .error (Json.Reader.wrongValue cs)

def ofJson : String → Except Json.Fault Policy := Json.Reader.whole read

/-! ### Writing -/

/-- A text, or `null` if it is absent. -/
def valueJson : Option String → Json
  | some s => .text s
  | none => .null

def toJson (p : Policy) : Json :=
  .record (keys.map fun (key, role, mode) => (key, valueJson (p.colors.get role mode)))

end Policy

/-! ### Reports -/

/-- A supplied color that a default took the place of. -/
structure Fallback where
  role : Role
  mode : Mode
  /-- The color as it was supplied. -/
  supplied : String
  rejection : Rejection
  /-- The default that was written instead, in hexadecimal form. -/
  used : String
  deriving DecidableEq

end ColorTheme
