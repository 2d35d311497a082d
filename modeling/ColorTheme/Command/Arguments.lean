/-!
# Reading arguments

What a command takes is a `Grammar`: flags, options with a value, one operand and the commands below
it.  Arguments are read one by one into the values of the command.  The value of an option and an
operand wait until the next argument of the command itself, or the end, before they are looked at;
an argument that does not fit is reported before what waits.
-/

namespace ColorTheme.Command

/-! ### Errors -/

/-- Why arguments do not make a command; asking for help or for the version counts as a reason. -/
inductive UsageError where
  | helpShown
  | versionShown
  /-- No command was given. -/
  | commandMissing
  | unknownCommand
  | unknownArgument
  /-- Something that the command needs was not given. -/
  | argumentMissing
  /-- A value is missing, empty or none of the words that are allowed. -/
  | valueInvalid
  /-- The reader of a value does not accept it. -/
  | valueRefused
  /-- An argument was given twice. -/
  | repeated
  /-- A flag was given a value. -/
  | valueUnexpected
  deriving DecidableEq, Repr

def UsageError.exitCode : UsageError → Nat
  | .helpShown | .versionShown => 0
  | _ => 2

def UsageError.message : UsageError → String
  | .helpShown => "help was asked for"
  | .versionShown => "the version was asked for"
  | .commandMissing => "a command is needed"
  | .unknownCommand => "there is no such command"
  | .unknownArgument => "there is an argument that the command does not take"
  | .argumentMissing => "an argument that the command needs is missing"
  | .valueInvalid => "the value of an argument is missing or not allowed"
  | .valueRefused => "the value of an argument cannot be read"
  | .repeated => "an argument is given twice"
  | .valueUnexpected => "a value is given to an argument that takes none"

/-! ### Values -/

abbrev ValueReader (α : Type) := String → Except UsageError α

namespace ValueReader

variable {α ε : Type}

def anyText : ValueReader String := .ok

/-- A path, which is not empty. -/
def path : ValueReader String := fun s => if s = "" then .error .valueInvalid else .ok s

/-- One of some words. -/
def word (words : List (String × α)) : ValueReader α := fun s =>
  match words.lookup s with
  | some a => .ok a
  | none => .error .valueInvalid

/-- What a reader of the domain accepts. -/
def accepted (read : String → Except ε α) : ValueReader α := fun s =>
  match read s with
  | .ok a => .ok a
  | .error _ => .error .valueRefused

end ValueReader

/-! ### Grammars -/

/-- Puts the text of a value into the values of a command. -/
abbrev Setter (σ : Type) := String → σ → Except UsageError σ

/-- A setter from a reader and what is done with its value. -/
def ValueReader.into {α σ : Type} (read : ValueReader α) (set : α → σ → σ) : Setter σ :=
  fun text values => (read text).map fun a => set a values

/-- A command below another one, whose values are `σ`. -/
structure Subcommand (σ : Type) where
  name : String
  /-- The names lead to a command below this one, or to this one if there are none. -/
  leadsTo : List String → Bool
  /-- Reads the arguments that follow, into a change of the values. -/
  parse : List String → Except UsageError (σ → σ)

/-- What a command takes, and the values it starts with. -/
structure Grammar (σ : Type) where
  start : σ
  flags : List (String × (σ → σ))
  options : List (String × Setter σ)
  operand : Option (Setter σ)
  commands : List (Subcommand σ)
  /-- The command tells its version. -/
  hasVersion : Bool

section Commands

variable {σ : Type}

/-- The name of the command that shows help on commands. -/
def helpName : String := "help"

/-- Names lead to one of some commands, or to the help on them. -/
def leadsTo (commands : List (Subcommand σ)) : List String → Bool
  | [] => true
  | name :: rest =>
    if name = helpName then rest.isEmpty
    else match commands.find? (·.name = name) with
      | some c => c.leadsTo rest
      | none => false

/-- The command that shows help on the one that the names after it lead to. -/
def helpCommand (commands : List (Subcommand σ)) : Subcommand σ where
  name := helpName
  leadsTo := List.isEmpty
  parse := fun names => .error (if leadsTo commands names then .helpShown else .unknownCommand)

/-- The command of a name; where there are commands, there is help on them. -/
def Grammar.command? (g : Grammar σ) (name : String) : Option (Subcommand σ) :=
  if g.commands.isEmpty then none
  else (g.commands ++ [helpCommand g.commands]).find? (·.name = name)

end Commands

/-! ### Words -/

inductive Word where
  /-- Two dashes: all that follow are operands. -/
  | separator
  /-- A name after two dashes, and the value after an equals sign. -/
  | long (name : String) (value : Option String)
  /-- A letter after one dash; what follows it is not looked at. -/
  | short (letter : Char)
  | plain
  deriving DecidableEq, Repr

def Word.ofText (text : String) : Word :=
  match text.toList with
  | ['-', '-'] => .separator
  | '-' :: '-' :: rest =>
    .long (String.ofList (rest.takeWhile (· ≠ '=')))
      (match rest.dropWhile (· ≠ '=') with
        | [] => none
        | _ :: value => some (String.ofList value))
  | '-' :: letter :: _ => .short letter
  | _ => .plain

/-! ### Reading -/

/-- A value that waits to be looked at. -/
structure Waiting (σ : Type) where
  /-- The name of the option; the operand has none. -/
  name : String
  /-- The value, unless it is the next argument. -/
  text : Option String
  put : Setter σ

/-- How far the reading of a command is. -/
structure Progress (σ : Type) where
  values : σ
  /-- The names that were given. -/
  given : List String
  waiting : Option (Waiting σ)
  hasOperand : Bool

namespace Progress

variable {σ : Type}

def start (values : σ) : Progress σ := ⟨values, [], none, false⟩

/-- An argument with its change of the values; it can be given only once. -/
def give (p : Progress σ) (name : String) (change : σ → Except UsageError σ) :
    Except UsageError (Progress σ) :=
  if name ∈ p.given then .error .repeated
  else do return { p with values := ← change p.values, given := name :: p.given }

/-- Looks at the value that waits. -/
def settle (p : Progress σ) : Except UsageError (Progress σ) :=
  match p.waiting with
  | none => .ok p
  | some w =>
    match w.text with
    | none => .error .valueInvalid
    | some text => give { p with waiting := none } w.name (w.put text)

/-- The option whose value is the next argument. -/
def awaited (p : Progress σ) : Option (Waiting σ) := p.waiting.filter (·.text.isNone)

end Progress

namespace Grammar

variable {σ : Type}

/-- The arguments that end the reading. -/
def endings (g : Grammar σ) : List (String × Char × UsageError) :=
  ("help", 'h', .helpShown) :: if g.hasVersion then [("version", 'V', .versionShown)] else []

/-- The value of an option, or the promise of one. -/
def option (p : Progress σ) (name : String) (put : Setter σ) (value : Option String) :
    Except UsageError (Progress σ) := do
  let p ← p.settle
  match value with
  | some text => p.give name (put text)
  | none => return { p with waiting := some ⟨name, none, put⟩ }

/-- Reads a name after two dashes. -/
def long (g : Grammar σ) (p : Progress σ) (name : String) (value : Option String) :
    Except UsageError (Progress σ) :=
  match g.endings.find? (·.1 = name), g.flags.lookup name, g.options.lookup name with
  | some ending, _, _ =>
    if value.isSome then .error .valueUnexpected else p.settle.bind fun _ => .error ending.2.2
  | none, some set, _ =>
    if value.isSome then .error .valueUnexpected
    else p.settle.bind fun p => p.give name (.ok ∘ set)
  | none, none, some put => option p name put value
  | none, none, none => .error .unknownArgument

/-- The error for a letter after one dash. -/
def short (g : Grammar σ) (p : Progress σ) (letter : Char) : UsageError :=
  match g.endings.find? (·.2.1 = letter) with
  | none => .unknownArgument
  | some ending =>
    match p.settle with
    | .error e => e
    | .ok _ => ending.2.2

/-- The error for an operand that the command does not take. -/
def surplus (g : Grammar σ) (afterSeparator : Bool) (text : String) : UsageError :=
  if g.commands.isEmpty ∨ (afterSeparator ∧ (g.command? text).isSome) then .unknownArgument
  else .unknownCommand

def readOperand (g : Grammar σ) (p : Progress σ) (afterSeparator : Bool) (text : String) :
    Except UsageError (Progress σ) :=
  match g.operand with
  | some put =>
    if p.hasOperand then .error (g.surplus afterSeparator text)
    else do
      return { ← p.settle with waiting := some ⟨"", some text, put⟩, hasOperand := true }
  | none => .error (g.surplus afterSeparator text)

/-- Reads an argument that names no command and is no separator. -/
def readWord (g : Grammar σ) (p : Progress σ) (text : String) : Except UsageError (Progress σ) :=
  match Word.ofText text with
  | .long name value => g.long p name value
  | .short letter => .error (g.short p letter)
  | .separator | .plain =>
    match p.awaited with
    | some w => .ok { p with waiting := some { w with text := some text } }
    | none => g.readOperand p false text

/-- The command that an argument names; an argument that is the value of an option names none. -/
def named? (g : Grammar σ) (p : Progress σ) (text : String) : Option (Subcommand σ) :=
  if p.awaited.isSome then none else g.command? text

/-- Reads operands to the end. -/
def readOperands (g : Grammar σ) (p : Progress σ) (arguments : List String) :
    Except UsageError (Progress σ) :=
  arguments.foldlM (fun p text => g.readOperand p true text) p

/-- Reads arguments to the end. -/
def readAll (g : Grammar σ) (p : Progress σ) : List String → Except UsageError σ
  | [] => return (← p.settle).values
  | text :: rest =>
    match g.named? p text with
    | some command => do
      let change ← command.parse rest
      return change (← p.settle).values
    | none =>
      if Word.ofText text = .separator then do
        return (← (← g.readOperands p rest).settle).values
      else do
        g.readAll (← g.readWord p text) rest

def parse (g : Grammar σ) (arguments : List String) : Except UsageError σ :=
  g.readAll (.start g.start) arguments

end Grammar

end ColorTheme.Command
