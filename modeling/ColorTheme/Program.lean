import ColorTheme.Command.Run

/-!
# The program

A run of the whole program: the arguments are read, then the environment, then the command is
carried out.
-/

namespace ColorTheme

inductive Ending where
  | finished
  /-- The arguments ask for no command. -/
  | misused (error : Command.UsageError)
  | failed (failure : Command.Failure)
  deriving DecidableEq

def Ending.exitCode : Ending → Nat
  | .finished => 0
  | .misused error => error.exitCode
  | .failed failure => failure.exitCode

namespace Program

/-- The variable that asks for failures in JSON. -/
def outputVariable : String := "TINT_OUTPUT"

def variableNames : List String :=
  outputVariable :: Settings.storeVariable ::
    Settings.slots.map fun (role, mode) => Settings.colorVariable role mode

def versionText : String := "tint 0.1.0\n"

def usageText : String :=
  "Usage: tint palette COLOR [--json]\n" ++
  "       tint check COLOR [--role ROLE] [--mode MODE] [--json]\n" ++
  "       tint apply [--policy FILE] [--mode dark|light|both] [--format css|json]\n" ++
  "                  [--selector SELECTOR]\n" ++
  "       tint mode [show | set MODE | toggle] [--store FILE] [--json]\n"

/-- What is printed for arguments that ask for no command: on the output for help and for the
version, and with the errors for all else. -/
def usageReport : Command.UsageError → String × String
  | .helpShown => (usageText, "")
  | .versionShown => (versionText, "")
  | e => ("", "error: " ++ e.message ++ "\n" ++ usageText)

def closingReport (format : Command.FailureFormat) : Ending → String × String
  | .finished => ("", "")
  | .misused e => usageReport e
  | .failed f => ("", format.report f)

def failureFormat (lookup : String → Option String) (arguments : List String) :
    Command.FailureFormat :=
  .detect (lookup outputVariable) arguments

/-- Carries out the command that arguments ask for. -/
def run (lookup : String → Option String) (arguments : List String) : Plan Ending :=
  match Command.ofArguments arguments with
  | .error error => return .misused error
  | .ok command => do
    let settings ← Plan.ofNoted (Settings.ofLookup lookup)
    match ← command.run settings with
    | .ok () => return .finished
    | .error failure => return .failed failure

end Program

end ColorTheme
