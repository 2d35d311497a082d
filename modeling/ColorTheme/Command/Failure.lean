import ColorTheme.Color.Parser
import ColorTheme.Json.Reader
import ColorTheme.Json.Printer
import ColorTheme.Screening
import ColorTheme.Color.Printer
import ColorTheme.Store.Error

/-!
# Failures

Why a command fails: the wording and the exit code of each cause, and the two forms in which a
failure is reported.
-/

namespace ColorTheme.Command

inductive Failure where
  | color (error : ColorError)
  | store (error : StoreError)
  /-- The input cannot be read. -/
  | input (cause : OsError)
  /-- The policy is not the JSON that it has to be. -/
  | policyText (fault : Json.Fault)
  /-- The file of the policy cannot be read. -/
  | policyFile (path : String) (cause : OsError)
  /-- There is no preference file. -/
  | storeUnknown
  /-- A color that was checked does not suit its role and mode. -/
  | unsuitable (color : Color) (role : Role) (mode : Mode) (rejection : Rejection)
  /-- The preference file does not hold the mode that was set. -/
  | notPersisted (mode : Mode) (path : String)
  deriving DecidableEq

/-- What is wrong with a text that should be JSON. -/
def faultMessage : Json.Fault → String
  | .malformed => "the text breaks the grammar"
  | .mismatch => "the text holds a value of the wrong kind"
  | .truncated => "the text ends too early"

namespace Failure

def message : Failure → String
  | .color error => error.message
  | .store error => "preference store error: " ++ error.message
  | .input cause => "I/O error: " ++ cause.message
  | .policyText fault => "JSON error: " ++ faultMessage fault
  | .policyFile path cause => "cannot read policy file " ++ path ++ ": " ++ cause.message
  | .storeUnknown =>
    "invalid argument: no preference store: pass --store or set TINT_THEME_STORE"
  | .unsuitable c role mode rejection =>
    c.text ++ " is not a suitable " ++ mode.name ++ " " ++ role.name ++ ": " ++
      rejection.message
  | .notPersisted mode path => "could not persist " ++ mode.name ++ " mode to " ++ path

/-- The exit code: 2 for what the arguments are to blame for, 3 for a color that does not suit, and
1 for all else. -/
def exitCode : Failure → Nat
  | .color _ | .storeUnknown => 2
  | .unsuitable .. => 3
  | _ => 1

end Failure

/-! ### Reports on failures -/

/-- The form in which a failure is reported. -/
inductive FailureFormat where
  | text
  | json
  deriving DecidableEq, Repr

namespace FailureFormat

/-- The environment or an argument asks for JSON. -/
def detect (setting : Option String) (arguments : List String) : FailureFormat :=
  if setting.any (fun s => lowered (trimmed s) = "json") ∨ "--json" ∈ arguments then .json
  else .text

/-- The line that reports a failure. -/
def report (format : FailureFormat) (f : Failure) : String :=
  match format with
  | .text => "error: " ++ f.message ++ "\n"
  | .json =>
    (Json.record [("error", .text f.message), ("exit_code", .whole f.exitCode),
      ("status", .text "error")]).compact ++ "\n"

end FailureFormat

end ColorTheme.Command
