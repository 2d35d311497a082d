import ColorTheme.Files.Tree

/-!
# Errors of a preference store
-/

namespace ColorTheme

inductive StoreError where
  /-- A step on the file at `path` failed. -/
  | io (path : String) (cause : OsError)
  /-- The file does not hold an object of texts. -/
  | corrupt (path : String)
  deriving DecidableEq, Repr

def StoreError.message : StoreError → String
  | .io path cause => "I/O error on " ++ path ++ ": " ++ cause.message
  | .corrupt path => "preference file " ++ path ++ " is not a JSON object of strings"

end ColorTheme
