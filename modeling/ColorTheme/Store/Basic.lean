import ColorTheme.Plan
import ColorTheme.Store.TextMap

/-!
# Preference stores

Texts under keys, kept in memory or in a file.  A file is read anew for each access.  It is written
as a whole, to a file beside it that then takes its place, so that it never holds half of a change.
-/

namespace ColorTheme

def themeKey : String := "theme"

/-- A place for preferences. -/
inductive Store where
  | memory (items : SortedMap String)
  | file (path : String)
  /-- A store that refuses every access. -/
  | refusing (error : StoreError)

namespace Store

/-! ### Files -/

/-- What the text of a preference file says; a blank one says nothing. -/
def itemsOf (path text : String) : Except StoreError (SortedMap String) :=
  if isBlankText text then .ok .empty
  else match TextMap.ofJson text with
    | .ok items => .ok items
    | .error _ => .error (.corrupt path)

/-- Reads the preference file; a missing one holds nothing. -/
def load (path : String) : Plan (Except StoreError (SortedMap String)) :=
  .readText path fun
    | .ok text => .done (itemsOf path text)
    | .error .notFound => .done (.ok .empty)
    | .error cause => .done (.error (.io path cause))

/-- The file that is written first. -/
def sibling (path : String) : String := Files.withExtension "json.tmp" path

/-- Makes the directory of a path, unless that is the current one. -/
def makeParent (path : String) : Plan (Except StoreError Unit) :=
  let parent := Files.parent path
  if parent = "" then .done (.ok ())
  else .createDirs parent fun
    | .ok () => .done (.ok ())
    | .error cause => .done (.error (.io parent cause))

/-- Writes a text beside the preference file and moves it there. -/
def replace (path text : String) : Plan (Except StoreError Unit) :=
  .writeText (sibling path) text fun
    | .error cause => .done (.error (.io (sibling path) cause))
    | .ok () => .rename (sibling path) path fun
      | .error cause => .done (.error (.io path cause))
      | .ok () => .done (.ok ())

def save (path : String) (items : SortedMap String) : Plan (Except StoreError Unit) := do
  match ← makeParent path with
  | .error e => return .error e
  | .ok () => replace path (TextMap.toJson items).pretty

/-! ### Access -/

def get (store : Store) (key : String) : Plan (Except StoreError (Option String)) :=
  match store with
  | .memory items => return .ok (items.get? key)
  | .refusing error => return .error error
  | .file path => do
    match ← load path with
    | .error e => return .error e
    | .ok items =>
      Plan.report [.preferenceRead path key (items.get? key).isSome]
      return .ok (items.get? key)

def set (store : Store) (key value : String) : Plan (Store × Except StoreError Unit) :=
  match store with
  | .memory items => return (.memory (items.insert key value), .ok ())
  | .refusing error => return (.refusing error, .error error)
  | .file path => do
    match ← load path with
    | .error e => return (.file path, .error e)
    | .ok items =>
      match ← save path (items.insert key value) with
      | .error e => return (.file path, .error e)
      | .ok () =>
        Plan.report [.preferenceWritten path key value]
        return (.file path, .ok ())

end Store

end ColorTheme
