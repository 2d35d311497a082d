import ColorTheme.Text.Split

/-!
# Paths

A path is a text of pieces between slashes.  An empty piece and a dot stay where they are, and two
dots go up.  Of the text itself three things are asked: the last name, the path of the directory
that holds it, and the path with another extension.
-/

namespace ColorTheme.Files

def pieces (path : String) : List String :=
  (Text.split (· = '/') path.toList).map String.ofList

def ofPieces (pieces : List String) : String := "/".intercalate pieces

/-- Pieces, the last one first, without those at the end that stay where they are.  A dot that
starts the path is kept. -/
def dropStaying : List String → List String
  | [] => []
  | [piece] => if piece = "" then [] else [piece]
  | piece :: before => if piece = "" ∨ piece = "." then dropStaying before else piece :: before

/-- The pieces that matter, the last one first. -/
def reversedPieces (path : String) : List String := dropStaying (pieces path).reverse

/-- The name of what the path leads to, if the path ends in a name. -/
def name? (path : String) : Option String :=
  match reversedPieces path with
  | [] => none
  | piece :: _ => if piece = "." ∨ piece = ".." then none else some piece

/-- The path of the directory that holds the last piece; empty for the current directory. -/
def parent (path : String) : String := ofPieces (dropStaying (reversedPieces path).tail).reverse

/-- A name in two parts: what stands before its last dot, and the extension after it.  A name without
a dot, or with nothing before its only dot, is whole. -/
def splitName (name : String) : String × Option String :=
  match (Text.split (· = '.') name.toList).reverse with
  | extension :: before :: rest =>
    if rest.isEmpty ∧ before.isEmpty then (name, none)
    else (String.ofList (['.'].intercalate (before :: rest).reverse), some (String.ofList extension))
  | _ => (name, none)

/-- The extension of the name that the path ends in; empty if there is none. -/
def extension (path : String) : String :=
  ((name? path).bind fun name => (splitName name).2).getD ""

/-- The path with an extension in place of the one of its name; a path that does not end in a name
stays. -/
def putExtension (extension path : String) : String :=
  match name? path with
  | none => path
  | some name =>
    ofPieces (((splitName name).1 ++ "." ++ extension) :: (reversedPieces path).tail).reverse

/-- The path with another extension for its name.  The old one is taken from the end of the path
first; if that leaves no name, as it does for `..x`, nothing is put in its place. -/
def withExtension (extension path : String) : String :=
  let kept := path.toList.length - (Files.extension path).toList.length
  putExtension extension (String.ofList (path.toList.take kept))

end ColorTheme.Files
