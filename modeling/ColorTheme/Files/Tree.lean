import ColorTheme.Files.Path

/-!
# File trees

Directories and files below a current directory, and the steps that read and change them.  A step
follows a path piece by piece, as an operating system does, and fails with the cause that the system
would name.
-/

namespace ColorTheme

/-! ### Causes -/

/-- Why a step on files fails. -/
inductive OsError where
  | notFound
  | notDirectory
  | isDirectory
  | alreadyExists
  /-- A path ends in a piece that stays or goes up, where a name is asked for. -/
  | busy
  | nameTooLong
  /-- A path holds the character that ends a path. -/
  | nulInPath
  /-- The bytes of a file are not UTF-8. -/
  | notText
  /-- Any other cause, in the words of the system. -/
  | other (message : String)
  deriving DecidableEq, Repr

def OsError.message : OsError → String
  | .notFound => "No such file or directory (os error 2)"
  | .notDirectory => "Not a directory (os error 20)"
  | .isDirectory => "Is a directory (os error 21)"
  | .alreadyExists => "File exists (os error 17)"
  | .busy => "Device or resource busy (os error 16)"
  | .nameTooLong => "File name too long (os error 36)"
  | .nulInPath => "file name contained an unexpected NUL byte"
  | .notText => "stream did not contain valid UTF-8"
  | .other message => message

/-! ### Trees -/

/-- What a file holds: a text, or bytes that are not UTF-8. -/
inductive Content where
  | text (s : String)
  | binary (bytes : List UInt8)
  deriving DecidableEq, Repr

def Content.ofBytes (bytes : List UInt8) : Content :=
  match String.fromUTF8? ⟨bytes.toArray⟩ with
  | some s => .text s
  | none => .binary bytes

/-- What is found at a place. -/
inductive FileNode where
  | directory
  | file (content : Content)
  deriving DecidableEq, Repr

/-- A place below the current directory: the names on the way to it. -/
abbrev Place := List String

/-- What is found at the places that hold something; the current directory itself is always
there. -/
structure FileTree where
  nodes : List (Place × FileNode)
  deriving Repr

namespace FileTree

def empty : FileTree := ⟨[]⟩

instance : Inhabited FileTree := ⟨empty⟩

/-- What is found at a place. -/
def node? (t : FileTree) (place : Place) : Option FileNode :=
  if place = [] then some .directory else t.nodes.lookup place

def put (t : FileTree) (place : Place) (node : FileNode) : FileTree :=
  ⟨(place, node) :: t.nodes.filter (·.1 ≠ place)⟩

def take (t : FileTree) (place : Place) : FileTree := ⟨t.nodes.filter (·.1 ≠ place)⟩

/-- The tree with nothing at a place and below it. -/
def prune (t : FileTree) (place : Place) : FileTree :=
  ⟨t.nodes.filter fun n => !place.isPrefixOf n.1⟩

/-! ### Following a path -/

/-- The most bytes of a name. -/
def nameLimit : Nat := 255

/-- The most bytes of a path. -/
def pathLimit : Nat := 4095

/-- The text can be a path. -/
def checkPath (path : String) : Except OsError Unit :=
  if path.toList.contains '\x00' then .error .nulInPath
  else if pathLimit < path.utf8ByteSize then .error .nameTooLong
  else if path = "" then .error .notFound
  else .ok ()

/-- One piece on from a place, which has to be a directory. -/
def enter (t : FileTree) (place : Place) (piece : String) : Except OsError Place :=
  match t.node? place with
  | none => .error .notFound
  | some (.file _) => .error .notDirectory
  | some .directory =>
    if piece = "" ∨ piece = "." then .ok place
    else if piece = ".." then .ok place.dropLast
    else if nameLimit < piece.utf8ByteSize then .error .nameTooLong
    else .ok (place ++ [piece])

/-- The place that pieces lead to; only the last one may be missing. -/
def follow (t : FileTree) (pieces : List String) : Except OsError Place :=
  pieces.foldlM t.enter []

def locate (t : FileTree) (path : String) : Except OsError Place := do
  checkPath path
  t.follow (Files.pieces path)

/-- What a path names in a directory that is there. -/
structure Target where
  /-- The directory. -/
  holder : Place
  /-- The last piece of the path that is not empty. -/
  piece : String
  /-- Slashes follow that piece. -/
  hasSlash : Bool
  deriving Repr

/-- The last piece is a name: it neither stays nor goes up. -/
def Target.isName (target : Target) : Bool := target.piece ≠ "." ∧ target.piece ≠ ".."

/-- What a path names.  The directory has to be there, what it holds does not matter yet. -/
def target (t : FileTree) (path : String) : Except OsError Target := do
  let pieces := (Files.pieces path).reverse
  match pieces.dropWhile (· = "") with
  | [] => return ⟨[], ".", true⟩
  | last :: before =>
    let holder ← t.enter (← t.follow before.reverse) "."
    return ⟨holder, last, pieces.head? = some ""⟩

/-! ### Steps -/

def readText (t : FileTree) (path : String) : Except OsError String := do
  match t.node? (← t.locate path) with
  | none => .error .notFound
  | some .directory => .error .isDirectory
  | some (.file (.binary _)) => .error .notText
  | some (.file (.text s)) => .ok s

/-- Writes a file, in place of the one that was there.  Only a directory can be named by a path that
ends in a slash, in a dot or in two. -/
def writeText (t : FileTree) (path text : String) : Except OsError FileTree := do
  checkPath path
  let target ← t.target path
  if !target.isName || target.hasSlash then .error .isDirectory
  else
    let place ← t.enter target.holder target.piece
    if t.node? place = some .directory then .error .isDirectory
    else .ok (t.put place (.file (.text text)))

def isDirectory (t : FileTree) (pieces : List String) : Bool :=
  match t.follow pieces with
  | .ok place => t.node? place = some .directory
  | .error _ => false

/-- Makes one directory, in a directory that is there. -/
def createDir (t : FileTree) (pieces : List String) : Except OsError FileTree := do
  let place ← t.follow pieces
  match t.node? place with
  | some _ => .error .alreadyExists
  | none => .ok (t.put place .directory)

/-- Makes a directory and those on the way to it that are missing; `pieces` has the last piece
first.  A directory that is there is as good as one that is made. -/
def createDirsFrom (t : FileTree) : List String → FileTree × Except OsError Unit
  | [] => (t, .ok ())
  | last :: before =>
    let pieces := (last :: before).reverse
    match t.createDir pieces with
    | .ok t => (t, .ok ())
    | .error .notFound =>
      match createDirsFrom t before with
      | (t, .error e) => (t, .error e)
      | (t, .ok ()) =>
        match t.createDir pieces with
        | .ok t => (t, .ok ())
        | .error e => (t, if t.isDirectory pieces then .ok () else .error e)
    | .error e => (t, if t.isDirectory pieces then .ok () else .error e)

def createDirs (t : FileTree) (path : String) : FileTree × Except OsError Unit :=
  t.createDirsFrom (Files.reversedPieces path)

/-- Moves a file to a path, in place of a file that was there.  Of several faults the first one
counts: a path whose directory is missing, a path without a name, a source that is missing, a slash
after the name of a file, a directory in the way. -/
def rename (t : FileTree) (source path : String) : Except OsError FileTree := do
  checkPath source
  checkPath path
  let start ← t.target source
  let goal ← t.target path
  if !start.isName || !goal.isName then .error .busy
  else
    let origin ← t.enter start.holder start.piece
    match t.node? origin with
    | none => .error .notFound
    | some .directory => .error .isDirectory
    | some (.file content) =>
      let place ← t.enter goal.holder goal.piece
      if start.hasSlash || goal.hasSlash then .error .notDirectory
      else if t.node? place = some .directory then .error .isDirectory
      else if place = origin then .ok t
      else .ok ((t.take origin).put place (.file content))

end FileTree

end ColorTheme
