import ColorTheme.Program

/-!
# The executable

Carries out the plan of a run on the files, the input and the output of the process.
-/

namespace ColorTheme.Executable

def cause : IO.Error → OsError
  | .noFileOrDirectory _ _ _ => .notFound
  | .alreadyExists _ _ _ => .alreadyExists
  | .inappropriateType _ 21 _ => .isDirectory
  | .inappropriateType _ _ _ => .notDirectory
  | .resourceBusy 16 _ => .busy
  | .invalidArgument _ 36 _ => .nameTooLong
  | e => .other (toString e)

def attempt {α : Type} (step : IO α) : IO (Except OsError α) := do
  try
    return .ok (← step)
  catch e =>
    return .error (cause e)

def textOf (bytes : ByteArray) : Except OsError String :=
  match String.fromUTF8? bytes with
  | some s => .ok s
  | none => .error .notText

partial def readBytes (input : IO.FS.Stream) (done : ByteArray) : IO ByteArray := do
  let bytes ← input.read 65536
  if bytes.isEmpty then return done else readBytes input (done ++ bytes)

def carryOut {α : Type} : Plan α → IO α
  | .done a => return a
  | .note n next => do
    if Level.warn.admits n.record.level then IO.eprintln n.record.line
    carryOut next
  | .print text next => do
    IO.print text
    carryOut next
  | .readInput next => do
    let bytes ← attempt do readBytes (← IO.getStdin) .empty
    carryOut (next (bytes.bind textOf))
  | .readText path next => do
    let bytes ← attempt (IO.FS.readBinFile path)
    carryOut (next (bytes.bind textOf))
  | .createDirs path next => do carryOut (next (← attempt (IO.FS.createDirAll path)))
  | .writeText path text next => do carryOut (next (← attempt (IO.FS.writeFile path text)))
  | .rename source path next => do carryOut (next (← attempt (IO.FS.rename source path)))

/-- The variables of the environment that a run looks at. -/
def environment : IO (List (String × String)) :=
  Program.variableNames.filterMapM fun name => do
    return (← IO.getEnv name).map fun value => (name, value)

/-- Runs the program, and gives its exit code. -/
def run (arguments : List String) : IO UInt32 := do
  let settings ← environment
  let lookup := fun name => List.lookup name settings
  let ending ← carryOut (Program.run lookup arguments)
  let (output, errors) := Program.closingReport (Program.failureFormat lookup arguments) ending
  IO.print output
  IO.eprint errors
  return UInt32.ofNat ending.exitCode

end ColorTheme.Executable

def main (arguments : List String) : IO UInt32 := ColorTheme.Executable.run arguments
