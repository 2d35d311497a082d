import ColorTheme.Notice

/-!
# Plans

What the library does to its surroundings, as data: a plan reads and writes files, reads the input,
prints and reports, and goes on according to the answers.  `Plan.run` carries a plan out on
surroundings that are a value themselves.
-/

namespace ColorTheme

/-- A plan with a result. -/
inductive Plan (α : Type) where
  | done (a : α)
  | note (n : Notice) (next : Plan α)
  | print (text : String) (next : Plan α)
  | readInput (next : Except OsError String → Plan α)
  | readText (path : String) (next : Except OsError String → Plan α)
  | createDirs (path : String) (next : Except OsError Unit → Plan α)
  | writeText (path text : String) (next : Except OsError Unit → Plan α)
  | rename (source path : String) (next : Except OsError Unit → Plan α)

namespace Plan

variable {α β : Type}

def andThen : Plan α → (α → Plan β) → Plan β
  | .done a, f => f a
  | .note n next, f => .note n (next.andThen f)
  | .print text next, f => .print text (next.andThen f)
  | .readInput next, f => .readInput fun r => (next r).andThen f
  | .readText path next, f => .readText path fun r => (next r).andThen f
  | .createDirs path next, f => .createDirs path fun r => (next r).andThen f
  | .writeText path text next, f => .writeText path text fun r => (next r).andThen f
  | .rename source path next, f => .rename source path fun r => (next r).andThen f

instance : Monad Plan where
  pure := .done
  bind := andThen

/-- The reports of a value, and the value. -/
def ofNoted (x : Noted α) : Plan α := x.notices.foldr .note (.done x.value)

def report (notices : List Notice) : Plan Unit := notices.foldr .note (.done ())

def say (text : String) : Plan Unit := .print text (.done ())

end Plan

/-! ### Surroundings -/

/-- What a plan can see and change. -/
structure Surroundings where
  files : FileTree
  /-- The whole input, or why it cannot be read. -/
  input : Except OsError String
  output : String
  notices : List Notice

namespace Surroundings

def ofFiles (files : FileTree) : Surroundings := ⟨files, .ok "", "", []⟩

/-- A step that changes the files or fails without a trace. -/
def change (s : Surroundings) (r : Except OsError FileTree) : Surroundings × Except OsError Unit :=
  match r with
  | .ok files => ({ s with files := files }, .ok ())
  | .error e => (s, .error e)

end Surroundings

namespace Plan

variable {α β : Type}

/-- The result of a plan and the surroundings after it. -/
def run : Plan α → Surroundings → α × Surroundings
  | .done a, s => (a, s)
  | .note n next, s => next.run { s with notices := s.notices ++ [n] }
  | .print text next, s => next.run { s with output := s.output ++ text }
  | .readInput next, s => (next s.input).run s
  | .readText path next, s => (next (s.files.readText path)).run s
  | .createDirs path next, s =>
    let (files, r) := s.files.createDirs path
    (next r).run { s with files := files }
  | .writeText path text next, s =>
    let (s, r) := s.change (s.files.writeText path text)
    (next r).run s
  | .rename source path next, s =>
    let (s, r) := s.change (s.files.rename source path)
    (next r).run s

theorem run_andThen (p : Plan α) (f : α → Plan β) (s : Surroundings) :
    (p.andThen f).run s = (f (p.run s).1).run (p.run s).2 := by
  induction p generalizing s with
  | done a => rfl
  | note n next ih => exact ih _
  | print text next ih => exact ih _
  | readInput next ih => exact ih _ _
  | readText path next ih => exact ih _ _
  | createDirs path next ih => exact ih _ _
  | writeText path text next ih => exact ih _ _
  | rename source path next ih => exact ih _ _

@[simp]
theorem run_pure (a : α) (s : Surroundings) : (pure a : Plan α).run s = (a, s) := rfl

@[simp]
theorem run_bind (p : Plan α) (f : α → Plan β) (s : Surroundings) :
    (p >>= f).run s = (f (p.run s).1).run (p.run s).2 := run_andThen p f s

theorem run_notes (notices : List Notice) (p : Plan α) (s : Surroundings) :
    (notices.foldr .note p).run s = p.run { s with notices := s.notices ++ notices } := by
  induction notices generalizing s with
  | nil => simp
  | cons n rest ih => simp [run, ih]

@[simp]
theorem run_report (notices : List Notice) (s : Surroundings) :
    (report notices).run s = ((), { s with notices := s.notices ++ notices }) :=
  run_notes notices (.done ()) s

@[simp]
theorem run_ofNoted (x : Noted α) (s : Surroundings) :
    (ofNoted x).run s = (x.value, { s with notices := s.notices ++ x.notices }) :=
  run_notes x.notices (.done x.value) s

@[simp]
theorem run_say (text : String) (s : Surroundings) :
    (say text).run s = ((), { s with output := s.output ++ text }) := rfl

end Plan

end ColorTheme
