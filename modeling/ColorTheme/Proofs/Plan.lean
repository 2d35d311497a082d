import ColorTheme.Plan
import ColorTheme.Proofs.Files.Steps

/-!
# Plans among hindrances

`Plan.run` lets every step do what the files allow.  A system may also refuse a step for reasons of
its own, make only some directories or write only a part of a text, and it may stop between any two
steps.  `Plan.Runs` has all of these courses of a plan.

A plan is unhindered if each of its steps that change files succeeds.
-/

namespace ColorTheme

open Files

/-! ### Steps that may be refused -/

namespace FileTree

/-- What reading may answer.  Only a file that is missing is said to be missing. -/
inductive Reads (t : FileTree) (path : String) : Except OsError String → Prop where
  | read {r : Except OsError String} (h : t.readText path = r) : Reads t path r
  | refused {cause : OsError} (h : cause ≠ .notFound) : Reads t path (.error cause)

/-- What making directories may leave and answer.  It may stop after some of them. -/
inductive Creates (t : FileTree) (path : String) : FileTree → Except OsError Unit → Prop where
  | made {u : FileTree} {r : Except OsError Unit} (h : t.createDirs path = (u, r)) :
    Creates t path u r
  | refused (missed : Nat) (cause : OsError) :
    Creates t path (t.createDirsFrom ((reversedPieces path).drop missed)).1 (.error cause)

/-- What writing may leave and answer.  It may stop after some of the bytes. -/
inductive Writes (t : FileTree) (path text : String) : FileTree → Except OsError Unit → Prop where
  | written {u : FileTree} (h : t.writeText path text = .ok u) : Writes t path text u (.ok ())
  | stopped {place : Place} (h : t.opened path = .ok place) (bytes : Nat) (cause : OsError) :
    Writes t path text (t.put place (.file (.ofBytes (text.toUTF8.toList.take bytes)))) (.error cause)
  | refused (cause : OsError) : Writes t path text t (.error cause)

/-- What moving may leave and answer.  A file is moved or it is not. -/
inductive Moves (t : FileTree) (source path : String) : FileTree → Except OsError Unit → Prop where
  | moved {u : FileTree} (h : t.rename source path = .ok u) : Moves t source path u (.ok ())
  | refused (cause : OsError) : Moves t source path t (.error cause)

end FileTree

/-! ### Courses of a plan -/

namespace Plan

variable {α β : Type} {s s' : Surroundings}

/-- A course of a plan: its result, or none if it was cut short, and the surroundings after it. -/
inductive Runs : Plan α → Surroundings → Option α → Surroundings → Prop where
  | cut {p s} : Runs p s none s
  | done {a s} : Runs (.done a) s (some a) s
  | note {n next s r s'} (h : Runs next { s with notices := s.notices ++ [n] } r s') :
    Runs (.note n next) s r s'
  | print {text next s r s'} (h : Runs next { s with output := s.output ++ text } r s') :
    Runs (.print text next) s r s'
  | readInput {next s r s'} (h : Runs (next s.input) s r s') : Runs (.readInput next) s r s'
  | readText {path next s x r s'} (hread : s.files.Reads path x) (h : Runs (next x) s r s') :
    Runs (.readText path next) s r s'
  | createDirs {path next s files x r s'} (hcreate : s.files.Creates path files x)
    (h : Runs (next x) { s with files := files } r s') : Runs (.createDirs path next) s r s'
  | writeText {path text next s files x r s'} (hwrite : s.files.Writes path text files x)
    (h : Runs (next x) { s with files := files } r s') : Runs (.writeText path text next) s r s'
  | rename {source path next s files x r s'} (hmove : s.files.Moves source path files x)
    (h : Runs (next x) { s with files := files } r s') : Runs (.rename source path next) s r s'

/-- What the files allow is one of the courses. -/
theorem runs_run (p : Plan α) (s : Surroundings) : p.Runs s (some (p.run s).1) (p.run s).2 := by
  induction p generalizing s with
  | done a => exact .done
  | note n next ih => exact .note (ih _)
  | print text next ih => exact .print (ih _)
  | readInput next ih => exact .readInput (ih _ _)
  | readText path next ih => exact .readText (.read rfl) (ih _ _)
  | createDirs path next ih => exact .createDirs (.made rfl) (ih _ _)
  | writeText path text next ih =>
    cases hwrite : s.files.writeText path text with
    | ok files =>
      simp only [run, Surroundings.change, hwrite]
      exact .writeText (.written hwrite) (ih _ _)
    | error cause =>
      simp only [run, Surroundings.change, hwrite]
      exact .writeText (.refused cause) (ih _ _)
  | rename source path next ih =>
    cases hmove : s.files.rename source path with
    | ok files =>
      simp only [run, Surroundings.change, hmove]
      exact .rename (.moved hmove) (ih _ _)
    | error cause =>
      simp only [run, Surroundings.change, hmove]
      exact .rename (.refused cause) (ih _ _)

theorem Runs.of_done {a : α} {r : Option α} (h : (Plan.done a).Runs s r s') :
    (r = none ∨ r = some a) ∧ s' = s := by
  cases h with
  | cut => exact ⟨.inl rfl, rfl⟩
  | done => exact ⟨.inr rfl, rfl⟩

section inversion
variable {path : String} {next : Except OsError Unit → Plan α} {r : Option α}

theorem Runs.of_createDirs (h : (Plan.createDirs path next).Runs s r s') :
    (r = none ∧ s' = s) ∨ ∃ files x, s.files.Creates path files x ∧
      (next x).Runs { s with files := files } r s' := by
  cases h with
  | cut => exact .inl ⟨rfl, rfl⟩
  | createDirs hcreate h => exact .inr ⟨_, _, hcreate, h⟩

theorem Runs.of_writeText {text : String} (h : (Plan.writeText path text next).Runs s r s') :
    (r = none ∧ s' = s) ∨ ∃ files x, s.files.Writes path text files x ∧
      (next x).Runs { s with files := files } r s' := by
  cases h with
  | cut => exact .inl ⟨rfl, rfl⟩
  | writeText hwrite h => exact .inr ⟨_, _, hwrite, h⟩

theorem Runs.of_rename {source : String} (h : (Plan.rename source path next).Runs s r s') :
    (r = none ∧ s' = s) ∨ ∃ files x, s.files.Moves source path files x ∧
      (next x).Runs { s with files := files } r s' := by
  cases h with
  | cut => exact .inl ⟨rfl, rfl⟩
  | rename hmove h => exact .inr ⟨_, _, hmove, h⟩

end inversion

/-- A course of two plans is one of the first that is cut short, or one that ends and then one of
the second. -/
theorem Runs.of_bind {p : Plan α} {f : α → Plan β} {r : Option β} (h : (p >>= f).Runs s r s') :
    (r = none ∧ p.Runs s none s') ∨ ∃ a s₁, p.Runs s (some a) s₁ ∧ (f a).Runs s₁ r s' := by
  replace h : (p.andThen f).Runs s r s' := h
  -- Each request of `p` either is where the course ends or is answered before the rest.
  induction p generalizing s with
  | done a => exact .inr ⟨a, s, .done, h⟩
  | note n next ih =>
    cases h with
    | cut => exact .inl ⟨rfl, .cut⟩
    | note h =>
      refine (ih h).imp (fun h => ⟨h.1, .note h.2⟩) ?_
      rintro ⟨a, s₁, hp, hf⟩
      exact ⟨a, s₁, .note hp, hf⟩
  | print text next ih =>
    cases h with
    | cut => exact .inl ⟨rfl, .cut⟩
    | print h =>
      refine (ih h).imp (fun h => ⟨h.1, .print h.2⟩) ?_
      rintro ⟨a, s₁, hp, hf⟩
      exact ⟨a, s₁, .print hp, hf⟩
  | readInput next ih =>
    cases h with
    | cut => exact .inl ⟨rfl, .cut⟩
    | readInput h =>
      refine (ih _ h).imp (fun h => ⟨h.1, .readInput h.2⟩) ?_
      rintro ⟨a, s₁, hp, hf⟩
      exact ⟨a, s₁, .readInput hp, hf⟩
  | readText path next ih =>
    cases h with
    | cut => exact .inl ⟨rfl, .cut⟩
    | readText hread h =>
      refine (ih _ h).imp (fun h => ⟨h.1, .readText hread h.2⟩) ?_
      rintro ⟨a, s₁, hp, hf⟩
      exact ⟨a, s₁, .readText hread hp, hf⟩
  | createDirs path next ih =>
    cases h with
    | cut => exact .inl ⟨rfl, .cut⟩
    | createDirs hcreate h =>
      refine (ih _ h).imp (fun h => ⟨h.1, .createDirs hcreate h.2⟩) ?_
      rintro ⟨a, s₁, hp, hf⟩
      exact ⟨a, s₁, .createDirs hcreate hp, hf⟩
  | writeText path text next ih =>
    cases h with
    | cut => exact .inl ⟨rfl, .cut⟩
    | writeText hwrite h =>
      refine (ih _ h).imp (fun h => ⟨h.1, .writeText hwrite h.2⟩) ?_
      rintro ⟨a, s₁, hp, hf⟩
      exact ⟨a, s₁, .writeText hwrite hp, hf⟩
  | rename source path next ih =>
    cases h with
    | cut => exact .inl ⟨rfl, .cut⟩
    | rename hmove h =>
      refine (ih _ h).imp (fun h => ⟨h.1, .rename hmove h.2⟩) ?_
      rintro ⟨a, s₁, hp, hf⟩
      exact ⟨a, s₁, .rename hmove hp, hf⟩

theorem Runs.of_report {notices : List Notice} {r : Option Unit} (h : (report notices).Runs s r s') :
    s'.files = s.files := by
  unfold report at h
  induction notices generalizing s with
  | nil => cases h <;> rfl
  | cons n rest ih =>
    cases h with
    | cut => rfl
    | note h => exact (ih h).trans rfl

/-! ### Plans that are unhindered -/

/-- Every step that changes files succeeds. -/
def unhindered : Plan α → Surroundings → Bool
  | .done _, _ => true
  | .note n next, s => next.unhindered { s with notices := s.notices ++ [n] }
  | .print text next, s => next.unhindered { s with output := s.output ++ text }
  | .readInput next, s => (next s.input).unhindered s
  | .readText path next, s => (next (s.files.readText path)).unhindered s
  | .createDirs path next, s =>
    let (files, r) := s.files.createDirs path
    r.isOk && (next r).unhindered { s with files := files }
  | .writeText path text next, s =>
    let (s, r) := s.change (s.files.writeText path text)
    r.isOk && (next r).unhindered s
  | .rename source path next, s =>
    let (s, r) := s.change (s.files.rename source path)
    r.isOk && (next r).unhindered s

theorem unhindered_andThen (p : Plan α) (f : α → Plan β) (s : Surroundings) :
    (p.andThen f).unhindered s = (p.unhindered s && (f (p.run s).1).unhindered (p.run s).2) := by
  induction p generalizing s with
  | done a => rfl
  | note n next ih => exact ih _
  | print text next ih => exact ih _
  | readInput next ih => exact ih _ _
  | readText path next ih => exact ih _ _
  | createDirs path next ih =>
    simp only [andThen, unhindered, run, ih, Bool.and_assoc]
  | writeText path text next ih =>
    simp only [andThen, unhindered, run, ih, Bool.and_assoc]
  | rename source path next ih =>
    simp only [andThen, unhindered, run, ih, Bool.and_assoc]

@[simp]
theorem unhindered_bind (p : Plan α) (f : α → Plan β) (s : Surroundings) :
    (p >>= f).unhindered s = (p.unhindered s && (f (p.run s).1).unhindered (p.run s).2) :=
  unhindered_andThen p f s

section succeeding
variable {path : String} {next : Except OsError Unit → Plan α}

theorem run_createDirs_of_unhindered (h : (Plan.createDirs path next).unhindered s = true) :
    ∃ files, (next (.ok ())).unhindered { s with files := files } = true ∧
      (Plan.createDirs path next).run s = (next (.ok ())).run { s with files := files } := by
  rw [unhindered] at h
  rw [run]
  cases hmade : s.files.createDirs path with
  | mk files r =>
    rw [hmade] at h
    cases r with
    | ok _ => exact ⟨files, h, rfl⟩
    | error cause => cases h

theorem run_writeText_of_unhindered {text : String}
    (h : (Plan.writeText path text next).unhindered s = true) :
    ∃ files, (next (.ok ())).unhindered { s with files := files } = true ∧
      (Plan.writeText path text next).run s = (next (.ok ())).run { s with files := files } := by
  rw [unhindered] at h
  rw [run]
  cases hwritten : s.files.writeText path text with
  | ok files =>
    rw [hwritten] at h
    exact ⟨files, h, rfl⟩
  | error cause =>
    rw [hwritten] at h
    cases h

theorem run_rename_of_unhindered {source : String}
    (h : (Plan.rename source path next).unhindered s = true) :
    ∃ files, (next (.ok ())).unhindered { s with files := files } = true ∧
      (Plan.rename source path next).run s = (next (.ok ())).run { s with files := files } := by
  rw [unhindered] at h
  rw [run]
  cases hmoved : s.files.rename source path with
  | ok files =>
    rw [hmoved] at h
    exact ⟨files, h, rfl⟩
  | error cause =>
    rw [hmoved] at h
    cases h

end succeeding

end Plan

end ColorTheme
