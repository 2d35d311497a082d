import ColorTheme.Color.Printer
import ColorTheme.Screening
import ColorTheme.Store.Error

/-!
# Notices

What the library reports while it works, as causes; their level, fields and wording are given in one
place, `Notice.record`.  A value that comes with notices is `Noted`.
-/

namespace ColorTheme

/-! ### Levels -/

inductive Level where
  | warn
  | info
  | debug
  | trace
  deriving DecidableEq, Repr

namespace Level

/-- The levels below which a notice is dropped come later. -/
def rank : Level → Nat
  | .warn => 0
  | .info => 1
  | .debug => 2
  | .trace => 3

def name : Level → String
  | .warn => "WARN"
  | .info => "INFO"
  | .debug => "DEBUG"
  | .trace => "TRACE"

/-- A threshold lets through what matters at least as much. -/
def admits (threshold level : Level) : Bool := level.rank ≤ threshold.rank

end Level

/-! ### Notices -/

inductive Notice where
  | paletteGenerated (base : Color)
  | paletteRequested (color : String)
  /-- The properties of a role in a mode are being written. -/
  | applying (role : Role) (mode : Mode)
  | paletteWritten (base : String)
  | textWritten (color : Color) (secondary : String)
  | colorRejected (role : Role) (mode : Mode) (supplied : String) (fallback : Color)
      (rejection : Rejection)
  | policyApplied (fallbacks : Nat)
  | policyColorReplaced (role : Role) (mode : Mode) (supplied used : String)
      (rejection : Rejection)
  | modeSet (mode : Mode)
  | modeNotStored (error : StoreError) (mode : Mode)
  | modeResumed (stored : Option String) (mode : Mode)
  | modeNotRead (error : StoreError)
  /-- A value is being delivered to this many subscribers. -/
  | delivering (subscribers : Nat)
  | preferenceRead (path key : String) (found : Bool)
  | preferenceWritten (path key value : String)
  | variableIgnored (name : String) (error : ColorError)
  | defaultReplaced (role : Role) (mode : Mode) (configured builtin : Color)
  deriving DecidableEq

/-- A notice in words: its level, the name of a span or a message, and its fields. -/
structure Record where
  level : Level
  span : Option String
  message : String
  fields : List (String × String)
  deriving DecidableEq, Repr

namespace Record

def event (level : Level) (message : String) (fields : List (String × String)) : Record :=
  ⟨level, none, message, fields⟩

def opening (level : Level) (name : String) (fields : List (String × String)) : Record :=
  ⟨level, some name, "", fields⟩

/-- The record as one line of a log. -/
def line (r : Record) : String :=
  " ".intercalate (r.level.name :: r.span.getD r.message :: r.fields.map fun f => f.1 ++ "=" ++ f.2)

end Record

namespace Notice

/-- A text that may be absent, in the form that tells which it is. -/
def optionalText : Option String → String
  | some s => "Some(" ++ Text.quoted s ++ ")"
  | none => "None"

/-- The level, the wording and the fields of a notice. -/
def record : Notice → Record
  | .paletteGenerated base => .event .trace "palette generated" [("base", base.text)]
  | .paletteRequested color => .event .debug "palette requested" [("color", color)]
  | .applying role mode => .opening .info "theme.apply" [("role", role.name), ("mode", mode.name)]
  | .paletteWritten base => .event .debug "palette written" [("base", base)]
  | .textWritten color secondary =>
    .event .debug "text color written" [("text", color.text), ("secondary", secondary)]
  | .colorRejected role mode supplied fallback rejection =>
    .event .info "supplied color rejected, falling back to default"
      [("role", role.name), ("mode", mode.name), ("supplied", supplied),
        ("fallback", fallback.text), ("reason", rejection.message)]
  | .policyApplied fallbacks =>
    .event .info "branding policy applied" [("fallbacks", toString fallbacks)]
  | .policyColorReplaced role mode supplied used rejection =>
    .event .warn "branding color replaced by default"
      [("role", role.name), ("mode", mode.name), ("supplied", supplied), ("used", used),
        ("reason", rejection.message)]
  | .modeSet mode => .event .debug "theme mode set" [("mode", mode.name)]
  | .modeNotStored error mode =>
    .event .warn "could not persist theme preference"
      [("error", error.message), ("mode", mode.name)]
  | .modeResumed stored mode =>
    .event .debug "theme mode resumed" [("stored", optionalText stored), ("mode", mode.name)]
  | .modeNotRead error =>
    .event .warn "could not read theme preference, using dark" [("error", error.message)]
  | .delivering subscribers =>
    .opening .debug "observable.notify" [("subscribers", toString subscribers)]
  | .preferenceRead path key found =>
    .event .debug "preference read" [("path", path), ("key", key), ("found", toString found)]
  | .preferenceWritten path key value =>
    .event .debug "preference written" [("path", path), ("key", key), ("value", value)]
  | .variableIgnored name error =>
    .event .warn "ignoring unparsable default color"
      [("var", name), ("error", error.message)]
  | .defaultReplaced role mode configured builtin =>
    .event .warn "configured default is unsuitable for its mode, using built-in"
      [("role", role.name), ("mode", mode.name), ("configured", configured.text),
        ("builtin", builtin.text)]

end Notice

/-! ### Values with notices -/

/-- A value and what was reported on the way to it, in order. -/
structure Noted (α : Type) where
  notices : List Notice
  value : α

namespace Noted

variable {α β : Type}

/-- A value with nothing to report. -/
def quiet (a : α) : Noted α := ⟨[], a⟩

def note (n : Notice) : Noted Unit := ⟨[n], ()⟩

def andThen (x : Noted α) (f : α → Noted β) : Noted β :=
  ⟨x.notices ++ (f x.value).notices, (f x.value).value⟩

instance : Monad Noted where
  pure := quiet
  bind := andThen

@[simp]
theorem value_pure (a : α) : (pure a : Noted α).value = a := rfl

@[simp]
theorem value_bind (x : Noted α) (f : α → Noted β) : (x >>= f).value = (f x.value).value := rfl

@[simp]
theorem notices_pure (a : α) : (pure a : Noted α).notices = [] := rfl

@[simp]
theorem notices_bind (x : Noted α) (f : α → Noted β) :
    (x >>= f).notices = x.notices ++ (f x.value).notices := rfl

@[simp]
theorem notices_note (n : Notice) : (note n).notices = [n] := rfl

theorem value_foldlM (f : β → α → Noted β) (l : List α) (b : β) :
    (l.foldlM f b).value = l.foldl (fun b a => (f b a).value) b := by
  induction l generalizing b with
  | nil => rfl
  | cons a rest ih => rw [List.foldlM_cons, value_bind, ih, List.foldl_cons]

/-- Steps that report the same from every value report one after the other. -/
theorem notices_foldlM {f : β → α → Noted β} {g : α → List Notice}
    (h : ∀ b a, (f b a).notices = g a) (l : List α) (b : β) :
    (l.foldlM f b).notices = l.flatMap g := by
  induction l generalizing b with
  | nil => rfl
  | cons a rest ih => rw [List.foldlM_cons, notices_bind, h, ih, List.flatMap_cons]

end Noted

end ColorTheme
