/-!
# Observable values

A value that tells its subscribers of every publication, in the order of their registration and in
the order of the publications, also of those that a subscriber makes while it is told.  Delivery is
a machine of small steps, so that every point inside a delivery is a state one can speak about.

A *round* delivers one value: it drops the entries whose subscription has ended, takes the others,
and calls them one after the other.  What they publish waits for a round of its own.  A callback is
described by the acts it performs for a value; it may look at the whole state first.
-/

namespace ColorTheme

namespace Observable

/-! ### Parts of the state -/

inductive Act (κ ν : Type) where
  | publish (value : ν)
  /-- Registers a callback and keeps its subscription under a name. -/
  | subscribe (name : String) (callback : κ)
  /-- Ends the subscription under a name. -/
  | drop (name : String)
  /-- Gives up the delivery. -/
  | panic

/-- A registered callback; serials are counted up in the order of registration. -/
structure Entry (κ : Type) where
  serial : Nat
  callback : κ
  deriving DecidableEq, Repr

inductive Event (κ ν : Type) where
  | published (value : ν)
  | subscribed (entry : Entry κ)
  | dropped (serial : Nat)
  /-- A round has begun, with the entries it is for. -/
  | round (value : ν) (entries : List (Entry κ))
  /-- A callback has been called with a value, while `current` was the value of the whole. -/
  | called (callback : κ) (value current : ν)
  | panicked

/-- How far a delivery is. -/
inductive Phase (κ ν : Type) where
  /-- Nothing is being delivered, and the last delivery came to its end. -/
  | idle
  /-- Nothing is being delivered, and the last delivery was given up. -/
  | unwound
  /-- Between two rounds. -/
  | draining
  /-- In a round for `value`: the acts of the running callback that are left, and the entries that
  are still to be called. -/
  | delivering (value : ν) (acts : List (Act κ ν)) (waiting : List (Entry κ))

end Observable

/-- A value with its subscribers. -/
structure Observable (κ ν : Type) where
  value : ν
  /-- How many values were published. -/
  version : Nat
  /-- The entries in the order of registration; one whose subscription has ended stays until the
  next round. -/
  entries : List (Observable.Entry κ)
  /-- Values that were published and have had no round yet. -/
  pending : List ν
  /-- The subscriptions that are held, under their names. -/
  held : List (String × Nat)
  /-- The serial of the next entry. -/
  nextSerial : Nat
  phase : Observable.Phase κ ν
  /-- What has happened, the last first. -/
  journal : List (Observable.Event κ ν)

/-- What a callback does when it is called with a value. -/
abbrev Observable.Behavior (κ ν : Type) :=
  κ → Observable κ ν → ν → List (Observable.Act κ ν)

namespace Observable

variable {κ ν : Type}

def new (value : ν) : Observable κ ν := ⟨value, 0, [], [], [], 0, .idle, []⟩

def isNotifying (s : Observable κ ν) : Bool :=
  match s.phase with
  | .idle | .unwound => false
  | .draining | .delivering .. => true

/-- The last delivery was given up. -/
def isUnwound (s : Observable κ ν) : Bool :=
  match s.phase with
  | .unwound => true
  | _ => false

def isHeld (s : Observable κ ν) (serial : Nat) : Bool := s.held.any (·.2 = serial)

def record (s : Observable κ ν) (e : Event κ ν) : Observable κ ν :=
  { s with journal := e :: s.journal }

/-! ### Acts -/

/-- Stores a value and lets it wait for its round; if no delivery is in progress, one begins. -/
def publish (s : Observable κ ν) (value : ν) : Observable κ ν :=
  { s with
    value := value
    version := s.version + 1
    pending := s.pending ++ [value]
    phase := if s.isNotifying then s.phase else .draining
    journal := .published value :: s.journal }

/-- Ends the subscription under a name, if there is one. -/
def drop (s : Observable κ ν) (name : String) : Observable κ ν :=
  match s.held.lookup name with
  | none => s
  | some serial =>
    { s with
      held := s.held.filter (·.1 ≠ name)
      journal := .dropped serial :: s.journal }

/-- Registers a callback, then keeps its subscription under a name; the one that was kept there
ends. -/
def subscribe (s : Observable κ ν) (name : String) (callback : κ) : Observable κ ν :=
  let entry : Entry κ := ⟨s.nextSerial, callback⟩
  let s := { s with
    entries := s.entries ++ [entry]
    nextSerial := s.nextSerial + 1
    journal := .subscribed entry :: s.journal }
  let s := s.drop name
  { s with held := s.held ++ [(name, entry.serial)] }

/-- Gives up the delivery: values that wait are discarded. -/
def panic (s : Observable κ ν) : Observable κ ν :=
  { s with pending := [], phase := .unwound, journal := .panicked :: s.journal }

def perform (s : Observable κ ν) : Act κ ν → Observable κ ν
  | .publish value => s.publish value
  | .subscribe name callback => s.subscribe name callback
  | .drop name => s.drop name
  | .panic => s.panic

/-! ### Steps -/

/-- Begins the round of a value, with the values that wait after it. -/
def beginRound (s : Observable κ ν) (value : ν) (rest : List ν) : Observable κ ν :=
  let entries := s.entries.filter fun e => s.isHeld e.serial
  { s with
    entries := entries
    pending := rest
    phase := .delivering value [] entries
    journal := .round value entries :: s.journal }

/-- One step of a delivery; without one nothing changes. -/
def step (behavior : Behavior κ ν) (s : Observable κ ν) : Observable κ ν :=
  match s.phase with
  | .idle | .unwound => s
  | .draining =>
    match s.pending with
    | [] => { s with phase := .idle }
    | value :: rest => s.beginRound value rest
  | .delivering value (act :: acts) waiting =>
    { s with phase := .delivering value acts waiting }.perform act
  | .delivering value [] (entry :: waiting) =>
    { s with
      phase := .delivering value (behavior entry.callback s value) waiting
      journal := .called entry.callback value s.value :: s.journal }
  | .delivering _ [] [] => { s with phase := .draining }

/-- Steps until nothing is being delivered, at most as many as the fuel. -/
def run (behavior : Behavior κ ν) : Nat → Observable κ ν → Observable κ ν
  | 0, s => s
  | fuel + 1, s => if s.isNotifying then run behavior fuel (s.step behavior) else s

/-! ### Looking back -/

/-- What has happened since the journal had the given length, the first first. -/
def since (s : Observable κ ν) (length : Nat) : List (Event κ ν) :=
  (s.journal.take (s.journal.length - length)).reverse

/-- The value, the version and the number of entries, with the ended ones that are still there. -/
def summary (showValue : ν → String) (s : Observable κ ν) : String :=
  "Observable \x7b value: " ++ showValue s.value ++ ", version: " ++ toString s.version ++
    ", subscriber_count: " ++ toString s.entries.length ++ " \x7d"

end Observable

end ColorTheme
