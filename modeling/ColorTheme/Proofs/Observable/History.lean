import ColorTheme.Observable.Basic
import Mathlib.Data.List.TakeWhile

/-!
# The history of an observable value

What the journal tells, the first event first: the values that were published, the callbacks that
were registered, those whose subscription is still held, and the rounds with the calls in each.
-/

namespace ColorTheme.Observable

variable {κ ν : Type}

/-! ### Events by their kind -/

namespace Event

def published? : Event κ ν → Option ν
  | .published value => some value
  | _ => none

def subscribed? : Event κ ν → Option (Entry κ)
  | .subscribed entry => some entry
  | _ => none

def dropped? : Event κ ν → Option Nat
  | .dropped serial => some serial
  | _ => none

def called? : Event κ ν → Option (κ × ν)
  | .called callback value _ => some (callback, value)
  | _ => none

def isRound : Event κ ν → Bool
  | .round .. => true
  | _ => false

end Event

/-- What has happened, the first first. -/
def history (s : Observable κ ν) : List (Event κ ν) := s.journal.reverse

/-- The values that were published, in the order of the publications. -/
def publications (h : List (Event κ ν)) : List ν := h.filterMap Event.published?

/-- The entries that were registered, in the order of their registration. -/
def registrations (h : List (Event κ ν)) : List (Entry κ) := h.filterMap Event.subscribed?

/-- The serials of the subscriptions that ended. -/
def endings (h : List (Event κ ν)) : List Nat := h.filterMap Event.dropped?

def calls (h : List (Event κ ν)) : List (κ × ν) := h.filterMap Event.called?

/-- The entries whose subscription is held after what happened, in the order of registration. -/
def live (h : List (Event κ ν)) : List (Entry κ) :=
  (registrations h).filter fun e => decide (e.serial ∉ endings h)

section Append

variable (h h' : List (Event κ ν))

@[simp]
theorem publications_append : publications (h ++ h') = publications h ++ publications h' :=
  List.filterMap_append

@[simp]
theorem registrations_append : registrations (h ++ h') = registrations h ++ registrations h' :=
  List.filterMap_append

@[simp]
theorem endings_append : endings (h ++ h') = endings h ++ endings h' := List.filterMap_append

@[simp]
theorem calls_append : calls (h ++ h') = calls h ++ calls h' := List.filterMap_append

@[simp]
theorem registrations_subscribed (e : Entry κ) :
    registrations (.subscribed e :: h) = e :: registrations h := rfl

@[simp]
theorem endings_subscribed (e : Entry κ) : endings (.subscribed e :: h) = endings h := rfl

theorem mem_registrations_iff {h : List (Event κ ν)} {entry : Entry κ} :
    entry ∈ registrations h ↔ .subscribed entry ∈ h := by
  rw [registrations, List.mem_filterMap]
  constructor
  · rintro ⟨e, he, hentry⟩
    cases e with
    | subscribed e' => exact Option.some.inj hentry ▸ he
    | _ => cases hentry
  · exact fun he => ⟨_, he, rfl⟩

theorem mem_endings_iff {h : List (Event κ ν)} {serial : Nat} :
    serial ∈ endings h ↔ .dropped serial ∈ h := by
  rw [endings, List.mem_filterMap]
  constructor
  · rintro ⟨e, he, hserial⟩
    cases e with
    | dropped n => exact Option.some.inj hserial ▸ he
    | _ => cases hserial
  · exact fun he => ⟨_, he, rfl⟩

theorem live_append (hr : registrations h' = []) (he : endings h' = []) :
    live (h ++ h') = live h := by
  simp [live, hr, he]

end Append

theorem since_eq {s t : Observable κ ν} {evs : List (Event κ ν)}
    (h : t.history = s.history ++ evs) : t.since s.journal.length = evs := by
  have hj : t.journal = evs.reverse ++ s.journal := by
    have := congrArg List.reverse h
    simpa [history] using this
  simp [since, hj]

/-! ### Rounds -/

/-- A round, as the history tells it. -/
structure Round (κ ν : Type) where
  /-- All that had happened when it began. -/
  past : List (Event κ ν)
  value : ν
  entries : List (Entry κ)
  /-- What happened from its beginning to that of the next one. -/
  inside : List (Event κ ν)

/-- The rounds that began during some events, with what had happened before these. -/
def rounds (past : List (Event κ ν)) : List (Event κ ν) → List (Round κ ν)
  | [] => []
  | e :: rest =>
    match e with
    | .round value entries =>
      ⟨past, value, entries, rest.takeWhile (!·.isRound)⟩ :: rounds (past ++ [e]) rest
    | _ => rounds (past ++ [e]) rest

namespace Round

def calls (r : Round κ ν) : List (κ × ν) := Observable.calls r.inside

/-- The call that a round owes to an entry. -/
def callOf (r : Round κ ν) (e : Entry κ) : κ × ν := (e.callback, r.value)

/-- A round is for those whose subscription was held when it began, in the order of their
registration. -/
structure IsSound (r : Round κ ν) : Prop where
  entries_eq : r.entries = live r.past
  ordered : r.entries.Pairwise fun a b => a.serial < b.serial

/-- Every entry was called with the value, each once and in order. -/
structure IsComplete (r : Round κ ν) : Prop extends IsSound r where
  calls_eq : r.calls = r.entries.map r.callOf

/-- The round ended with the call of one entry, and those behind it were not called. -/
structure EndsAt (r : Round κ ν) (last : Entry κ) : Prop extends IsSound r where
  calls_eq : ∃ done missed, r.entries = done ++ last :: missed ∧
    r.calls = (done ++ [last]).map r.callOf

/-- The round with something more that happened in it. -/
def extend (r : Round κ ν) (more : List (Event κ ν)) : Round κ ν :=
  { r with inside := r.inside ++ more }

theorem calls_extend (r : Round κ ν) (more : List (Event κ ν)) :
    (r.extend more).calls = r.calls ++ Observable.calls more := calls_append _ _

end Round

theorem rounds_eq_nil_iff (past evs : List (Event κ ν)) :
    rounds past evs = [] ↔ ∀ e ∈ evs, e.isRound = false := by
  induction evs generalizing past with
  | nil => simp [rounds]
  | cons e rest ih => cases e <;> simp [rounds, Event.isRound, ih]

theorem takeWhile_eq_self {evs : List (Event κ ν)} (h : ∀ e ∈ evs, e.isRound = false) :
    evs.takeWhile (!·.isRound) = evs :=
  List.takeWhile_eq_self_iff.2 fun e he => by simpa using h e he

/-- A round keeps what happened up to the first event that is a round itself. -/
theorem takeWhile_append_of_isRound {evs : List (Event κ ν)} (more : List (Event κ ν))
    (h : ¬ ∀ e ∈ evs, e.isRound = false) :
    (evs ++ more).takeWhile (!·.isRound) = evs.takeWhile (!·.isRound) := by
  rw [List.takeWhile_append, if_neg]
  intro hlen
  have hself := (List.takeWhile_prefix (!Event.isRound ·)).eq_of_length hlen
  exact h fun e he => by simpa using List.takeWhile_eq_self_iff.1 hself e he

theorem rounds_concat_round (past evs : List (Event κ ν)) (value : ν) (entries : List (Entry κ)) :
    rounds past (evs ++ [.round value entries]) =
      rounds past evs ++ [⟨past ++ evs, value, entries, []⟩] := by
  induction evs generalizing past with
  | nil => simp [rounds]
  | cons e rest ih =>
    cases e with
    | round v es =>
      -- A round that is there already reaches up to the next one, which may be the new one.
      have hstop : (rest ++ [Event.round value entries]).takeWhile (!·.isRound) =
          rest.takeWhile (!·.isRound) := by
        by_cases hrest : ∀ e ∈ rest, e.isRound = false
        · rw [List.takeWhile_append_of_pos (fun e he => by simpa using hrest e he),
            takeWhile_eq_self hrest]
          simp [Event.isRound]
        · exact takeWhile_append_of_isRound _ hrest
      simp [rounds, ih, hstop]
    | _ => simp [rounds, ih]

/-- What happens before the next round begins belongs to the last one. -/
theorem rounds_append {past evs more : List (Event κ ν)} {earlier : List (Round κ ν)}
    {r : Round κ ν} (hmore : ∀ e ∈ more, e.isRound = false)
    (h : rounds past evs = earlier ++ [r]) :
    rounds past (evs ++ more) = earlier ++ [r.extend more] := by
  induction evs generalizing past earlier with
  | nil => simp [rounds] at h
  | cons e rest ih =>
    cases e with
    | round v es =>
      simp only [rounds, List.cons_append] at h ⊢
      -- The round in front is the last one if no other begins behind it.
      cases earlier with
      | nil =>
        simp only [List.nil_append, List.cons.injEq] at h
        obtain ⟨rfl, hnil⟩ := h
        have hrest := (rounds_eq_nil_iff _ _).1 hnil
        have hall : ∀ e ∈ rest ++ more, e.isRound = false :=
          fun e he => (List.mem_append.1 he).elim (hrest e) (hmore e)
        rw [(rounds_eq_nil_iff _ _).2 hall, takeWhile_eq_self hall, takeWhile_eq_self hrest]
        rfl
      | cons r' earlier =>
        simp only [List.cons_append, List.cons.injEq] at h
        obtain ⟨rfl, htail⟩ := h
        rw [ih htail, takeWhile_append_of_isRound]
        · rfl
        · intro hnone
          rw [(rounds_eq_nil_iff _ _).2 hnone] at htail
          simp at htail
    | _ => exact ih (by simpa [rounds] using h)

end ColorTheme.Observable
