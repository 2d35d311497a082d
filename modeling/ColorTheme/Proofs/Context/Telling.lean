import ColorTheme.Proofs.Context.Announcing

/-!
# Telling one after the other

Listeners publish nothing, so a delivery of a mode is a single round: the entries whose subscription
is held are called one after the other, and each call comes to its end before the next one begins,
or gives up the round.
-/

namespace ColorTheme

open Observable (Entry Event Phase)

namespace ModeCell

/-! ### Calls -/

/-- What was said to listeners from one state of a cell to another. -/
def Said (cell cell' : ModeCell) (said : List (Listener × Mode)) : Prop :=
  ∃ evs, cell'.history = cell.history ++ evs ∧ Observable.calls evs = said

theorem Said.refl (cell : ModeCell) : Said cell cell [] := ⟨[], (List.append_nil _).symm, rfl⟩

theorem Said.trans {before between after : ModeCell} {said more : List (Listener × Mode)}
    (h : Said before between said) (h' : Said between after more) :
    Said before after (said ++ more) := by
  obtain ⟨evs, hevs, rfl⟩ := h
  obtain ⟨evs', hevs', rfl⟩ := h'
  refine ⟨evs ++ evs', ?_, Observable.calls_append _ _⟩
  rw [hevs', hevs, List.append_assoc]

theorem said_of_journal {cell cell' : ModeCell} {e : Event Listener Mode}
    (h : cell'.journal = e :: cell.journal) : Said cell cell' (Observable.calls [e]) :=
  ⟨[e], Observable.history_of_journal h, rfl⟩

theorem said_record (cell : ModeCell) (e : Event Listener Mode) :
    Said cell (cell.record e) (Observable.calls [e]) := said_of_journal (e := e) rfl

theorem said_drop (cell : ModeCell) (name : String) : Said cell (cell.drop name) [] :=
  ⟨_, Observable.history_drop cell name, Observable.calls_map_dropped _⟩

theorem said_subscribe (cell : ModeCell) (name : String) (listener : Listener) :
    Said cell (cell.subscribe name listener) [] :=
  ⟨_, Observable.history_subscribe cell name listener, Observable.calls_map_dropped _⟩

/-! ### One round -/

/-- Calls entries with a mode, one after the other, up to the first that gives up. -/
def tell (mode : Mode) : List (Entry Listener) → ModeCell → ModeCell × Outcome
  | [], cell => (cell, .returned)
  | e :: rest, cell =>
    match react (cell.record (.called e.callback mode cell.value)) (e.callback.react mode) with
    | (cell, .returned) => tell mode rest cell
    | (cell, .panicked) => (cell, .panicked)

/-- The steps that tell entries of a mode: one for each and one for each of its reactions. -/
def callSteps (mode : Mode) (entries : List (Entry Listener)) : Nat :=
  entries.foldr (fun e n => 1 + (e.callback.react mode).length + n) 0

/-- A delivery goes on in a phase, or it is given up. -/
def settle (phase : Phase Listener Mode) : ModeCell × Outcome → ModeCell
  | (cell, .returned) => { cell with phase := phase }
  | (cell, .panicked) => cell.panic

theorem run_of_rest {cell : ModeCell} (h : cell.isNotifying = false) (fuel : Nat) :
    Observable.run Listener.behavior fuel cell = cell := by
  cases fuel with
  | zero => rfl
  | succ fuel => rw [Observable.run, h, if_neg Bool.false_ne_true]

/-- A call that is on comes to its end, or gives up the delivery. -/
theorem run_reactions (mode : Mode) (reactions : List Reaction) (waiting : List (Entry Listener))
    (cell : ModeCell) (fuel : Nat) :
    Observable.run Listener.behavior (reactions.length + fuel)
        { cell with phase := .delivering mode (reactions.map Reaction.act) waiting } =
      Observable.run Listener.behavior fuel
        (settle (.delivering mode [] waiting) (react cell reactions)) := by
  induction reactions generalizing cell with
  | nil => rw [List.length_nil, Nat.zero_add]; rfl
  | cons reaction rest ih =>
    rw [List.length_cons, Nat.add_right_comm, Observable.run]
    cases reaction with
    | drop name =>
      have hstep : Observable.step Listener.behavior { cell with
          phase := .delivering mode ((Reaction.drop name :: rest).map Reaction.act) waiting } =
          { cell.drop name with phase := .delivering mode (rest.map Reaction.act) waiting } := by
        rw [Observable.drop_eq]
        exact Observable.drop_eq _ name
      rw [hstep]
      exact ih (cell.drop name)
    | panic =>
      have hrest : Observable.isNotifying cell.panic = false := rfl
      exact (run_of_rest hrest _).trans (run_of_rest hrest _).symm

/-- **The rest of a round** calls those who wait, one after the other. -/
theorem run_waiting (mode : Mode) (waiting : List (Entry Listener)) (cell : ModeCell)
    (fuel : Nat) :
    Observable.run Listener.behavior (callSteps mode waiting + fuel)
        { cell with phase := .delivering mode [] waiting } =
      Observable.run Listener.behavior fuel
        (settle (.delivering mode [] []) (tell mode waiting cell)) := by
  induction waiting generalizing cell with
  | nil => rw [callSteps, List.foldr_nil, Nat.zero_add]; rfl
  | cons e rest ih =>
    have hsteps : callSteps mode (e :: rest) + fuel =
        (e.callback.react mode).length + (callSteps mode rest + fuel) + 1 := by
      rw [callSteps, List.foldr_cons, ← callSteps]
      omega
    rw [hsteps, Observable.run]
    refine (run_reactions mode (e.callback.react mode) rest
      (cell.record (.called e.callback mode cell.value)) _).trans ?_
    rw [tell]
    split
    · next told hreact =>
      rw [hreact]
      exact ih told
    · next told hreact =>
      have hrest : Observable.isNotifying told.panic = false := rfl
      rw [hreact]
      exact (run_of_rest hrest _).trans (run_of_rest hrest _).symm

theorem callSteps_filter_le (mode : Mode) (p : Entry Listener → Bool)
    (entries : List (Entry Listener)) :
    callSteps mode (entries.filter p) ≤ callSteps mode entries := by
  induction entries with
  | nil => exact Nat.le_refl _
  | cons e rest ih =>
    rw [List.filter_cons]
    unfold callSteps at ih ⊢
    split
    · rw [List.foldr_cons, List.foldr_cons]
      omega
    · rw [List.foldr_cons]
      omega

/-- The entries whose subscription is held. -/
def present (cell : ModeCell) : List (Entry Listener) :=
  cell.entries.filter fun e => cell.isHeld e.serial

/-- A cell at the beginning of the round for a mode. -/
def opened (cell : ModeCell) (mode : Mode) : ModeCell :=
  Observable.beginRound (cell.publish mode) mode []

/-- Nothing is being delivered, and nothing waits. -/
structure Rests (cell : ModeCell) : Prop where
  quiet : cell.isNotifying = false
  pending : cell.pending = []

theorem said_react (cell : ModeCell) (reactions : List Reaction) :
    Said cell (react cell reactions).1 [] := by
  induction reactions generalizing cell with
  | nil => exact .refl cell
  | cons reaction rest ih =>
    cases reaction with
    | drop name => exact (said_drop cell name).trans (ih (cell.drop name))
    | panic => exact .refl cell

theorem react_eq (cell : ModeCell) (reactions : List Reaction) : react cell reactions =
    ((react cell reactions).1, if .panic ∈ reactions then .panicked else .returned) := by
  refine Prod.ext rfl ?_
  induction reactions generalizing cell with
  | nil => rfl
  | cons reaction rest ih =>
    cases reaction with
    | drop name => rw [react, ih]; simp
    | panic => rw [react]; simp

theorem pending_react (cell : ModeCell) (reactions : List Reaction) :
    (react cell reactions).1.pending = cell.pending := by
  induction reactions generalizing cell with
  | nil => rfl
  | cons reaction rest ih =>
    cases reaction with
    | drop name => rw [react, ih, Observable.drop_eq]
    | panic => rfl

theorem pending_tell (mode : Mode) (entries : List (Entry Listener)) (cell : ModeCell) :
    (tell mode entries cell).1.pending = cell.pending := by
  induction entries generalizing cell with
  | nil => rfl
  | cons e rest ih =>
    have hreact := pending_react (cell.record (.called e.callback mode cell.value))
      (e.callback.react mode)
    rw [tell]
    split
    · next told htold =>
      rw [htold] at hreact
      exact (ih told).trans hreact
    · next told htold =>
      rw [htold] at hreact
      exact hreact

theorem run_settle {told : ModeCell × Outcome} (h : told.1.pending = []) (mode : Mode)
    (fuel : Nat) :
    Observable.run Listener.behavior (fuel + 2) (settle (.delivering mode [] []) told) =
      settle .idle told := by
  obtain ⟨cell, outcome⟩ := told
  cases outcome with
  | returned =>
    have hdrained : Observable.step Listener.behavior { cell with phase := .draining } =
        { cell with phase := .idle } := by
      unfold Observable.step
      dsimp only
      rw [h]
    have hrest : Observable.isNotifying { cell with phase := .idle } = false := rfl
    exact (congrArg (Observable.run Listener.behavior fuel) hdrained).trans (run_of_rest hrest fuel)
  | panicked =>
    have hrest : Observable.isNotifying cell.panic = false := rfl
    exact run_of_rest hrest _

/-- A mode that is announced has its round at once. -/
theorem step_publish {cell : ModeCell} (h : cell.Rests) (mode : Mode) :
    Observable.step Listener.behavior (cell.publish mode) = cell.opened mode := by
  obtain ⟨value, version, entries, pending, held, nextSerial, phase, journal⟩ := cell
  obtain rfl : pending = [] := h.pending
  have hquiet := h.quiet
  cases phase with
  | idle => rfl
  | unwound => rfl
  | draining => cases hquiet
  | delivering => cases hquiet

theorem Rests.drop {cell : ModeCell} (h : cell.Rests) (name : String) : Rests (cell.drop name) := by
  rw [Observable.drop_eq]
  exact ⟨h.quiet, h.pending⟩

theorem Rests.subscribe {cell : ModeCell} (h : cell.Rests) (name : String) (listener : Listener) :
    Rests (cell.subscribe name listener) := by
  rw [Observable.subscribe_eq]
  exact ⟨h.quiet, h.pending⟩

theorem Rests.react {cell : ModeCell} (h : cell.Rests) (reactions : List Reaction) :
    Rests (react cell reactions).1 := by
  induction reactions generalizing cell with
  | nil => exact h
  | cons reaction rest ih =>
    cases reaction with
    | drop name => exact ih (h.drop name)
    | panic => exact h

theorem rests_settle {told : ModeCell × Outcome} (h : told.1.pending = []) :
    Rests (settle .idle told) := by
  obtain ⟨cell, outcome⟩ := told
  cases outcome with
  | returned => exact ⟨rfl, h⟩
  | panicked => exact ⟨rfl, rfl⟩

theorem said_settle (told : ModeCell × Outcome) : Said told.1 (settle .idle told) [] := by
  obtain ⟨cell, outcome⟩ := told
  cases outcome with
  | returned => exact .refl cell
  | panicked =>
    have hjournal : cell.panic.journal = .panicked :: cell.journal := rfl
    exact said_of_journal hjournal

/-- **To announce a mode is to tell those who are present of it.** -/
theorem announce_eq {cell : ModeCell} (h : cell.Rests) (mode : Mode) :
    (cell.announce mode).1 = settle .idle (tell mode cell.present (cell.opened mode)) := by
  obtain ⟨extra, hextra⟩ := Nat.exists_eq_add_of_le
    (callSteps_filter_le mode (fun e => cell.isHeld e.serial) cell.entries)
  have hsteps : cell.deliverySteps mode = callSteps mode cell.present + (extra + 2) + 1 := by
    rw [deliverySteps, ← callSteps, hextra, present]
    omega
  have hpending := pending_tell mode cell.present (cell.opened mode)
  rw [announce, hsteps, Observable.run, Observable.isNotifying_publish, if_pos rfl, step_publish h]
  exact (run_waiting mode cell.present (cell.opened mode) _).trans (run_settle hpending mode extra)

end ModeCell

end ColorTheme
