import ColorTheme.Proofs.Context.Telling

/-!
# The audience of a context

Who hears of a mode, told without rounds: a listener that is welcomed takes a seat, and has it until
its name is left.  A mode is heard from the first seat to the last, or to the first whose listener
gives up, and whoever leaves meanwhile still hears of it.  The cell of a context does what this says.
-/

namespace ColorTheme

open Observable (Entry)

/-! ### Reactions to a mode -/

namespace Reaction

/-- The names that are left before a listener gives up. -/
def departures : List Reaction → List String
  | [] | .panic :: _ => []
  | .drop name :: rest => name :: departures rest

end Reaction

namespace Listener

/-- The listener gives up on a mode. -/
def givesUp (listener : Listener) (mode : Mode) : Bool := .panic ∈ listener.react mode

/-- The names that the listener leaves when it hears of a mode. -/
def leaves (listener : Listener) (mode : Mode) : List String :=
  Reaction.departures (listener.react mode)

end Listener

/-- The entries that hear of a mode: all up to the first that gives up. -/
def hearers (mode : Mode) : List (Entry Listener) → List (Entry Listener)
  | [] => []
  | e :: rest => if e.callback.givesUp mode then [e] else e :: hearers mode rest

/-- What entries are told. -/
def tidings (mode : Mode) (entries : List (Entry Listener)) : List (Listener × Mode) :=
  entries.map fun e => (e.callback, mode)

/-- The names that entries leave when they hear of a mode. -/
def allLeaves (mode : Mode) (entries : List (Entry Listener)) : List String :=
  entries.flatMap fun e => e.callback.leaves mode

/-! ### Audiences -/

/-- An entry whose subscription is kept under a name. -/
structure Seat where
  name : String
  entry : Entry Listener

/-- The mode, and those who hear when it is announced. -/
@[ext]
structure Audience where
  mode : Mode
  /-- The seats, in the order in which they were taken. -/
  seats : List Seat
  /-- The serial of the next seat. -/
  nextSerial : Nat
  /-- No name is given twice. -/
  names : (seats.map Seat.name).Nodup
  ordered : seats.Pairwise fun a b => a.entry.serial < b.entry.serial
  serial_lt : ∀ seat ∈ seats, seat.entry.serial < nextSerial

namespace Audience

def empty (mode : Mode) : Audience where
  mode := mode
  seats := []
  nextSerial := 0
  names := .nil
  ordered := .nil
  serial_lt := nofun

def entries (a : Audience) : List (Entry Listener) := a.seats.map Seat.entry

/-- The audience without the seats under some names. -/
def without (a : Audience) (names : List String) : Audience where
  mode := a.mode
  seats := a.seats.filter (·.name ∉ names)
  nextSerial := a.nextSerial
  names := a.names.sublist (List.filter_sublist.map Seat.name)
  ordered := a.ordered.sublist List.filter_sublist
  serial_lt seat h := a.serial_lt seat (List.mem_filter.1 h).1

/-- The audience with one more seat; one that was taken under the same name is given up. -/
def join (a : Audience) (listener : Listener) : Audience where
  mode := a.mode
  seats := (a.without [listener.name]).seats ++ [⟨listener.name, a.nextSerial, listener⟩]
  nextSerial := a.nextSerial + 1
  names := by
    rw [List.map_append, List.nodup_append]
    refine ⟨(a.without [listener.name]).names, List.nodup_singleton _, ?_⟩
    rintro name hname _ hsame rfl
    obtain ⟨seat, hseat, rfl⟩ := List.mem_map.1 hname
    have hother := (List.mem_filter.1 hseat).2
    rw [decide_eq_true_eq, List.mem_singleton] at hother
    exact hother (List.mem_singleton.1 hsame)
  ordered := by
    rw [List.pairwise_append]
    refine ⟨(a.without [listener.name]).ordered, List.pairwise_singleton _ _, ?_⟩
    intro seat hseat new hnew
    rw [List.mem_singleton.1 hnew]
    exact (a.without [listener.name]).serial_lt seat hseat
  serial_lt seat h := by
    rcases List.mem_append.1 h with h | h
    · exact Nat.lt_succ_of_lt ((a.without [listener.name]).serial_lt seat h)
    · rw [List.mem_singleton.1 h]
      exact Nat.lt_succ_self _

/-- A listener hears of the mode, and takes a seat unless it gives up. -/
def welcome (a : Audience) (listener : Listener) : Audience :=
  let told := a.without (listener.leaves a.mode)
  if listener.givesUp a.mode then told else told.join listener

/-- A mode is announced, and the seats that its hearers leave are free. -/
def announce (a : Audience) (mode : Mode) : Audience :=
  { a with mode := mode }.without (allLeaves mode (hearers mode a.entries))

/-- The audience with other listeners on the same seats. -/
def withListeners (a : Audience) (listener : Entry Listener → Listener) : Audience where
  mode := a.mode
  seats := a.seats.map fun seat => ⟨seat.name, seat.entry.serial, listener seat.entry⟩
  nextSerial := a.nextSerial
  names := by
    rw [List.map_map]
    exact a.names
  ordered := List.pairwise_map.2 a.ordered
  serial_lt seat h := by
    obtain ⟨before, hbefore, rfl⟩ := List.mem_map.1 h
    exact a.serial_lt before hbefore

theorem without_nil (a : Audience) : a.without [] = a := by
  ext1
  · rfl
  · simp [without]
  · rfl

theorem without_append (a : Audience) (names later : List String) :
    a.without (names ++ later) = (a.without names).without later := by
  ext1
  · rfl
  · simp only [without, List.filter_filter, List.mem_append, not_or, Bool.decide_and,
      Bool.and_comm]
  · rfl

/-! ### The audience of a cell -/

/-- The seats are the subscriptions that the cell holds, and their entries are registered in the
same order. -/
structure IsOf (a : Audience) (cell : ModeCell) : Prop where
  mode : cell.value = a.mode
  nextSerial : cell.nextSerial = a.nextSerial
  held : cell.held = a.seats.map fun seat => (seat.name, seat.entry.serial)
  present : cell.present = a.entries
  registered : ∀ e ∈ cell.entries, e.serial < cell.nextSerial

variable {a : Audience} {cell : ModeCell}

theorem IsOf.congr {cell' : ModeCell} (h : a.IsOf cell) (hvalue : cell'.value = cell.value)
    (hnext : cell'.nextSerial = cell.nextSerial) (hheld : cell'.held = cell.held)
    (hentries : cell'.entries = cell.entries) : a.IsOf cell' where
  mode := hvalue.trans h.mode
  nextSerial := hnext.trans h.nextSerial
  held := hheld.trans h.held
  present := by
    unfold ModeCell.present Observable.isHeld
    rw [hentries, hheld]
    exact h.present
  registered := by
    rw [hentries, hnext]
    exact h.registered

theorem serial_injOn {seat seat' : Seat} (h : seat ∈ a.seats) (h' : seat' ∈ a.seats)
    (hserial : seat.entry.serial = seat'.entry.serial) : seat = seat' := by
  have hnodup : (a.seats.map fun seat => seat.entry.serial).Nodup :=
    (List.pairwise_map.2 a.ordered).imp Nat.ne_of_lt
  exact List.inj_on_of_nodup_map hnodup h h' hserial

theorem isHeld_iff (hheld : cell.held = a.seats.map fun seat => (seat.name, seat.entry.serial))
    {serial : Nat} : cell.isHeld serial = true ↔ ∃ seat ∈ a.seats, seat.entry.serial = serial := by
  rw [Observable.isHeld_iff, hheld]
  simp

theorem IsOf.drop (h : a.IsOf cell) (name : String) : (a.without [name]).IsOf (cell.drop name) := by
  have hheld : (cell.drop name).held =
      (a.without [name]).seats.map fun seat => (seat.name, seat.entry.serial) := by
    rw [Observable.drop_eq, h.held, without, List.filter_map]
    simp [Function.comp_def]
  have hkept : ∀ seat ∈ a.seats,
      (cell.drop name).isHeld seat.entry.serial = decide (seat.name ∉ [name]) := by
    intro seat hseat
    rw [Bool.eq_iff_iff, decide_eq_true_eq, isHeld_iff hheld]
    constructor
    · rintro ⟨seat', hseat', hserial⟩
      obtain ⟨hseat', hname⟩ := List.mem_filter.1 hseat'
      rw [← serial_injOn hseat' hseat hserial]
      exact of_decide_eq_true hname
    · intro hname
      exact ⟨seat, List.mem_filter.2 ⟨hseat, decide_eq_true hname⟩, rfl⟩
  have hwas : ∀ e ∈ cell.entries, (cell.drop name).isHeld e.serial =
      ((cell.drop name).isHeld e.serial && cell.isHeld e.serial) := by
    intro e _
    rw [Bool.eq_iff_iff, Bool.and_eq_true, iff_self_and, isHeld_iff hheld, isHeld_iff h.held]
    rintro ⟨seat, hseat, hserial⟩
    exact ⟨seat, (List.mem_filter.1 hseat).1, hserial⟩
  have hpresent : cell.entries.filter (fun e => (cell.drop name).isHeld e.serial) =
      (a.without [name]).entries := by
    rw [List.filter_congr hwas, ← List.filter_filter, ← ModeCell.present, h.present, entries,
      List.filter_map]
    exact congrArg (List.map Seat.entry) (List.filter_congr hkept)
  rw [Observable.drop_eq] at hheld hpresent ⊢
  exact ⟨h.mode, h.nextSerial, hheld, hpresent, h.registered⟩

theorem IsOf.subscribe (h : a.IsOf cell) (listener : Listener) :
    (a.join listener).IsOf (cell.subscribe listener.name listener) := by
  have hdrop := h.drop listener.name
  have hdropped : (cell.drop listener.name).entries = cell.entries := by rw [Observable.drop_eq]
  have hentries : (cell.subscribe listener.name listener).entries =
      cell.entries ++ [⟨a.nextSerial, listener⟩] := by rw [Observable.subscribe_eq, h.nextSerial]
  have hheld : (cell.subscribe listener.name listener).held =
      (a.join listener).seats.map fun seat => (seat.name, seat.entry.serial) := by
    have hsubscribe : (cell.subscribe listener.name listener).held =
        (cell.drop listener.name).held ++ [(listener.name, cell.nextSerial)] := by
      rw [Observable.subscribe_eq, Observable.drop_eq]
    rw [hsubscribe, hdrop.held, h.nextSerial, join, List.map_append]
    rfl
  -- The new serial is that of no entry, so the others are held as after the drop.
  have hothers : ∀ e ∈ cell.entries, (cell.subscribe listener.name listener).isHeld e.serial =
      (cell.drop listener.name).isHeld e.serial := by
    intro e he
    have hlt : e.serial < a.nextSerial := h.nextSerial ▸ h.registered e he
    rw [Bool.eq_iff_iff, isHeld_iff hheld, isHeld_iff hdrop.held, join]
    simp only [List.mem_append, List.mem_singleton, or_and_right, exists_or, exists_eq_left,
      Nat.ne_of_gt hlt, or_false]
  have hnew : (cell.subscribe listener.name listener).isHeld a.nextSerial = true :=
    (isHeld_iff hheld).2 ⟨⟨listener.name, a.nextSerial, listener⟩, by simp [join], rfl⟩
  refine ⟨?_, ?_, hheld, ?_, ?_⟩
  · rw [Observable.subscribe_eq]
    exact h.mode
  · rw [Observable.subscribe_eq]
    exact congrArg (· + 1) h.nextSerial
  · have hpresent := hdrop.present
    rw [ModeCell.present, hdropped] at hpresent
    have hlast : [(⟨a.nextSerial, listener⟩ : Entry Listener)].filter
        (fun e => (cell.subscribe listener.name listener).isHeld e.serial) =
          [⟨a.nextSerial, listener⟩] := by simp [hnew]
    rw [ModeCell.present, hentries, List.filter_append, List.filter_congr hothers, hpresent, hlast,
      entries, entries, join, List.map_append]
    rfl
  · rw [hentries, Observable.subscribe_eq]
    intro e he
    rcases List.mem_append.1 he with he | he
    · exact Nat.lt_succ_of_lt (h.registered e he)
    · rw [List.mem_singleton.1 he, ← h.nextSerial]
      exact Nat.lt_succ_self _

theorem IsOf.react (h : a.IsOf cell) (reactions : List Reaction) :
    (a.without (Reaction.departures reactions)).IsOf (ModeCell.react cell reactions).1 := by
  induction reactions generalizing a cell with
  | nil =>
    rw [Reaction.departures, without_nil]
    exact h
  | cons reaction rest ih =>
    cases reaction with
    | drop name =>
      rw [Reaction.departures, ← List.singleton_append, without_append]
      exact ih (h.drop name)
    | panic =>
      rw [Reaction.departures, without_nil]
      exact h

/-- **A round reaches those who are there**, and those who leave it are left out. -/
theorem IsOf.tell (h : a.IsOf cell) (mode : Mode) (told : List (Entry Listener)) :
    (a.without (allLeaves mode (hearers mode told))).IsOf (ModeCell.tell mode told cell).1 ∧
      ModeCell.Said cell (ModeCell.tell mode told cell).1 (tidings mode (hearers mode told)) := by
  induction told generalizing a cell with
  | nil =>
    rw [hearers, allLeaves, List.flatMap_nil, without_nil]
    exact ⟨h, .refl cell⟩
  | cons e rest ih =>
    let called : ModeCell := cell.record (.called e.callback mode cell.value)
    have hcalled : a.IsOf called := h.congr rfl rfl rfl rfl
    have hsaid : ModeCell.Said cell called [(e.callback, mode)] := ModeCell.said_record cell _
    have hleft := hcalled.react (e.callback.react mode)
    have hreact := hsaid.trans (ModeCell.said_react called (e.callback.react mode))
    have htold := ModeCell.react_eq called (e.callback.react mode)
    rw [hearers, ModeCell.tell]
    split
    · next hgives =>
      rw [if_pos (of_decide_eq_true hgives)] at htold
      rw [htold, allLeaves, List.flatMap_singleton]
      exact ⟨hleft, hreact⟩
    · next hgives =>
      rw [if_neg fun hpanic => hgives (decide_eq_true hpanic)] at htold
      obtain ⟨hothers, hmore⟩ := ih hleft
      rw [htold, allLeaves, List.flatMap_cons, without_append]
      exact ⟨hothers, hreact.trans hmore⟩

/-- A cell at rest, with what was said since another state of it. -/
structure Follows (a : Audience) (cell cell' : ModeCell) (said : List (Listener × Mode)) :
    Prop where
  isOf : a.IsOf cell'
  rests : cell'.Rests
  said : ModeCell.Said cell cell' said

section
variable (h : a.IsOf cell) (hrests : cell.Rests)
include h hrests

/-- **A mode is announced** to the audience, and to nobody else. -/
theorem follows_announce (mode : Mode) :
    (a.announce mode).Follows cell (cell.announce mode).1
      (tidings mode (hearers mode a.entries)) := by
  have hopened : { a with mode := mode }.IsOf (cell.opened mode) := by
    refine ⟨rfl, h.nextSerial, h.held, ?_, ?_⟩
    · refine Eq.trans ?_ h.present
      exact List.filter_eq_self.2 fun e he => (List.mem_filter.1 he).2
    · intro e he
      exact h.registered e (List.mem_filter.1 he).1
  have hbegun : ModeCell.Said cell (cell.opened mode) [] := by
    refine ⟨[.published mode, .round mode (cell.opened mode).entries], ?_, rfl⟩
    simp [Observable.history, ModeCell.opened, Observable.beginRound, Observable.publish]
  obtain ⟨htold, hsaid⟩ := hopened.tell mode a.entries
  have hpending := ModeCell.pending_tell mode a.entries (cell.opened mode)
  rw [ModeCell.announce_eq hrests, h.present]
  generalize ModeCell.tell mode a.entries (cell.opened mode) = told at htold hsaid hpending
  refine ⟨?_, ModeCell.rests_settle hpending, ?_⟩
  · obtain ⟨cell', outcome⟩ := told
    cases outcome with
    | returned => exact htold.congr rfl rfl rfl rfl
    | panicked => exact htold.congr rfl rfl rfl rfl
  · have hall := (hbegun.trans hsaid).trans (ModeCell.said_settle told)
    rw [List.nil_append, List.append_nil] at hall
    exact hall

/-- **A listener is told the mode at once**, and if it gives up it is not registered. -/
theorem follows_welcome (listener : Listener) :
    (a.welcome listener).Follows cell (cell.welcome listener).1 [(listener, a.mode)] := by
  let called : ModeCell := cell.record (.called listener a.mode a.mode)
  have hcalled : a.IsOf called := h.congr rfl rfl rfl rfl
  have hsaid : ModeCell.Said cell called [(listener, a.mode)] := ModeCell.said_record cell _
  have hquiet : called.Rests := ⟨hrests.quiet, hrests.pending⟩
  have hleft := hcalled.react (listener.react a.mode)
  have hreact := hsaid.trans (ModeCell.said_react called (listener.react a.mode))
  have hstill := hquiet.react (listener.react a.mode)
  have htold := ModeCell.react_eq called (listener.react a.mode)
  rw [List.append_nil] at hreact
  rw [ModeCell.welcome, h.mode, welcome]
  split
  · next hgives =>
    rw [if_pos (of_decide_eq_true hgives)] at htold
    rw [htold]
    exact ⟨hleft, hstill, hreact⟩
  · next hgives =>
    rw [if_neg fun hpanic => hgives (decide_eq_true hpanic)] at htold
    have hall := hreact.trans (ModeCell.said_subscribe _ listener.name listener)
    rw [List.append_nil] at hall
    rw [htold]
    exact ⟨hleft.subscribe listener, hstill.subscribe listener.name listener, hall⟩

end

end Audience

end ColorTheme
