import ColorTheme.Proofs.Observable.History
import Mathlib.Data.List.Nodup

/-!
# Reachable states of an observable value

What every state satisfies that publications, registrations and endings lead to, at rest and inside
a delivery: the entries are in the order of registration, and those of them whose subscription is
held are the ones that the history names.
-/

namespace ColorTheme.Observable

variable {κ ν : Type}

/-- The states that lead from a new value to others: publications, registrations and endings while
nothing is being delivered, and the steps of a delivery. -/
inductive Reachable (behavior : Behavior κ ν) : Observable κ ν → Prop
  | new (value : ν) : Reachable behavior (new value)
  | publish {s : Observable κ ν} (value : ν) : Reachable behavior s → s.isNotifying = false →
      Reachable behavior (s.publish value)
  | subscribe {s : Observable κ ν} (name : String) (callback : κ) : Reachable behavior s →
      s.isNotifying = false → Reachable behavior (s.subscribe name callback)
  | drop {s : Observable κ ν} (name : String) : Reachable behavior s → s.isNotifying = false →
      Reachable behavior (s.drop name)
  | step {s : Observable κ ν} : Reachable behavior s → Reachable behavior (s.step behavior)

theorem Reachable.run {behavior : Behavior κ ν} {s : Observable κ ν} (h : Reachable behavior s)
    (fuel : Nat) : Reachable behavior (run behavior fuel s) := by
  induction fuel generalizing s with
  | zero => exact h
  | succ fuel ih =>
    unfold Observable.run
    split
    · exact ih h.step
    · exact h

/-! ### What acts change -/

theorem history_of_journal {s t : Observable κ ν} {e : Event κ ν}
    (h : t.journal = e :: s.journal) : t.history = s.history ++ [e] := by
  simp [history, h]

section Acts

variable (s : Observable κ ν) (name : String)

/-- The subscription that a drop ends. -/
def endedBy : List Nat := (s.held.lookup name).toList

theorem drop_eq : s.drop name = { s with
    held := s.held.filter (·.1 ≠ name)
    journal := (s.endedBy name).map .dropped ++ s.journal } := by
  unfold drop endedBy
  split
  · next hnone =>
    have hkeep : s.held.filter (·.1 ≠ name) = s.held := by
      refine List.filter_eq_self.2 fun p hp => ?_
      have hne := bne_iff_ne.1 (List.lookup_eq_none_iff.1 hnone p hp)
      exact decide_eq_true hne.symm
    rw [hnone, hkeep]
    rfl
  · next hsome => simp [hsome]

theorem subscribe_eq (callback : κ) : s.subscribe name callback = { s with
    entries := s.entries ++ [⟨s.nextSerial, callback⟩]
    nextSerial := s.nextSerial + 1
    held := s.held.filter (·.1 ≠ name) ++ [(name, s.nextSerial)]
    journal := (s.endedBy name).map .dropped ++
      .subscribed ⟨s.nextSerial, callback⟩ :: s.journal } := by
  simp only [subscribe, drop_eq]
  rfl

theorem history_drop :
    (s.drop name).history = s.history ++ (s.endedBy name).map .dropped := by
  rw [drop_eq]
  unfold history endedBy
  cases s.held.lookup name <;> simp

theorem history_subscribe (callback : κ) :
    (s.subscribe name callback).history =
      s.history ++ .subscribed ⟨s.nextSerial, callback⟩ :: (s.endedBy name).map .dropped := by
  rw [subscribe_eq]
  unfold history endedBy
  cases s.held.lookup name <;> simp

@[simp]
theorem registrations_map_dropped (l : List Nat) :
    registrations (l.map .dropped : List (Event κ ν)) = [] := by
  simp [registrations, List.filterMap_map, Event.subscribed?, Function.comp_def]

@[simp]
theorem endings_map_dropped (l : List Nat) : endings (l.map .dropped : List (Event κ ν)) = l := by
  simp [endings, List.filterMap_map, Event.dropped?, Function.comp_def]

@[simp]
theorem publications_map_dropped (l : List Nat) :
    publications (l.map .dropped : List (Event κ ν)) = [] := by
  simp [publications, List.filterMap_map, Event.published?, Function.comp_def]

@[simp]
theorem calls_map_dropped (l : List Nat) : calls (l.map .dropped : List (Event κ ν)) = [] := by
  simp [calls, List.filterMap_map, Event.called?, Function.comp_def]

end Acts

/-- The value that an act publishes, if it does. -/
def Act.published? : Act κ ν → Option ν
  | .publish value => some value
  | _ => none

/-- What an act does that gives nothing up, while something is being delivered: what it publishes
waits, and the delivery stays where it is. -/
structure Performed (s t : Observable κ ν) (act : Act κ ν) (more : List (Event κ ν)) : Prop where
  history_eq : t.history = s.history ++ more
  publications_eq : publications more = act.published?.toList
  calls_eq : calls more = []
  not_round : ∀ e ∈ more, e.isRound = false
  pending_eq : t.pending = s.pending ++ act.published?.toList
  version_eq : t.version = s.version + act.published?.toList.length
  value_eq : t.value = act.published?.getD s.value
  phase_eq : t.phase = s.phase

theorem performed {s : Observable κ ν} (hs : s.isNotifying = true) {act : Act κ ν}
    (hact : act ≠ .panic) : ∃ more, Performed s (s.perform act) act more := by
  cases act with
  | publish value =>
    refine ⟨[.published value], history_of_journal rfl, rfl, rfl, by simp [Event.isRound], rfl,
      rfl, rfl, ?_⟩
    simp [perform, publish, hs]
  | subscribe name callback =>
    refine ⟨_, history_subscribe s name callback, publications_map_dropped _, calls_map_dropped _,
      by simp [Event.isRound], ?_, ?_, ?_, ?_⟩
    all_goals simp [perform, subscribe_eq, Act.published?]
  | drop name =>
    refine ⟨_, history_drop s name, publications_map_dropped _, calls_map_dropped _,
      by simp [Event.isRound], ?_, ?_, ?_, ?_⟩
    all_goals simp [perform, drop_eq, Act.published?]
  | panic => exact absurd rfl hact

theorem isNotifying_congr {s t : Observable κ ν} (h : t.phase = s.phase) :
    t.isNotifying = s.isNotifying := by
  unfold isNotifying
  rw [h]

theorem isNotifying_publish (s : Observable κ ν) (value : ν) :
    (s.publish value).isNotifying = true := by
  unfold publish
  cases hs : s.isNotifying with
  | false => rfl
  | true => exact (isNotifying_congr rfl).trans hs

theorem isHeld_iff {s : Observable κ ν} {serial : Nat} :
    s.isHeld serial = true ↔ ∃ p ∈ s.held, p.2 = serial := by
  simp [isHeld]

/-! ### The invariant -/

/-- How the entries, the subscriptions and the history belong together. -/
structure Coherent (s : Observable κ ν) : Prop where
  /-- Serials are counted up. -/
  serial_lt : ∀ e ∈ registrations s.history, e.serial < s.nextSerial
  ordered : (registrations s.history).Pairwise fun a b => a.serial < b.serial
  ended_lt : ∀ serial ∈ endings s.history, serial < s.nextSerial
  /-- Every subscription that is held is that of an entry. -/
  registered : ∀ p ∈ s.held, ∃ e ∈ registrations s.history, e.serial = p.2
  names : (s.held.map Prod.fst).Nodup
  serials : (s.held.map Prod.snd).Nodup
  held_iff : ∀ e ∈ registrations s.history,
    s.isHeld e.serial = true ↔ e.serial ∉ endings s.history
  sublist : s.entries.Sublist (registrations s.history)
  entries_held : s.entries.filter (fun e => s.isHeld e.serial) = live s.history

namespace Coherent

variable {s t : Observable κ ν}

theorem new (value : ν) : Coherent (Observable.new value : Observable κ ν) := by
  constructor <;> simp [Observable.new, history, registrations, endings, live]

/-- More events matter only if they register something or end a subscription. -/
theorem congr (h : Coherent s) {more : List (Event κ ν)} (hmore : t.history = s.history ++ more)
    (hr : registrations more = []) (he : endings more = []) (hheld : t.held = s.held)
    (hentries : t.entries = s.entries) (hnext : t.nextSerial = s.nextSerial) : Coherent t := by
  have hr : registrations t.history = registrations s.history := by simp [hmore, hr]
  have he : endings t.history = endings s.history := by simp [hmore, he]
  have hlive : live t.history = live s.history := by unfold live; rw [hr, he]
  have his : t.isHeld = s.isHeld := by unfold isHeld; rw [hheld]
  exact {
    serial_lt := by rw [hr, hnext]; exact h.serial_lt
    ordered := by rw [hr]; exact h.ordered
    ended_lt := by rw [he, hnext]; exact h.ended_lt
    registered := by rw [hheld, hr]; exact h.registered
    names := by rw [hheld]; exact h.names
    serials := by rw [hheld]; exact h.serials
    held_iff := by rw [hr, his, he]; exact h.held_iff
    sublist := by rw [hr, hentries]; exact h.sublist
    entries_held := by rw [hentries, his, hlive]; exact h.entries_held }

theorem prune (h : Coherent s) :
    Coherent { s with entries := s.entries.filter fun e => s.isHeld e.serial } :=
  { h with
    sublist := List.filter_sublist.trans h.sublist
    entries_held := by
      refine Eq.trans ?_ h.entries_held
      exact List.filter_eq_self.2 fun e he => (List.mem_filter.1 he).2 }

theorem entries_ordered (h : Coherent s) : s.entries.Pairwise fun a b => a.serial < b.serial :=
  h.ordered.sublist h.sublist

theorem live_ordered (h : Coherent s) : (live s.history).Pairwise fun a b => a.serial < b.serial :=
  h.ordered.sublist List.filter_sublist

theorem mem_endedBy_iff (h : Coherent s) {name : String} {serial : Nat} :
    serial ∈ s.endedBy name ↔ (name, serial) ∈ s.held := by
  unfold endedBy
  rw [Option.mem_toList]
  constructor
  · intro hlookup
    obtain ⟨l₁, l₂, hl, -⟩ := List.lookup_eq_some_iff.1 hlookup
    simp [hl]
  · intro hmem
    cases hlookup : s.held.lookup name with
    | none => simpa using List.lookup_eq_none_iff.1 hlookup _ hmem
    | some k =>
      -- No name is held twice, so what is found first is all there is.
      obtain ⟨l₁, l₂, hl, -⟩ := List.lookup_eq_some_iff.1 hlookup
      have hsame := List.inj_on_of_nodup_map h.names hmem (y := (name, k)) (by simp [hl]) rfl
      exact congrArg some (congrArg Prod.snd hsame).symm

theorem held_lt (h : Coherent s) {p : String × Nat} (hp : p ∈ s.held) : p.2 < s.nextSerial := by
  obtain ⟨e, he, hserial⟩ := h.registered p hp
  rw [← hserial]
  exact h.serial_lt e he

theorem endedBy_lt (h : Coherent s) {name : String} {serial : Nat}
    (hmem : serial ∈ s.endedBy name) : serial < s.nextSerial :=
  h.held_lt (h.mem_endedBy_iff.1 hmem)

/-- A drop ends what was held under the name and nothing else. -/
theorem mem_filter_held_iff (h : Coherent s) (name : String) (serial : Nat) :
    (∃ p ∈ s.held.filter (·.1 ≠ name), p.2 = serial) ↔
      s.isHeld serial = true ∧ serial ∉ s.endedBy name := by
  rw [isHeld_iff, h.mem_endedBy_iff]
  constructor
  · rintro ⟨p, hp, rfl⟩
    obtain ⟨hp, hname⟩ := List.mem_filter.1 hp
    refine ⟨⟨p, hp, rfl⟩, fun hmem => ?_⟩
    have hsame := List.inj_on_of_nodup_map h.serials hp hmem rfl
    exact of_decide_eq_true hname (congrArg Prod.fst hsame)
  · rintro ⟨⟨p, hp, rfl⟩, hnot⟩
    have hname : p.1 ≠ name := fun hname => hnot (hname ▸ hp)
    exact ⟨p, List.mem_filter.2 ⟨hp, decide_eq_true hname⟩, rfl⟩

theorem isHeld_drop_iff (h : Coherent s) (name : String) (serial : Nat) :
    (s.drop name).isHeld serial = true ↔ s.isHeld serial = true ∧ serial ∉ s.endedBy name := by
  rw [← h.mem_filter_held_iff, isHeld_iff, drop_eq]

theorem isHeld_subscribe_iff (h : Coherent s) (name : String) (callback : κ) (serial : Nat) :
    (s.subscribe name callback).isHeld serial = true ↔
      s.isHeld serial = true ∧ serial ∉ s.endedBy name ∨ serial = s.nextSerial := by
  rw [← h.mem_filter_held_iff, isHeld_iff, subscribe_eq]
  simp only [List.mem_append, List.mem_singleton, or_and_right, exists_or, exists_eq_left]
  rw [eq_comm (a := s.nextSerial)]

theorem entries_filter (h : Coherent s) (ended : List Nat) :
    s.entries.filter (fun e => s.isHeld e.serial && decide (e.serial ∉ ended)) =
      (registrations s.history).filter fun e => decide (e.serial ∉ endings s.history ++ ended) := by
  have hsplit (l : List (Entry κ)) (p q : Entry κ → Bool) :
      l.filter (fun e => p e && q e) = (l.filter p).filter q := by
    rw [List.filter_filter]
    exact List.filter_congr fun e _ => Bool.and_comm _ _
  rw [hsplit, h.entries_held, live, ← hsplit]
  exact List.filter_congr fun e _ => by simp

theorem drop (h : Coherent s) (name : String) : Coherent (s.drop name) := by
  have hr : registrations (s.drop name).history = registrations s.history := by
    simp [history_drop]
  have he : endings (s.drop name).history = endings s.history ++ s.endedBy name := by
    simp [history_drop]
  have hheld : (s.drop name).held.Sublist s.held := by
    rw [drop_eq]
    exact List.filter_sublist
  have hentries : (s.drop name).entries = s.entries := by rw [drop_eq]
  have hnext : (s.drop name).nextSerial = s.nextSerial := by rw [drop_eq]
  refine {
    serial_lt := by rw [hr, hnext]; exact h.serial_lt
    ordered := by rw [hr]; exact h.ordered
    ended_lt := ?_
    registered := fun p hp => by rw [hr]; exact h.registered p (hheld.subset hp)
    names := (hheld.map Prod.fst).nodup h.names
    serials := (hheld.map Prod.snd).nodup h.serials
    held_iff := ?_
    sublist := by rw [hr, hentries]; exact h.sublist
    entries_held := ?_ }
  · intro serial hmem
    rw [hnext]
    rw [he] at hmem
    exact (List.mem_append.1 hmem).elim (h.ended_lt serial) h.endedBy_lt
  · intro e hmem
    rw [hr] at hmem
    rw [h.isHeld_drop_iff, h.held_iff e hmem, he, List.mem_append, not_or]
  · rw [hentries, live, hr, he, ← h.entries_filter]
    refine List.filter_congr fun e _ => ?_
    rw [Bool.eq_iff_iff, h.isHeld_drop_iff]
    simp

theorem subscribe (h : Coherent s) (name : String) (callback : κ) :
    Coherent (s.subscribe name callback) := by
  let entry : Entry κ := ⟨s.nextSerial, callback⟩
  have hr : registrations (s.subscribe name callback).history =
      registrations s.history ++ [entry] := by
    simp [history_subscribe, entry]
  have he : endings (s.subscribe name callback).history =
      endings s.history ++ s.endedBy name := by
    simp [history_subscribe]
  have hheld : (s.subscribe name callback).held =
      s.held.filter (·.1 ≠ name) ++ [(name, s.nextSerial)] := by rw [subscribe_eq]
  have hentries : (s.subscribe name callback).entries = s.entries ++ [entry] := by
    rw [subscribe_eq]
  have hnext : (s.subscribe name callback).nextSerial = s.nextSerial + 1 := by rw [subscribe_eq]
  have hended : ∀ serial ∈ endings s.history ++ s.endedBy name, serial < s.nextSerial :=
    fun serial hmem => (List.mem_append.1 hmem).elim (h.ended_lt serial) h.endedBy_lt
  have hfresh : s.nextSerial ∉ endings s.history ++ s.endedBy name :=
    fun hmem => Nat.lt_irrefl _ (hended _ hmem)
  refine {
    serial_lt := ?_
    ordered := ?_
    ended_lt := by rw [he, hnext]; exact fun serial hmem => Nat.lt_succ_of_lt (hended serial hmem)
    registered := ?_
    names := ?_
    serials := ?_
    held_iff := ?_
    sublist := by rw [hr, hentries]; exact h.sublist.append (List.Sublist.refl _)
    entries_held := ?_ }
  · intro e hmem
    rw [hr] at hmem
    rw [hnext]
    rcases List.mem_append.1 hmem with hmem | hmem
    · exact Nat.lt_succ_of_lt (h.serial_lt e hmem)
    · rw [List.mem_singleton.1 hmem]
      exact Nat.lt_succ_self _
  · rw [hr, List.pairwise_append]
    refine ⟨h.ordered, List.pairwise_singleton _ _, fun e hmem e' hmem' => ?_⟩
    rw [List.mem_singleton.1 hmem']
    exact h.serial_lt e hmem
  · intro p hp
    rw [hheld] at hp
    rw [hr]
    rcases List.mem_append.1 hp with hp | hp
    · obtain ⟨e, hmem, hserial⟩ := h.registered p (List.mem_of_mem_filter hp)
      exact ⟨e, List.mem_append_left _ hmem, hserial⟩
    · refine ⟨entry, List.mem_append_right _ (List.mem_singleton_self _), ?_⟩
      rw [List.mem_singleton.1 hp]
  · -- What was held under the name before is not held any more.
    rw [hheld, List.map_append, List.nodup_append]
    refine ⟨(List.filter_sublist.map Prod.fst).nodup h.names, by simp, ?_⟩
    intro n hn n' hn' hsame
    obtain ⟨p, hp, rfl⟩ := List.mem_map.1 hn
    have hname : n' = name := by simpa using hn'
    exact of_decide_eq_true (List.mem_filter.1 hp).2 (hsame.trans hname)
  · -- The new serial is above all that are held.
    rw [hheld, List.map_append, List.nodup_append]
    refine ⟨(List.filter_sublist.map Prod.snd).nodup h.serials, by simp, ?_⟩
    intro k hk k' hk' hsame
    obtain ⟨p, hp, rfl⟩ := List.mem_map.1 hk
    have hlt := h.held_lt (List.mem_of_mem_filter hp)
    have hserial : k' = s.nextSerial := by simpa using hk'
    omega
  · intro e hmem
    rw [hr] at hmem
    rw [h.isHeld_subscribe_iff, he]
    rcases List.mem_append.1 hmem with hmem | hmem
    · have hne : e.serial ≠ s.nextSerial := (h.serial_lt e hmem).ne
      rw [h.held_iff e hmem, List.mem_append, not_or]
      exact or_iff_left hne
    · rw [List.mem_singleton.1 hmem]
      exact iff_of_true (.inr rfl) hfresh
  · rw [hentries, live, hr, he, List.filter_append, List.filter_append, ← h.entries_filter]
    congr 1
    · refine List.filter_congr fun e hmem => ?_
      have hne : e.serial ≠ s.nextSerial := (h.serial_lt e (h.sublist.subset hmem)).ne
      rw [Bool.eq_iff_iff, h.isHeld_subscribe_iff]
      simp [hne]
    · have hself := (h.isHeld_subscribe_iff name callback s.nextSerial).2 (.inr rfl)
      rw [List.filter_singleton, List.filter_singleton, hself, decide_eq_true hfresh]

theorem perform (h : Coherent s) (act : Act κ ν) : Coherent (s.perform act) := by
  cases act with
  | publish value => exact h.congr (history_of_journal rfl) rfl rfl rfl rfl rfl
  | subscribe name callback => exact h.subscribe name callback
  | drop name => exact h.drop name
  | panic => exact h.congr (history_of_journal rfl) rfl rfl rfl rfl rfl

theorem step (h : Coherent s) (behavior : Behavior κ ν) : Coherent (s.step behavior) := by
  have hphase (phase : Phase κ ν) : Coherent { s with phase := phase } :=
    h.congr (List.append_nil _).symm rfl rfl rfl rfl rfl
  unfold Observable.step
  split
  · exact h
  · exact h
  · split
    · exact hphase _
    · exact h.prune.congr (history_of_journal rfl) rfl rfl rfl rfl rfl
  · exact (hphase _).perform _
  · exact h.congr (history_of_journal rfl) rfl rfl rfl rfl rfl
  · exact hphase _

end Coherent

namespace Reachable

variable {behavior : Behavior κ ν} {s : Observable κ ν}

theorem coherent (h : Reachable behavior s) : Coherent s := by
  induction h with
  | new value => exact .new value
  | publish value _ _ ih => exact ih.perform (.publish value)
  | subscribe name callback _ _ ih => exact ih.subscribe name callback
  | drop name _ _ ih => exact ih.drop name
  | step _ ih => exact ih.step behavior

theorem pending_eq_nil (h : Reachable behavior s) (hs : s.isNotifying = false) :
    s.pending = [] := by
  induction h with
  | new value => rfl
  | publish value _ _ _ => simp [isNotifying_publish] at hs
  | subscribe name callback _ hrest ih =>
    rw [subscribe_eq]
    exact ih hrest
  | drop name _ hrest ih =>
    rw [drop_eq]
    exact ih hrest
  | @step s _ ih =>
    -- A step leads to rest from the end of the last round or from a panic, and both leave nothing.
    unfold Observable.step at hs ⊢
    split at hs
    · exact ih (by simp [isNotifying, *])
    · exact ih (by simp [isNotifying, *])
    · split at hs
      · next hnil => simp [hnil]
      · simp [beginRound, isNotifying] at hs
    · next value act acts waiting _ =>
      by_cases hact : act = .panic
      · rw [hact]
        rfl
      · have hn : ({ s with phase := .delivering value acts waiting }).isNotifying = true := rfl
        obtain ⟨more, hdone⟩ := performed hn hact
        rw [isNotifying_congr hdone.phase_eq, hn] at hs
        cases hs
    · simp [isNotifying] at hs
    · simp [isNotifying] at hs

end Reachable

end ColorTheme.Observable
