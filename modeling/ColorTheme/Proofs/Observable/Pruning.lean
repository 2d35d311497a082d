import ColorTheme.Proofs.Observable.Publication

/-!
# Entries that are pruned

An entry whose subscription has ended stays in the list until the next round begins, and no longer.
What the list holds can thus be told from the last round: the entries that the round is for, and behind
them those that were registered since.  Nothing but the beginning of a round takes an entry away.
-/

namespace ColorTheme.Observable

variable {κ ν : Type}

/-! ### Before and since the last round -/

/-- The entries that a round is for. -/
def Event.entries? : Event κ ν → Option (List (Entry κ))
  | .round _ entries => some entries
  | _ => none

/-- What has happened since the last round began, or at all if none has begun; the first first. -/
def sinceRound (s : Observable κ ν) : List (Event κ ν) := (s.journal.takeWhile (!·.isRound)).reverse

/-- What had happened when the last round began, or nothing if none has begun; the first first. -/
def beforeRound (s : Observable κ ν) : List (Event κ ν) :=
  (s.journal.dropWhile (!·.isRound)).tail.reverse

/-- The entries that the last round is for; none before the first round. -/
def snapshot (s : Observable κ ν) : List (Entry κ) :=
  (s.journal.findSome? Event.entries?).getD []

section Later

variable {s t : Observable κ ν} {more : List (Event κ ν)}

theorem sinceRound_append (hjournal : t.journal = more ++ s.journal)
    (hmore : ∀ e ∈ more, e.isRound = false) : t.sinceRound = s.sinceRound ++ more.reverse := by
  have hall : ∀ e ∈ more, (!e.isRound) = true := fun e he => by rw [hmore e he, Bool.not_false]
  rw [sinceRound, hjournal, List.takeWhile_append_of_pos hall, List.reverse_append, ← sinceRound]

theorem beforeRound_append (hjournal : t.journal = more ++ s.journal)
    (hmore : ∀ e ∈ more, e.isRound = false) : t.beforeRound = s.beforeRound := by
  have hall : ∀ e ∈ more, (!e.isRound) = true := fun e he => by rw [hmore e he, Bool.not_false]
  rw [beforeRound, hjournal, List.dropWhile_append_of_pos hall, ← beforeRound]

theorem snapshot_append (hjournal : t.journal = more ++ s.journal)
    (hmore : ∀ e ∈ more, e.isRound = false) : t.snapshot = s.snapshot := by
  have hnone : more.findSome? Event.entries? = none := by
    rw [List.findSome?_eq_none_iff]
    intro e he
    have := hmore e he
    cases e <;> simp_all [Event.isRound, Event.entries?]
  rw [snapshot, hjournal, List.findSome?_append, hnone, Option.none_or, ← snapshot]

end Later

theorem registrations_history (s : Observable κ ν) :
    registrations s.history = registrations s.beforeRound ++ registrations s.sinceRound := by
  have hsplit := congrArg List.reverse
    (List.takeWhile_append_dropWhile (p := fun e : Event κ ν => !e.isRound) (l := s.journal))
  rw [List.reverse_append] at hsplit
  rw [history, ← hsplit, registrations_append, sinceRound, beforeRound]
  congr 1
  cases hrest : s.journal.dropWhile (!·.isRound) with
  | nil => rfl
  | cons e earlier =>
    have hround : (!e.isRound) = false := by
      have hhead := List.head?_dropWhile_not (fun e : Event κ ν => !e.isRound) s.journal
      rwa [hrest] at hhead
    rw [List.reverse_cons, registrations_append, List.tail_cons]
    cases e <;> simp_all [Event.isRound, registrations, Event.subscribed?]

/-- What happened before a round that has begun happened before the last one. -/
theorem mem_beforeRound {s : Observable κ ν} {later earlier : List (Event κ ν)} {e : Event κ ν}
    (hjournal : s.journal = later ++ earlier) (hlater : ¬ ∀ e ∈ later, e.isRound = false)
    (he : e ∈ earlier) : e ∈ s.beforeRound := by
  have hrest : later.dropWhile (!·.isRound) ≠ [] := by
    rw [ne_eq, List.dropWhile_eq_nil_iff]
    simpa using hlater
  obtain ⟨r, rest, hr⟩ := List.exists_cons_of_ne_nil hrest
  rw [beforeRound, hjournal, List.dropWhile_append, hr]
  simp [he]

theorem Coherent.eq_of_serial {s : Observable κ ν} (hs : Coherent s) {e e' : Entry κ}
    (he : e ∈ registrations s.history) (he' : e' ∈ registrations s.history)
    (hserial : e.serial = e'.serial) : e = e' :=
  List.inj_on_of_nodup_map ((List.pairwise_map.2 hs.ordered).imp Nat.ne_of_lt) he he' hserial

theorem Coherent.exists_subscribed {s : Observable κ ν} (hs : Coherent s) {name : String}
    {serial : Nat} (hmem : (.dropped serial : Event κ ν) ∈ (s.endedBy name).map .dropped) :
    ∃ e, .subscribed e ∈ s.journal ∧ e.serial = serial := by
  obtain ⟨serial', hended, heq⟩ := List.mem_map.1 hmem
  obtain rfl := Event.dropped.inj heq
  obtain ⟨e, he, hserial⟩ := hs.registered _ (hs.mem_endedBy_iff.1 hended)
  exact ⟨e, List.mem_reverse.1 (mem_registrations_iff.1 he), hserial⟩

/-! ### The invariant -/

/-- What is in the list, and why: it has grown at its end only since the last round began. -/
structure Pruned (s : Observable κ ν) : Prop where
  snapshot_eq : s.snapshot = live s.beforeRound
  entries_eq : s.entries = s.snapshot ++ registrations s.sinceRound
  /-- A subscription ends after it has begun. -/
  registered : ∀ serial earlier, .dropped serial :: earlier <:+ s.journal →
    ∃ e, .subscribed e ∈ earlier ∧ e.serial = serial

namespace Pruned

variable {s t : Observable κ ν}

theorem new (value : ν) : Pruned (Observable.new value : Observable κ ν) := by
  constructor <;> simp [Observable.new, snapshot, beforeRound, sinceRound, live, registrations]

/-- Something happens that is no round, and what is registered comes to the end of the list. -/
theorem append (h : Pruned s) (more : List (Event κ ν)) (hjournal : t.journal = more ++ s.journal)
    (hmore : ∀ e ∈ more, e.isRound = false)
    (hentries : t.entries = s.entries ++ registrations more.reverse)
    (hended : ∀ serial, .dropped serial ∈ more → ∃ e, .subscribed e ∈ s.journal ∧ e.serial = serial) :
    Pruned t where
  snapshot_eq := by
    rw [snapshot_append hjournal hmore, beforeRound_append hjournal hmore, h.snapshot_eq]
  entries_eq := by
    rw [hentries, h.entries_eq, snapshot_append hjournal hmore, sinceRound_append hjournal hmore,
      registrations_append, List.append_assoc]
  registered := by
    intro serial earlier hsuffix
    rw [hjournal] at hsuffix
    rcases List.suffix_or_suffix_of_suffix hsuffix (List.suffix_append more s.journal) with hold | hnew
    · exact h.registered serial earlier hold
    rcases List.suffix_cons_iff.1 hnew with heq | ⟨middle, hmiddle⟩
    · exact h.registered serial earlier (heq ▸ List.suffix_refl _)
    · -- The subscription has ended just now, when its entry was there already.
      obtain ⟨front, hfront⟩ := hsuffix
      rw [← hmiddle, ← List.cons_append, ← List.append_assoc, List.append_cancel_right_eq] at hfront
      have hmem : .dropped serial ∈ more := by simp [← hfront]
      obtain ⟨e, he, hserial⟩ := hended serial hmem
      exact ⟨e, hmiddle ▸ List.mem_append_right middle he, hserial⟩

theorem congr (h : Pruned s) (hjournal : t.journal = s.journal) (hentries : t.entries = s.entries) :
    Pruned t :=
  h.append [] hjournal (by simp) (by simp [hentries, registrations]) (by simp)

theorem record (h : Pruned s) {e : Event κ ν} (hjournal : t.journal = e :: s.journal)
    (hentries : t.entries = s.entries) (hround : e.isRound = false) (hquiet : e.subscribed? = none)
    (hended : e.dropped? = none) : Pruned t := by
  refine h.append [e] hjournal (by simpa using hround) ?_ ?_
  · simp [hentries, registrations, hquiet]
  · intro serial hmem
    obtain rfl := List.mem_singleton.1 hmem
    cases hended

theorem drop (h : Pruned s) (hs : Coherent s) (name : String) : Pruned (s.drop name) := by
  rw [drop_eq]
  refine h.append ((s.endedBy name).map .dropped) rfl (by simp [Event.isRound])
    (by simp [← List.map_reverse]) ?_
  exact fun serial hmem => hs.exists_subscribed hmem

theorem subscribe (h : Pruned s) (hs : Coherent s) (name : String) (callback : κ) :
    Pruned (s.subscribe name callback) := by
  rw [subscribe_eq]
  refine h.append ((s.endedBy name).map .dropped ++ [.subscribed ⟨s.nextSerial, callback⟩])
    (by simp) ?_ ?_ ?_
  · simp [or_imp, forall_and, Event.isRound]
  · simp [← List.map_reverse]
  · intro serial hmem
    rcases List.mem_append.1 hmem with hmem | hmem
    · exact hs.exists_subscribed hmem
    · cases List.mem_singleton.1 hmem

theorem perform (h : Pruned s) (hs : Coherent s) (act : Act κ ν) : Pruned (s.perform act) := by
  cases act with
  | publish value => exact h.record rfl rfl rfl rfl rfl
  | subscribe name callback => exact h.subscribe hs name callback
  | drop name => exact h.drop hs name
  | panic => exact h.record rfl rfl rfl rfl rfl

/-- A round that begins takes away all entries but those whose subscription is held. -/
theorem beginRound (h : Pruned s) (hs : Coherent s) (value : ν) (rest : List ν) :
    Pruned (s.beginRound value rest) where
  snapshot_eq := hs.entries_held
  entries_eq := (List.append_nil _).symm
  registered := by
    intro serial earlier hsuffix
    rcases List.suffix_cons_iff.1 hsuffix with heq | hsuffix
    · cases (List.cons.inj heq).1
    · exact h.registered serial earlier hsuffix

/-- **One step of a delivery.** -/
theorem step (h : Pruned s) (hs : Coherent s) (behavior : Behavior κ ν) :
    Pruned (s.step behavior) := by
  unfold Observable.step
  split
  · exact h
  · exact h
  · split
    · exact h.congr rfl rfl
    · exact h.beginRound hs _ _
  · next value act acts waiting _ =>
    have hgoes : Pruned { s with phase := .delivering value acts waiting } := h.congr rfl rfl
    exact hgoes.perform (hs.congr (List.append_nil _).symm rfl rfl rfl rfl rfl) act
  · exact h.record rfl rfl rfl rfl rfl
  · exact h.congr rfl rfl

/-! ### What stays in the list -/

/-- **What stays has ended lately**: its subscription has begun and then ended, and no round has begun
since. -/
theorem dropped_since (h : Pruned s) (hs : Coherent s) {e : Entry κ} (he : e ∈ s.entries)
    (hgone : s.isHeld e.serial = false) :
    ∃ later earlier, s.journal = later ++ .dropped e.serial :: earlier ∧ .subscribed e ∈ earlier ∧
      ∀ ev ∈ later, ev.isRound = false := by
  have hregistered := hs.sublist.subset he
  have hended : e.serial ∈ endings s.history := by
    by_contra hnot
    rw [(hs.held_iff e hregistered).2 hnot] at hgone
    cases hgone
  obtain ⟨later, earlier, hjournal⟩ :=
    List.append_of_mem (List.mem_reverse.1 (mem_endings_iff.1 hended))
  obtain ⟨e', he', hserial⟩ := h.registered e.serial earlier ⟨later, hjournal.symm⟩
  have hin : .subscribed e' ∈ s.journal := by simp [hjournal, he']
  obtain rfl : e' = e :=
    hs.eq_of_serial (mem_registrations_iff.2 (List.mem_reverse.2 hin)) hregistered hserial
  refine ⟨later, earlier, hjournal, he', ?_⟩
  by_contra hlater
  -- A round would have taken the entry away, and nobody registers it again.
  have hdropped := mem_beforeRound hjournal hlater List.mem_cons_self
  have hsubscribed := mem_beforeRound hjournal hlater (List.mem_cons_of_mem _ he')
  rw [h.entries_eq, h.snapshot_eq, List.mem_append] at he
  rcases he with he | he
  · obtain ⟨-, hnot⟩ := List.mem_filter.1 he
    exact of_decide_eq_true hnot (mem_endings_iff.2 hdropped)
  · have hordered := hs.ordered
    rw [registrations_history, List.pairwise_append] at hordered
    exact Nat.lt_irrefl _ (hordered.2.2 _ (mem_registrations_iff.2 hsubscribed) _ he)

end Pruned

theorem Reachable.pruned {behavior : Behavior κ ν} {s : Observable κ ν}
    (h : Reachable behavior s) : Pruned s := by
  induction h with
  | new value => exact .new value
  | publish value hs _ ih => exact ih.perform hs.coherent (.publish value)
  | subscribe name callback hs _ ih => exact ih.subscribe hs.coherent name callback
  | drop name hs _ ih => exact ih.drop hs.coherent name
  | step hs ih => exact ih.step hs.coherent _

/-! ### References -/

/-- The callbacks that the round which is on has taken; they live until it is over. -/
def taken (s : Observable κ ν) : List (Entry κ) :=
  match s.phase with
  | .delivering .. => s.snapshot
  | _ => []

/-- How many references there are to a callback: its subscription, if it is held, and the round that is
on, if it is for it. -/
def references (s : Observable κ ν) (serial : Nat) : Nat :=
  s.held.countP (·.2 = serial) + s.taken.countP (·.serial = serial)

/-- Between two rounds the subscriptions are the only references. -/
theorem references_pos_iff {s : Observable κ ν} (hphase : s.phase = .draining) (serial : Nat) :
    0 < s.references serial ↔ s.isHeld serial = true := by
  rw [references, taken, hphase, List.countP_nil, Nat.add_zero, List.countP_pos_iff, isHeld_iff]
  simp

/-! ### All states -/

theorem Coherent.count_serial {s : Observable κ ν} (hs : Coherent s) {p : String × Nat}
    (hp : p ∈ s.held) : (s.entries.map Entry.serial).count p.2 = 1 := by
  obtain ⟨e, he, hserial⟩ := hs.registered p hp
  have hheld : s.isHeld e.serial = true := isHeld_iff.2 ⟨p, hp, hserial.symm⟩
  have hlive : e ∈ s.entries.filter fun e => s.isHeld e.serial := by
    rw [hs.entries_held]
    exact List.mem_filter.2 ⟨he, decide_eq_true ((hs.held_iff e he).1 hheld)⟩
  have hnodup : (s.entries.map Entry.serial).Nodup :=
    (List.pairwise_map.2 hs.entries_ordered).imp Nat.ne_of_lt
  refine List.count_eq_one_of_mem hnodup ?_
  rw [← hserial]
  exact List.mem_map_of_mem (List.mem_of_mem_filter hlive)

/-- **No entry is lost, and none stays for long.**  In every state, at rest or inside a delivery, the
entries are in the order of the registrations.  Those whose subscription is held are the ones that the
history names, and each such subscription has one entry.  Of any other entry the subscription has ended
after it began and since the last round began.  The list is that of the last round and what was
registered since, so its length is that of the subscriptions which were held then and the registrations
since.  When a round begins, it is for all entries that are referred to, and these are what the list
holds then. -/
theorem entries_pruned {behavior : Behavior κ ν} {s : Observable κ ν} (hs : Reachable behavior s) :
    s.entries.Sublist (registrations s.history) ∧
      (s.entries.Pairwise fun a b => a.serial < b.serial) ∧
      (s.entries.filter fun e => s.isHeld e.serial) = live s.history ∧
      (∀ p ∈ s.held, (s.entries.map Entry.serial).count p.2 = 1) ∧
      (∀ e ∈ s.entries, s.isHeld e.serial = false →
        ∃ later earlier, s.journal = later ++ .dropped e.serial :: earlier ∧
          .subscribed e ∈ earlier ∧ ∀ ev ∈ later, ev.isRound = false) ∧
      s.snapshot = live s.beforeRound ∧
      s.entries = s.snapshot ++ registrations s.sinceRound ∧
      s.entries.length = (live s.beforeRound).length + (registrations s.sinceRound).length ∧
      ∀ value rest, s.phase = .draining → s.pending = value :: rest →
        let t := s.step behavior
        t.phase = .delivering value [] t.snapshot ∧ t.entries = t.snapshot ∧
          t.snapshot = s.entries.filter fun e => 0 < s.references e.serial := by
  have hcoherent := hs.coherent
  have hpruned := hs.pruned
  refine ⟨hcoherent.sublist, hcoherent.entries_ordered, hcoherent.entries_held,
    fun p hp => hcoherent.count_serial hp, fun e he hgone => hpruned.dropped_since hcoherent he hgone,
    hpruned.snapshot_eq, hpruned.entries_eq, ?_, ?_⟩
  · rw [hpruned.entries_eq, List.length_append, hpruned.snapshot_eq]
  · intro value rest hphase hpending t
    have ht : t = s.beginRound value rest := by simp [t, step, hphase, hpending]
    rw [ht]
    refine ⟨rfl, rfl, List.filter_congr fun e _ => ?_⟩
    rw [Bool.eq_iff_iff, decide_eq_true_iff, references_pos_iff hphase]

/-- The first callback has performed its acts: the second subscription is ended and its entry still
there, since the round refers to it; the third entry is new. -/
theorem entries_pruned_busy :
    let t := run Subscriber.behavior 5 (busy.publish 1)
    Reachable Subscriber.behavior t ∧ t.isNotifying = true ∧
      t.entries.map (fun e => e.callback.name) = ["first", "second", "third"] ∧
      t.held = [("first", 0), ("third", 2)] ∧ t.references 1 = 1 ∧
      t.entries.length = (live t.beforeRound).length + 1 ∧
      ∃ later earlier, t.journal = later ++ .dropped 1 :: earlier ∧
        ∀ ev ∈ later, ev.isRound = false := by
  intro t
  have ht : Reachable Subscriber.behavior t := (reachable_busy.publish 1 rfl).run 5
  obtain ⟨-, -, -, -, hended, -, -, hlength, -⟩ := entries_pruned ht
  have hmem : (⟨1, ⟨"second", []⟩⟩ : Entry Subscriber) ∈ t.entries := .tail _ (.head _)
  obtain ⟨later, earlier, hjournal, -, hlater⟩ := hended _ hmem rfl
  exact ⟨ht, rfl, rfl, rfl, rfl, hlength, later, earlier, hjournal, hlater⟩

end ColorTheme.Observable
