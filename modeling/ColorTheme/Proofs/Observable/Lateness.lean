import ColorTheme.Proofs.Observable.Publication

/-!
# Late subscribers

What a callback hears of the time before its registration.  A round is for one publication, and the
journal tells which: publications wait in the order in which they were made, a round takes the first
one, and a panic discards them all.  A callback may hear of a publication that was waiting when it
was registered, and otherwise of those alone that came after its registration.
-/

namespace ColorTheme.Observable

variable {κ ν : Type}

/-! ### Publications that wait -/

/-- A publication, and all that had happened before it, the last first. -/
structure Publication (κ ν : Type) where
  value : ν
  past : List (Event κ ν)

/-- The publications that wait for their round after what a journal tells. -/
def awaiting : List (Event κ ν) → List (Publication κ ν)
  | [] => []
  | .published value :: j => awaiting j ++ [⟨value, j⟩]
  | .round .. :: j => (awaiting j).tail
  | .panicked :: _ => []
  | _ :: j => awaiting j

/-- The entry that the round of a journal calls after `skipped` others, and the publication that the
round is for. -/
def nextCall? (skipped : Nat) : List (Event κ ν) → Option (Entry κ × Publication κ ν)
  | [] => none
  | .round _ entries :: j => do
    let entry ← entries[skipped]?
    let p ← (awaiting j).head?
    return (entry, p)
  | .called .. :: j => nextCall? (skipped + 1) j
  | _ :: j => nextCall? skipped j

/-- Nothing that begins or ends a round, and no call. -/
def Event.isQuiet : Event κ ν → Bool
  | .subscribed _ | .dropped _ => true
  | _ => false

section Quiet

variable {more : List (Event κ ν)} (j : List (Event κ ν))

theorem awaiting_quiet (h : ∀ e ∈ more, e.isQuiet = true) :
    awaiting (more ++ j) = awaiting j := by
  induction more with
  | nil => rfl
  | cons e more ih =>
    have ih := ih fun e he => h e (List.mem_cons_of_mem _ he)
    have he := h e List.mem_cons_self
    cases e <;> simp_all [Event.isQuiet, awaiting]

theorem nextCall?_quiet (h : ∀ e ∈ more, e.isQuiet = true) (skipped : Nat) :
    nextCall? skipped (more ++ j) = nextCall? skipped j := by
  induction more with
  | nil => rfl
  | cons e more ih =>
    have ih := ih fun e he => h e (List.mem_cons_of_mem _ he)
    have he := h e List.mem_cons_self
    cases e <;> simp_all [Event.isQuiet, nextCall?]

end Quiet

theorem published_of_mem_awaiting {j : List (Event κ ν)} {p : Publication κ ν}
    (h : p ∈ awaiting j) : .published p.value :: p.past <:+ j := by
  induction j with
  | nil => simp [awaiting] at h
  | cons e j ih =>
    have hlater (h : p ∈ awaiting j) : .published p.value :: p.past <:+ e :: j :=
      (ih h).trans (List.suffix_cons e j)
    cases e with
    | published value =>
      rw [awaiting, List.mem_append, List.mem_singleton] at h
      rcases h with h | rfl
      · exact hlater h
      · exact List.suffix_refl _
    | round => exact hlater (List.mem_of_mem_tail h)
    | panicked => simp [awaiting] at h
    | _ => exact hlater h

theorem mem_awaiting_append {later j : List (Event κ ν)} {p : Publication κ ν}
    (h : p ∈ awaiting (later ++ j)) : p ∈ awaiting j ∨ j <:+ p.past := by
  induction later with
  | nil => exact .inl h
  | cons e later ih =>
    cases e with
    | published value =>
      rw [List.cons_append, awaiting, List.mem_append, List.mem_singleton] at h
      rcases h with h | rfl
      · exact ih h
      · exact .inr (List.suffix_append later j)
    | round => exact ih (List.mem_of_mem_tail h)
    | panicked => simp [awaiting] at h
    | _ => exact ih h

/-! ### What is in time -/

/-- The entry was registered before the publication, or while it was waiting. -/
def InTime (j : List (Event κ ν)) (entry : Entry κ) (p : Publication κ ν) : Prop :=
  ∃ later earlier, j = later ++ .subscribed entry :: earlier ∧
    (.subscribed entry ∈ p.past ∨ p ∈ awaiting earlier)

theorem InTime.later {j : List (Event κ ν)} {entry : Entry κ} {p : Publication κ ν}
    (h : InTime j entry p) (more : List (Event κ ν)) : InTime (more ++ j) entry p := by
  obtain ⟨later, earlier, rfl, hp⟩ := h
  exact ⟨more ++ later, earlier, (List.append_assoc ..).symm, hp⟩

/-- Whoever is registered when the round of a publication begins is in time for it. -/
theorem inTime_of_registered {j : List (Event κ ν)} {entry : Entry κ} {p : Publication κ ν}
    (hentry : .subscribed entry ∈ j) (hp : p ∈ awaiting j) : InTime j entry p := by
  obtain ⟨later, earlier, rfl⟩ := List.append_of_mem hentry
  refine ⟨later, earlier, rfl, ?_⟩
  rcases mem_awaiting_append hp with hwaits | hpast
  · exact .inr hwaits
  · exact .inl (hpast.subset List.mem_cons_self)

/-- After what the journal tells it is time to call the callback with the value. -/
def IsDue (j : List (Event κ ν)) (callback : κ) (value : ν) : Prop :=
  ∃ entry p, nextCall? 0 j = some (entry, p) ∧ entry.callback = callback ∧ p.value = value ∧
    .published p.value :: p.past <:+ j ∧ InTime j entry p

/-! ### One step -/

/-- The journal tells what waits, and all calls that it tells of were due, as are those that the
round still owes. -/
structure Orderly (s : Observable κ ν) : Prop where
  waits : (awaiting s.journal).map Publication.value = s.pending
  called : ∀ callback value current j, .called callback value current :: j <:+ s.journal →
    IsDue j callback value
  owed : ∀ w acts waiting, s.phase = .delivering w acts waiting →
    ∃ p, p.value = w ∧ .published p.value :: p.past <:+ s.journal ∧
      (∀ i, nextCall? i s.journal = waiting[i]?.map (·, p)) ∧
      ∀ entry ∈ waiting, InTime s.journal entry p

namespace Orderly

variable {behavior : Behavior κ ν} {s t : Observable κ ν}

theorem new (value : ν) : Orderly (Observable.new value : Observable κ ν) := by
  constructor <;> simp [Observable.new, awaiting]

theorem called_append (h : Orderly s) (more : List (Event κ ν))
    (hmore : ∀ e ∈ more, e.called? = none) :
    ∀ callback value current j, .called callback value current :: j <:+ more ++ s.journal →
      IsDue j callback value := by
  induction more with
  | nil => exact h.called
  | cons e more ih =>
    intro callback value current j hj
    rcases List.suffix_cons_iff.1 hj with heq | hj
    · have he := hmore e List.mem_cons_self
      obtain ⟨rfl, -⟩ := List.cons.inj heq
      cases he
    · exact ih (fun e he => hmore e (List.mem_cons_of_mem _ he)) _ _ _ _ hj

theorem quiet (h : Orderly s) (more : List (Event κ ν)) (hmore : ∀ e ∈ more, e.isQuiet = true)
    (hjournal : t.journal = more ++ s.journal) (hpending : t.pending = s.pending)
    (hphase : t.phase = s.phase) : Orderly t where
  waits := by rw [hjournal, awaiting_quiet _ hmore, hpending, h.waits]
  called := by
    rw [hjournal]
    refine h.called_append more fun e he => ?_
    have := hmore e he
    cases e <;> simp_all [Event.isQuiet, Event.called?]
  owed := by
    intro w acts waiting hw
    obtain ⟨p, hvalue, hpast, hnext, hin⟩ := h.owed w acts waiting (hphase ▸ hw)
    rw [hjournal]
    refine ⟨p, hvalue, hpast.trans (List.suffix_append more _), fun i => ?_, fun e he => ?_⟩
    · rw [nextCall?_quiet _ hmore, hnext]
    · exact (hin e he).later more

theorem drop (h : Orderly s) (name : String) : Orderly (s.drop name) := by
  rw [drop_eq]
  exact h.quiet ((s.endedBy name).map .dropped) (by simp [Event.isQuiet]) rfl rfl rfl

theorem subscribe (h : Orderly s) (name : String) (callback : κ) :
    Orderly (s.subscribe name callback) := by
  rw [subscribe_eq]
  refine h.quiet ((s.endedBy name).map .dropped ++ [.subscribed ⟨s.nextSerial, callback⟩])
    ?_ (by simp) rfl rfl
  simp [or_imp, forall_and, Event.isQuiet]

theorem publish (h : Orderly s) (value : ν) : Orderly (s.publish value) where
  waits := by simp [Observable.publish, awaiting, h.waits]
  called := h.called_append [.published value] (by simp [Event.called?])
  owed := by
    intro w acts waiting hw
    have hn : s.phase = .delivering w acts waiting := by
      unfold Observable.publish at hw
      split at hw
      · exact hw
      · cases hw
    obtain ⟨p, hvalue, hpast, hnext, hin⟩ := h.owed w acts waiting hn
    exact ⟨p, hvalue, hpast.trans (List.suffix_cons _ _), hnext,
      fun e he => (hin e he).later [.published value]⟩

theorem panic (h : Orderly s) : Orderly s.panic where
  waits := rfl
  called := h.called_append [.panicked] (by simp [Event.called?])
  owed := nofun

theorem perform (h : Orderly s) (act : Act κ ν) : Orderly (s.perform act) := by
  cases act with
  | publish value => exact h.publish value
  | subscribe name callback => exact h.subscribe name callback
  | drop name => exact h.drop name
  | panic => exact h.panic

theorem beginRound (h : Orderly s) (hs : Coherent s) {value : ν} {rest : List ν}
    (hpending : s.pending = value :: rest) : Orderly (s.beginRound value rest) := by
  have hwaits := h.waits
  rw [hpending] at hwaits
  obtain ⟨p, ps, hp, hvalue, hrest⟩ := List.map_eq_cons_iff.1 hwaits
  have hmem : p ∈ awaiting s.journal := by rw [hp]; exact List.mem_cons_self
  refine ⟨?_, h.called_append [.round value _] (by simp [Event.called?]), ?_⟩
  · simp [Observable.beginRound, awaiting, hp, hrest]
  · intro w acts waiting hw
    obtain ⟨rfl, -, rfl⟩ := Phase.delivering.inj hw
    refine ⟨p, hvalue, (published_of_mem_awaiting hmem).trans (List.suffix_cons _ _), fun i => ?_,
      fun e he => ?_⟩
    · simp only [Observable.beginRound, nextCall?, hp]
      cases (s.entries.filter fun e => s.isHeld e.serial)[i]? <;> rfl
    · have he := hs.sublist.subset (List.mem_filter.1 he).1
      have hsubscribed : .subscribed e ∈ s.journal :=
        List.mem_reverse.1 (mem_registrations_iff.1 he)
      exact (inTime_of_registered hsubscribed hmem).later [_]

theorem call (h : Orderly s) {w : ν} {entry : Entry κ} {waiting : List (Entry κ)}
    (hphase : s.phase = .delivering w [] (entry :: waiting)) (acts : List (Act κ ν)) :
    Orderly { s with
      phase := .delivering w acts waiting
      journal := .called entry.callback w s.value :: s.journal } := by
  obtain ⟨p, hvalue, hpast, hnext, hin⟩ := h.owed _ _ _ hphase
  refine ⟨h.waits, ?_, ?_⟩
  · intro callback value current j hj
    rcases List.suffix_cons_iff.1 hj with heq | hj
    · obtain ⟨hcalled, rfl⟩ := List.cons.inj heq
      obtain ⟨rfl, rfl, -⟩ := Event.called.inj hcalled
      exact ⟨entry, p, hnext 0, rfl, hvalue, hpast, hin entry List.mem_cons_self⟩
    · exact h.called _ _ _ _ hj
  · intro w' acts' waiting' hw
    obtain ⟨rfl, -, rfl⟩ := Phase.delivering.inj hw
    refine ⟨p, hvalue, hpast.trans (List.suffix_cons _ _), fun i => hnext (i + 1), fun e he => ?_⟩
    exact (hin e (List.mem_cons_of_mem _ he)).later [_]

theorem step (h : Orderly s) (hs : Coherent s) (behavior : Behavior κ ν) :
    Orderly (s.step behavior) := by
  unfold Observable.step
  split
  · exact h
  · exact h
  · split
    · exact ⟨h.waits, h.called, nofun⟩
    · next hpending => exact h.beginRound hs hpending
  · next w act acts waiting hphase =>
    have hgoes : Orderly { s with phase := .delivering w acts waiting } := by
      refine ⟨h.waits, h.called, fun w' acts' waiting' hw => ?_⟩
      obtain ⟨rfl, -, rfl⟩ := Phase.delivering.inj hw
      exact h.owed _ _ _ hphase
    exact hgoes.perform act
  · next hphase => exact h.call hphase _
  · exact ⟨h.waits, h.called, nofun⟩

end Orderly

theorem Reachable.orderly {behavior : Behavior κ ν} {s : Observable κ ν}
    (h : Reachable behavior s) : Orderly s := by
  induction h with
  | new value => exact .new value
  | publish value _ _ ih => exact ih.publish value
  | subscribe name callback _ _ ih => exact ih.subscribe name callback
  | drop name _ _ ih => exact ih.drop name
  | step hs ih => exact ih.step hs.coherent _

/-! ### All calls -/

theorem awaiting_of_rest {behavior : Behavior κ ν} {s : Observable κ ν} (hs : Reachable behavior s)
    (hrest : s.isNotifying = false) : awaiting s.journal = [] := by
  have hwaits := hs.orderly.waits
  rw [hs.pending_eq_nil hrest] at hwaits
  exact List.map_eq_nil_iff.1 hwaits

theorem Coherent.not_mem_of_subscribed {s : Observable κ ν} (h : Coherent s) {entry : Entry κ}
    {later earlier : List (Event κ ν)} (hj : later ++ .subscribed entry :: earlier <:+ s.journal) :
    .subscribed entry ∉ earlier := by
  intro hmem
  obtain ⟨front, hfront⟩ := hj
  have hordered := h.ordered
  rw [history, ← hfront] at hordered
  simp only [List.reverse_append, List.reverse_cons, List.append_assoc, registrations_append,
    List.pairwise_append] at hordered
  have hmem' : entry ∈ registrations earlier.reverse :=
    mem_registrations_iff.2 (List.mem_reverse.2 hmem)
  have hlt := hordered.2.2 entry hmem' entry (by simp [registrations, Event.subscribed?])
  exact Nat.lt_irrefl _ hlt

/-- **Late subscribers.**  Every call is for a publication, and to an entry that was registered before
it.  The entry was registered before the publication too, unless the publication was waiting for its
round at that moment; then it hears of a value that was published before.  Outside of a delivery
nothing waits. -/
theorem heard_of_past_iff {behavior : Behavior κ ν} {s : Observable κ ν}
    (hs : Reachable behavior s) :
    (s.isNotifying = false → awaiting s.journal = []) ∧
      ∀ callback value current j, .called callback value current :: j <:+ s.journal →
        ∃ entry p later earlier, nextCall? 0 j = some (entry, p) ∧
          entry.callback = callback ∧ p.value = value ∧
          .published p.value :: p.past <:+ j ∧ j = later ++ .subscribed entry :: earlier ∧
          (.subscribed entry ∈ p.past ↔ p ∉ awaiting earlier) := by
  refine ⟨awaiting_of_rest hs, fun callback value current j hj => ?_⟩
  obtain ⟨entry, p, hnext, hcallback, hvalue, hpast, later, earlier, rfl, hin⟩ :=
    hs.orderly.called _ _ _ _ hj
  refine ⟨entry, p, later, earlier, hnext, hcallback, hvalue, hpast, rfl, fun hbefore hwaits => ?_,
    fun hnot => hin.resolve_right hnot⟩
  -- What waits was published before; the registration would have to be older than itself.
  have hold : p.past <:+ earlier :=
    (List.suffix_cons _ _).trans (published_of_mem_awaiting hwaits)
  have honce := hs.coherent.not_mem_of_subscribed ((List.suffix_cons _ _).trans hj)
  exact honce (hold.subset hbefore)

/-- The subscriber answers the value 1 with a publication and then with a registration. -/
def welcoming : Observable Subscriber Int :=
  (new 0).subscribe "first" ⟨"first", [(⟨some 1, none⟩, .publish 2),
    (⟨some 1, none⟩, .subscribe "late" [])]⟩

theorem reachable_welcoming : Reachable Subscriber.behavior welcoming :=
  (Reachable.new 0).subscribe "first" _ rfl

/-- The late subscriber is called with 2, which was waiting when it was registered. -/
theorem heard_of_past_iff_welcoming :
    let t := run Subscriber.behavior 8 (welcoming.publish 1)
    Reachable Subscriber.behavior t ∧ .called ⟨"late", []⟩ 2 2 :: t.journal.tail <:+ t.journal ∧
      ∃ entry p later earlier, nextCall? 0 t.journal.tail = some (entry, p) ∧ p.value = 2 ∧
        t.journal.tail = later ++ .subscribed entry :: earlier ∧ p ∈ awaiting earlier := by
  intro t
  have ht : Reachable Subscriber.behavior t := (reachable_welcoming.publish 1 rfl).run 8
  have hcall : .called ⟨"late", []⟩ 2 2 :: t.journal.tail <:+ t.journal := ⟨[], rfl⟩
  refine ⟨ht, hcall, ?_⟩
  obtain ⟨entry, p, later, earlier, hnext, -, hvalue, -, hj, hiff⟩ :=
    (heard_of_past_iff ht).2 _ _ _ _ hcall
  refine ⟨entry, p, later, earlier, hnext, hvalue, hj, ?_⟩
  by_contra hwaits
  have hserial : entry.serial ∈ (registrations p.past).map Entry.serial :=
    List.mem_map_of_mem (List.mem_filterMap.2 ⟨_, hiff.2 hwaits, rfl⟩)
  obtain ⟨rfl, rfl⟩ := Prod.mk.inj (Option.some.inj hnext)
  exact absurd hserial (by decide)

/-- **A late subscriber hears of the past.**  Not every call is for a publication that was made after
the registration of the entry that is called. -/
theorem hears_of_past : ¬ ∀ s : Observable Subscriber Int, Reachable Subscriber.behavior s →
    ∀ callback value current j, .called callback value current :: j <:+ s.journal →
      ∀ entry p, nextCall? 0 j = some (entry, p) → .subscribed entry ∈ p.past := by
  intro h
  have ht := (reachable_welcoming.publish 1 rfl).run 8
  have hmem := h _ ht ⟨"late", []⟩ 2 2 _ ⟨[], rfl⟩ _ _ rfl
  have hserial := List.mem_map_of_mem (f := Entry.serial)
    (List.mem_filterMap.2 ⟨_, hmem, (rfl : Event.subscribed? _ = _)⟩)
  exact absurd hserial (by decide)

end ColorTheme.Observable
