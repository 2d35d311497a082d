import ColorTheme.Observable.Rules
import ColorTheme.Proofs.Observable.Delivery

/-!
# Publications from rest

The two ways in which a publication outside of a delivery ends.  If it returns, every value that was
published on the way had its round, in the order of the publications, and every round reached those
whose subscription was held when it began.  If a callback gives up, the rounds stop with it; the
values without a round are lost, and the next publication begins anew.
-/

namespace ColorTheme.Observable

variable {κ ν : Type} {behavior : Behavior κ ν} {s t : Observable κ ν} {value : ν}

/-! ### Publications that return -/

/-- **A publication that returns.**  What was published meanwhile is the value and what the callbacks
publish in their answers.  There is one round for each publication, in the order of the
publications; each is complete, and no call is made outside of them.  At the end nothing waits, the
version has grown by the number of publications, and the value is the last one. -/
theorem complete_of_returns (hs : Reachable behavior s) (hrest : s.isNotifying = false)
    (ht : Returns behavior s value t) :
    let evs := t.since s.journal.length
    let rs := rounds s.history evs
    (∃ answers performed, Answered behavior value evs answers performed []) ∧
      rs.map Round.value = publications evs ∧
      (∀ r ∈ rs, r.IsComplete) ∧
      rs.flatMap Round.calls = calls evs ∧
      t.pending = [] ∧ t.isNotifying = false ∧
      t.version = s.version + (publications evs).length ∧
      (publications evs).getLast? = some t.value := by
  obtain ⟨fuel, rfl, hidle⟩ := ht
  intro evs rs
  have h : Course behavior s value evs (run behavior fuel (s.publish value)) :=
    course_of_rest hs hrest fuel
  have hstage := h.stage
  obtain ⟨answers, performed, left, hans, hleft⟩ := h.answered
  rw [hidle] at hstage hleft
  obtain rfl : left = [] := hleft
  cases hstage with
  | idle complete values rest =>
    exact ⟨⟨answers, performed, hans⟩, values, complete, h.calls_eq, rest,
      by simp [isNotifying, hidle], h.version_eq, h.value_eq⟩

/-- Two subscribers.  The first answers the value 1 with a publication, a registration and the end of
the other subscription. -/
def busy : Observable Subscriber Int :=
  ((new 0).subscribe "first" ⟨"first", [(⟨some 1, none⟩, .publish 2),
    (⟨some 1, none⟩, .subscribe "third" []), (⟨some 1, none⟩, .drop "second")]⟩).subscribe
    "second" ⟨"second", []⟩

theorem reachable_busy : Reachable Subscriber.behavior busy :=
  ((Reachable.new 0).subscribe "first" _ rfl).subscribe "second" _ rfl

/-- The second subscriber is still called in the round that ends its subscription, and the third one
from the next round on. -/
theorem complete_of_returns_busy :
    let t := run Subscriber.behavior 12 (busy.publish 1)
    let evs := t.since busy.journal.length
    busy.isNotifying = false ∧ Returns Subscriber.behavior busy 1 t ∧
      (calls evs).map (fun call => (call.1.name, call.2)) =
        [("first", 1), ("second", 1), ("first", 2), ("third", 2)] ∧
      (rounds busy.history evs).map Round.value = [1, 2] ∧
      (∀ r ∈ rounds busy.history evs, r.IsComplete) ∧
      t.pending = [] ∧ t.version = busy.version + 2 ∧ t.value = 2 := by
  intro t evs
  have ht : Returns Subscriber.behavior busy 1 t := ⟨12, rfl, rfl⟩
  have hpub : publications evs = [1, 2] := rfl
  obtain ⟨-, hvalues, hcomplete, -, hpending, -, hversion, hvalue⟩ :=
    complete_of_returns reachable_busy rfl ht
  rw [hpub] at hvalue hvalues hversion
  exact ⟨rfl, ht, rfl, hvalues, hcomplete, hpending, hversion, (Option.some.inj hvalue).symm⟩

/-! ### Publications that are given up -/

/-- Acts that only begin or end subscriptions. -/
def Act.isSubscription : Act κ ν → Bool
  | .subscribe .. | .drop _ => true
  | _ => false

theorem Reachable.subscriptions {u : Observable κ ν} (hu : Reachable behavior u)
    (hrest : u.isNotifying = false) {acts : List (Act κ ν)}
    (hacts : ∀ act ∈ acts, act.isSubscription = true) :
    Reachable behavior (acts.foldl perform u) ∧ (acts.foldl perform u).isNotifying = false := by
  induction acts generalizing u with
  | nil => exact ⟨hu, hrest⟩
  | cons act acts ih =>
    have hact := hacts act List.mem_cons_self
    have hrest' := fun a ha => hacts a (List.mem_cons_of_mem _ ha)
    cases act with
    | subscribe name callback =>
      refine ih (hu.subscribe name callback hrest) ?_ hrest'
      show (u.subscribe name callback).isNotifying = false
      rw [subscribe_eq]
      exact hrest
    | drop name =>
      refine ih (hu.drop name hrest) ?_ hrest'
      show (u.drop name).isNotifying = false
      rw [drop_eq]
      exact hrest
    | _ => simp [Act.isSubscription] at hact

/-- **A publication that is given up.**  The last answer has a panic in it, and nothing behind the
panic was performed.  The rounds are for the first of the values that were published; those before
the last round were complete, and the last one ended with the call that gave up.  At the end nothing
waits, the version has grown by the number of publications, the value is the last one, and the
entries whose subscription is held are those that the history names, in order.  After any
subscriptions that begin or end meanwhile, the first round of the next publication is for its own
value and for all that are subscribed then. -/
theorem cut_short_of_unwinds (hs : Reachable behavior s) (hrest : s.isNotifying = false)
    (ht : Unwinds behavior s value t) :
    let evs := t.since s.journal.length
    let rs := rounds s.history evs
    (∃ answers performed acts, Answered behavior value evs answers performed (.panic :: acts)) ∧
      rs.map Round.value <+: publications evs ∧
      (∃ earlier r last, rs = earlier ++ [r] ∧ (∀ r ∈ earlier, r.IsComplete) ∧ r.EndsAt last) ∧
      rs.flatMap Round.calls = calls evs ∧
      t.pending = [] ∧ t.isNotifying = false ∧
      t.version = s.version + (publications evs).length ∧
      (publications evs).getLast? = some t.value ∧
      (t.entries.filter fun e => t.isHeld e.serial) = live t.history ∧
      (t.entries.Pairwise fun a b => a.serial < b.serial) ∧
      ∀ acts : List (Act κ ν), (∀ act ∈ acts, act.isSubscription = true) →
        ∀ (w : ν) (fuel : Nat),
          let u := acts.foldl perform t
          let u' := run behavior (fuel + 1) (u.publish w)
          ∃ r later, rounds u.history (u'.since u.journal.length) = r :: later ∧
            r.value = w ∧ r.entries = live u.history ∧
            (later ≠ [] ∨ u'.phase = .idle → r.IsComplete) ∧
            (later = [] → u'.phase = .unwound → ∃ last, r.EndsAt last) := by
  obtain ⟨fuel, rfl, hunwound⟩ := ht
  intro evs rs
  have h : Course behavior s value evs (run behavior fuel (s.publish value)) :=
    course_of_rest hs hrest fuel
  have hreach := (hs.publish value hrest).run fuel
  have hrest' : (run behavior fuel (s.publish value)).isNotifying = false := by
    simp [isNotifying, hunwound]
  have hstage := h.stage
  obtain ⟨answers, performed, left, hans, hleft⟩ := h.answered
  rw [hunwound] at hstage hleft
  obtain ⟨acts, rfl⟩ := hleft
  cases hstage with
  | @unwound earlier r last split complete ends values rest =>
    refine ⟨⟨answers, performed, acts, hans⟩, values, ⟨earlier, r, last, split, complete, ends⟩,
      h.calls_eq, rest, hrest', h.version_eq, h.value_eq, hreach.coherent.entries_held,
      hreach.coherent.entries_ordered, ?_⟩
    -- The next publication starts from rest too, whoever has come or gone by then.
    intro acts hacts w fuel' u u'
    obtain ⟨hu, hurest⟩ := hreach.subscriptions hrest' hacts
    obtain ⟨r, later, hsplit, hvalue, hentries⟩ := first_round hu hurest w fuel'
    have hcourse : Course behavior u w (u'.since u.journal.length) u' :=
      course_of_rest hu hurest (fuel' + 1)
    have hnext := hcourse.stage
    rw [hsplit] at hnext
    refine ⟨r, later, hsplit, hvalue, hentries, ?_, ?_⟩
    · rintro (hlater | hidle)
      · exact hnext.complete_of_later hlater
      · rw [hidle] at hnext
        cases hnext with
        | idle complete => exact complete r List.mem_cons_self
    · rintro rfl hend
      rw [hend] at hnext
      cases hnext with
      | @unwound earlier r' last split _ ends =>
        have hsplit' : [] ++ [r] = earlier ++ [r'] := split
        obtain ⟨rfl, hone⟩ := List.append_inj' hsplit' rfl
        exact ⟨last, List.cons.inj hone |>.1 ▸ ends⟩

/-- Three subscribers.  The first two answer the value 1 with publications, and the second gives up
after its own. -/
def faulty : Observable Subscriber Int :=
  (((new 0).subscribe "first" ⟨"first", [(⟨some 1, none⟩, .publish 2)]⟩).subscribe "second"
    ⟨"second", [(⟨some 1, none⟩, .publish 3), (⟨some 1, none⟩, .panic),
      (⟨some 1, none⟩, .publish 4)]⟩).subscribe "third" ⟨"third", []⟩

theorem reachable_faulty : Reachable Subscriber.behavior faulty :=
  (((Reachable.new 0).subscribe "first" _ rfl).subscribe "second" _ rfl).subscribe "third" _ rfl

/-- The third subscriber hears nothing of the value 1, nobody hears of 2 and 3, and the next value
goes to all of them. -/
theorem cut_short_of_unwinds_faulty :
    let t := run Subscriber.behavior 12 (faulty.publish 1)
    let evs := t.since faulty.journal.length
    let u := run Subscriber.behavior 12 (t.publish 5)
    faulty.isNotifying = false ∧ Unwinds Subscriber.behavior faulty 1 t ∧
      (calls evs).map (fun call => (call.1.name, call.2)) = [("first", 1), ("second", 1)] ∧
      publications evs = [1, 2, 3] ∧ (rounds faulty.history evs).map Round.value = [1] ∧
      t.pending = [] ∧ t.isNotifying = false ∧ t.version = faulty.version + 3 ∧ t.value = 3 ∧
      (∃ r later, rounds t.history (u.since t.journal.length) = r :: later ∧ r.value = 5 ∧
        r.entries = live t.history ∧ r.IsComplete) ∧
      (live t.history).map (fun e => e.callback.name) = ["first", "second", "third"] := by
  intro t evs u
  have ht : Unwinds Subscriber.behavior faulty 1 t := ⟨12, rfl, rfl⟩
  have hpub : publications evs = [1, 2, 3] := rfl
  obtain ⟨-, -, -, -, hpending, hrest, hversion, hvalue, -, -, hnext⟩ :=
    cut_short_of_unwinds reachable_faulty rfl ht
  obtain ⟨r, later, hsplit, hr, hentries, hcomplete, -⟩ := hnext [] (by simp) 5 11
  rw [hpub] at hvalue hversion
  exact ⟨rfl, ht, rfl, hpub, rfl, hpending, hrest, hversion, (Option.some.inj hvalue).symm,
    ⟨r, later, hsplit, hr, hentries, hcomplete (.inr rfl)⟩, rfl⟩

end ColorTheme.Observable
