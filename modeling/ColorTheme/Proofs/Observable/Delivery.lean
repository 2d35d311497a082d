import ColorTheme.Proofs.Observable.Reachable

/-!
# Deliveries

What a publication outside of a delivery leads to.  A delivery is followed from event to event: the
rounds that are over were complete, the round that is on has made the calls before the one that
runs, and the values that have had a round, with those that wait for theirs, are the values that
were published.
-/

namespace ColorTheme.Observable

variable {κ ν : Type}

/-! ### Ends of a publication -/

/-- The publication of a value in the state `s` comes to its end in the state `t`. -/
def Returns (behavior : Behavior κ ν) (s : Observable κ ν) (value : ν) (t : Observable κ ν) : Prop :=
  ∃ fuel, run behavior fuel (s.publish value) = t ∧ t.phase = .idle

/-- The publication of a value in the state `s` is given up in the state `t`. -/
def Unwinds (behavior : Behavior κ ν) (s : Observable κ ν) (value : ν) (t : Observable κ ν) : Prop :=
  ∃ fuel, run behavior fuel (s.publish value) = t ∧ t.phase = .unwound

/-! ### How far a delivery has come -/

/-- What the running callback has left to do: its acts from the one on that gave up, or all that the
phase holds. -/
def Phase.Leaves : Phase κ ν → List (Act κ ν) → Prop
  | .idle, left | .draining, left => left = []
  | .delivering _ acts _, left => left = acts
  | .unwound, left => ∃ acts, left = .panic :: acts

/-- How the calls were answered: with the acts of the callbacks, of which some are performed and
some are left.  What was published is the first value and what the performed acts publish. -/
structure Answered (behavior : Behavior κ ν) (value : ν) (evs : List (Event κ ν))
    (answers : List (List (Act κ ν))) (performed left : List (Act κ ν)) : Prop where
  /-- Each answer is what the callback does in some state that is reached. -/
  answers_eq : List.Forall₂ (fun call acts => ∃ s, Reachable behavior s ∧
    behavior call.1 s call.2 = acts) (calls evs) answers
  flatten_eq : answers.flatten = performed ++ left
  not_panic : Act.panic ∉ performed
  publications_eq : publications evs = value :: performed.filterMap Act.published?
  /-- Only the last call can have something left. -/
  suffix : left <:+ answers.getLast?.getD []

/-- The round that is on: those before it are over, and it has called the entries in `done` and
none of those that wait. -/
structure Running (rs : List (Round κ ν)) (w : ν) (acts : List (Act κ ν)) (waiting : List (Entry κ))
    (earlier : List (Round κ ν)) (r : Round κ ν) (done : List (Entry κ)) : Prop where
  split : rs = earlier ++ [r]
  value_eq : r.value = w
  complete : ∀ r ∈ earlier, r.IsComplete
  sound : r.IsSound
  entries_eq : r.entries = done ++ waiting
  calls_eq : r.calls = done.map r.callOf
  /-- Acts that are left are those of an entry that was called. -/
  called : acts ≠ [] → done ≠ []

/-- The rounds of a delivery in each of its phases, with the values that wait. -/
inductive Stage (rs : List (Round κ ν)) (published pending : List ν) : Phase κ ν → Prop
  | idle (complete : ∀ r ∈ rs, r.IsComplete) (values : rs.map Round.value = published)
      (rest : pending = []) : Stage rs published pending .idle
  | draining (complete : ∀ r ∈ rs, r.IsComplete)
      (values : rs.map Round.value ++ pending = published) : Stage rs published pending .draining
  | delivering {w : ν} {acts : List (Act κ ν)} {waiting done : List (Entry κ)}
      {earlier : List (Round κ ν)} {r : Round κ ν} (running : Running rs w acts waiting earlier r done)
      (values : rs.map Round.value ++ pending = published) :
      Stage rs published pending (.delivering w acts waiting)
  | unwound {earlier : List (Round κ ν)} {r : Round κ ν} {last : Entry κ}
      (split : rs = earlier ++ [r]) (complete : ∀ r ∈ earlier, r.IsComplete)
      (ends : r.EndsAt last) (values : rs.map Round.value <+: published) (rest : pending = []) :
      Stage rs published pending .unwound

/-- What the publication of a value in the state `s` has led to in the state `t`, with the events
since. -/
structure Course (behavior : Behavior κ ν) (s : Observable κ ν) (value : ν)
    (evs : List (Event κ ν)) (t : Observable κ ν) : Prop where
  history_eq : t.history = s.history ++ evs
  version_eq : t.version = s.version + (publications evs).length
  value_eq : (publications evs).getLast? = some t.value
  /-- Nothing is called outside of a round. -/
  calls_eq : (rounds s.history evs).flatMap Round.calls = calls evs
  stage : Stage (rounds s.history evs) (publications evs) t.pending t.phase
  answered : ∃ answers performed left, Answered behavior value evs answers performed left ∧
    t.phase.Leaves left

namespace Answered

variable {behavior : Behavior κ ν} {value : ν} {evs more : List (Event κ ν)}
  {answers : List (List (Act κ ν))} {performed left : List (Act κ ν)}

/-- Events that neither publish nor call change nothing. -/
theorem congr (h : Answered behavior value evs answers performed left)
    (hp : publications more = []) (hc : calls more = []) :
    Answered behavior value (evs ++ more) answers performed left :=
  { h with
    answers_eq := by rw [calls_append, hc, List.append_nil]; exact h.answers_eq
    publications_eq := by rw [publications_append, hp, List.append_nil]; exact h.publications_eq }

theorem perform {act : Act κ ν} (h : Answered behavior value evs answers performed (act :: left))
    (hact : act ≠ .panic) (hp : publications more = act.published?.toList)
    (hc : calls more = []) :
    Answered behavior value (evs ++ more) answers (performed ++ [act]) left where
  answers_eq := by rw [calls_append, hc, List.append_nil]; exact h.answers_eq
  flatten_eq := by rw [h.flatten_eq, List.append_assoc]; rfl
  not_panic := by
    rw [List.mem_append, not_or]
    exact ⟨h.not_panic, by simpa using hact.symm⟩
  publications_eq := by
    rw [publications_append, h.publications_eq, hp]
    cases hpub : act.published? <;> simp [hpub]
  suffix := (List.suffix_cons act left).trans h.suffix

theorem call (h : Answered behavior value evs answers performed []) {s : Observable κ ν}
    (hs : Reachable behavior s) (callback : κ) (w current : ν) :
    Answered behavior value (evs ++ [.called callback w current])
      (answers ++ [behavior callback s w]) performed (behavior callback s w) where
  answers_eq := by
    rw [calls_append]
    exact List.rel_append h.answers_eq (.cons ⟨s, hs, rfl⟩ .nil)
  flatten_eq := by simp [h.flatten_eq]
  not_panic := h.not_panic
  publications_eq := by
    rw [publications_append]
    exact (List.append_nil _).trans h.publications_eq
  suffix := by simp

end Answered

namespace Running

variable {past evs more : List (Event κ ν)} {w : ν} {act : Act κ ν} {acts : List (Act κ ν)}
  {entry : Entry κ} {waiting done : List (Entry κ)} {earlier : List (Round κ ν)} {r : Round κ ν}

/-- Something happens in the round, which may be a call to one of those that wait. -/
theorem append (h : Running (rounds past evs) w acts waiting earlier r done)
    (hmore : ∀ e ∈ more, e.isRound = false) {acts' : List (Act κ ν)} {done' waiting' : List (Entry κ)}
    (hentries : done ++ waiting = done' ++ waiting')
    (hcalls : done.map r.callOf ++ calls more = done'.map r.callOf) (hcalled : acts' ≠ [] → done' ≠ []) :
    Running (rounds past (evs ++ more)) w acts' waiting' earlier (r.extend more) done' where
  split := rounds_append hmore h.split
  value_eq := h.value_eq
  complete := h.complete
  sound := ⟨h.sound.entries_eq, h.sound.ordered⟩
  entries_eq := h.entries_eq.trans hentries
  calls_eq := by
    rw [Round.calls_extend, h.calls_eq, hcalls]
    rfl
  called := hcalled

theorem map_value (h : Running (rounds past evs) w acts waiting earlier r done)
    (hmore : ∀ e ∈ more, e.isRound = false) :
    (rounds past (evs ++ more)).map Round.value = (rounds past evs).map Round.value := by
  rw [rounds_append hmore h.split, h.split, List.map_append, List.map_append]
  rfl

theorem flatMap_calls (h : Running (rounds past evs) w acts waiting earlier r done)
    (hmore : ∀ e ∈ more, e.isRound = false) :
    (rounds past (evs ++ more)).flatMap Round.calls =
      (rounds past evs).flatMap Round.calls ++ calls more := by
  rw [rounds_append hmore h.split, h.split]
  simp [Round.calls_extend]

/-- Once all were called the round is complete. -/
theorem complete_of_done {rs : List (Round κ ν)} (h : Running rs w acts [] earlier r done) :
    ∀ r ∈ rs, r.IsComplete := by
  intro r' hr'
  rw [h.split] at hr'
  rcases List.mem_append.1 hr' with hr' | hr'
  · exact h.complete r' hr'
  · rw [List.mem_singleton.1 hr']
    refine ⟨h.sound, ?_⟩
    rw [h.calls_eq, h.entries_eq, List.append_nil]

/-- A callback gives up: it was the last one that was called. -/
theorem endsAt {rs : List (Round κ ν)} (h : Running rs w (act :: acts) waiting earlier r done) :
    ∃ last, r.EndsAt last := by
  have hdone : done ≠ [] := h.called (by simp)
  have hlast := List.dropLast_concat_getLast hdone
  refine ⟨done.getLast hdone, h.sound, done.dropLast, waiting, ?_, ?_⟩
  · rw [h.entries_eq, List.append_cons, hlast]
  · rw [hlast, h.calls_eq]

end Running

/-- A round that another one follows was complete. -/
theorem Stage.complete_of_later {published pending : List ν} {phase : Phase κ ν} {r : Round κ ν}
    {later : List (Round κ ν)} (h : Stage (r :: later) published pending phase)
    (hlater : later ≠ []) : r.IsComplete := by
  have hearlier {earlier : List (Round κ ν)} {r' : Round κ ν}
      (hsplit : r :: later = earlier ++ [r']) (hall : ∀ r ∈ earlier, r.IsComplete) :
      r.IsComplete := by
    cases earlier with
    | nil =>
      obtain ⟨-, hnil⟩ := List.cons.inj hsplit
      exact absurd hnil hlater
    | cons r'' rest =>
      obtain ⟨rfl, -⟩ := List.cons.inj hsplit
      exact hall r List.mem_cons_self
  cases h with
  | idle complete => exact complete r List.mem_cons_self
  | draining complete => exact complete r List.mem_cons_self
  | delivering running => exact hearlier running.split running.complete
  | unwound split complete => exact hearlier split complete

/-! ### One step -/

namespace Course

variable {behavior : Behavior κ ν} {s t : Observable κ ν} {value w : ν}
  {evs : List (Event κ ν)}

theorem start (hs : s.isNotifying = false) (hpending : s.pending = []) :
    Course behavior s value [.published value] (s.publish value) where
  history_eq := history_of_journal rfl
  version_eq := rfl
  value_eq := rfl
  calls_eq := rfl
  stage := by
    have hphase : (s.publish value).phase = .draining := by simp [publish, hs]
    have hwait : (s.publish value).pending = [value] := by simp [publish, hpending]
    rw [hphase, hwait]
    exact .draining (by simp [rounds]) rfl
  answered := by
    refine ⟨[], [], [], ⟨.nil, rfl, by simp, rfl, List.nil_suffix⟩, ?_⟩
    simp [publish, hs, Phase.Leaves]

theorem finish (h : Course behavior s value evs t) (hphase : t.phase = .draining)
    (hpending : t.pending = []) : Course behavior s value evs { t with phase := .idle } where
  history_eq := h.history_eq
  version_eq := h.version_eq
  value_eq := h.value_eq
  calls_eq := h.calls_eq
  stage := by
    have hstage := h.stage
    rw [hphase, hpending] at hstage
    cases hstage with
    | draining complete values =>
      exact .idle complete ((List.append_nil _).symm.trans values) hpending
  answered := by
    obtain ⟨answers, performed, left, hans, hleft⟩ := h.answered
    rw [hphase] at hleft
    exact ⟨answers, performed, left, hans, hleft⟩

theorem concat (h : Course behavior s value evs t) {e : Event κ ν} {u : Observable κ ν}
    (he : e.published? = none) (hjournal : u.journal = e :: t.journal)
    (hversion : u.version = t.version) (hvalue : u.value = t.value)
    (hcalls : (rounds s.history (evs ++ [e])).flatMap Round.calls = calls (evs ++ [e]))
    (hstage : Stage (rounds s.history (evs ++ [e])) (publications evs) u.pending u.phase)
    (hanswered : ∃ answers performed left,
      Answered behavior value (evs ++ [e]) answers performed left ∧ u.phase.Leaves left) :
    Course behavior s value (evs ++ [e]) u := by
  have hpub : publications (evs ++ [e]) = publications evs := by
    rw [publications_append]
    simp [publications, he]
  refine ⟨?_, ?_, ?_, hcalls, ?_, hanswered⟩
  · rw [history_of_journal hjournal, h.history_eq, List.append_assoc]
  · rw [hversion, hpub]
    exact h.version_eq
  · rw [hvalue, hpub]
    exact h.value_eq
  · rw [hpub]
    exact hstage

theorem beginRound (h : Course behavior s value evs t) (ht : Coherent t)
    (hphase : t.phase = .draining) {rest : List ν} (hpending : t.pending = w :: rest) :
    Course behavior s value (evs ++ [.round w (live t.history)]) (t.beginRound w rest) := by
  have hrounds := rounds_concat_round s.history evs w (live t.history)
  have hjournal : (t.beginRound w rest).journal = .round w (live t.history) :: t.journal := by
    rw [← ht.entries_held]
    rfl
  refine h.concat rfl hjournal rfl rfl ?_ ?_ ?_
  · rw [hrounds, List.flatMap_append, h.calls_eq, calls_append]
    rfl
  · have hstage := h.stage
    rw [hphase, hpending] at hstage
    rw [hrounds]
    cases hstage with
    | draining complete values =>
      have running : Running
          (rounds s.history evs ++ [⟨s.history ++ evs, w, live t.history, []⟩]) w []
          (t.entries.filter fun e => t.isHeld e.serial) (rounds s.history evs)
          ⟨s.history ++ evs, w, live t.history, []⟩ [] :=
        ⟨rfl, rfl, complete, ⟨by rw [← h.history_eq], ht.live_ordered⟩, ht.entries_held.symm, rfl,
          fun hne => absurd rfl hne⟩
      refine .delivering running ?_
      rw [← values, List.map_append, List.append_assoc]
      rfl
  · obtain ⟨answers, performed, left, hans, hleft⟩ := h.answered
    rw [hphase] at hleft
    exact ⟨answers, performed, left, hans.congr rfl rfl, hleft⟩

theorem perform (h : Course behavior s value evs t) {act : Act κ ν} {acts : List (Act κ ν)}
    {waiting : List (Entry κ)} (hphase : t.phase = .delivering w (act :: acts) waiting)
    (hact : act ≠ .panic) :
    ∃ more, Course behavior s value (evs ++ more)
      ({ t with phase := .delivering w acts waiting }.perform act) := by
  have hn : ({ t with phase := .delivering w acts waiting }).isNotifying = true := rfl
  obtain ⟨more, hdone⟩ := performed hn hact
  have hstage := h.stage
  rw [hphase] at hstage
  cases hstage with
  | delivering running values =>
    refine ⟨more, ?_, ?_, ?_, ?_, ?_, ?_⟩
    · rw [hdone.history_eq, ← List.append_assoc, ← h.history_eq]
      rfl
    · rw [hdone.version_eq, publications_append, List.length_append, hdone.publications_eq,
        ← Nat.add_assoc, ← h.version_eq]
    · rw [hdone.value_eq, publications_append, hdone.publications_eq]
      cases hpub : act.published? with
      | none => simpa using h.value_eq
      | some v => simp
    · rw [running.flatMap_calls hdone.not_round, calls_append, h.calls_eq]
    · rw [hdone.phase_eq, hdone.pending_eq, publications_append, hdone.publications_eq]
      refine .delivering (running.append hdone.not_round rfl ?_ fun _ => running.called (by simp)) ?_
      · rw [hdone.calls_eq, List.append_nil]
      · rw [running.map_value hdone.not_round, ← List.append_assoc, values]
    · obtain ⟨answers, performed, left, hans, hleft⟩ := h.answered
      rw [hphase] at hleft
      rw [hdone.phase_eq]
      obtain rfl : left = act :: acts := hleft
      exact ⟨answers, performed ++ [act], acts,
        hans.perform hact hdone.publications_eq hdone.calls_eq, rfl⟩

theorem panic (h : Course behavior s value evs t) {acts : List (Act κ ν)}
    {waiting : List (Entry κ)} (hphase : t.phase = .delivering w (.panic :: acts) waiting) :
    Course behavior s value (evs ++ [.panicked])
      ({ t with phase := .delivering w acts waiting }.panic) := by
  have hmore : ∀ e ∈ ([.panicked] : List (Event κ ν)), e.isRound = false := by simp [Event.isRound]
  have hstage := h.stage
  rw [hphase] at hstage
  cases hstage with
  | @delivering _ _ _ done earlier r running values =>
    refine h.concat rfl rfl rfl rfl ?_ ?_ ?_
    · rw [running.flatMap_calls hmore, calls_append, h.calls_eq]
    · have hrun : Running (rounds s.history (evs ++ [.panicked])) w (.panic :: acts) waiting earlier
          (r.extend [.panicked]) done :=
        running.append hmore rfl (List.append_nil _) fun _ => running.called (by simp)
      obtain ⟨last, hends⟩ := hrun.endsAt
      refine .unwound hrun.split hrun.complete hends ?_ rfl
      rw [running.map_value hmore, ← values]
      exact List.prefix_append _ _
    · obtain ⟨answers, performed, left, hans, hleft⟩ := h.answered
      rw [hphase] at hleft
      obtain rfl : left = .panic :: acts := hleft
      exact ⟨answers, performed, .panic :: acts, hans.congr rfl rfl, acts, rfl⟩

theorem call (h : Course behavior s value evs t) (ht : Reachable behavior t) {entry : Entry κ}
    {waiting : List (Entry κ)} (hphase : t.phase = .delivering w [] (entry :: waiting)) :
    Course behavior s value (evs ++ [.called entry.callback w t.value])
      { t with
        phase := .delivering w (behavior entry.callback t w) waiting
        journal := .called entry.callback w t.value :: t.journal } := by
  have hmore : ∀ e ∈ ([.called entry.callback w t.value] : List (Event κ ν)),
      e.isRound = false := by simp [Event.isRound]
  have hstage := h.stage
  rw [hphase] at hstage
  cases hstage with
  | @delivering _ _ _ done earlier r running values =>
    refine h.concat rfl rfl rfl rfl ?_ ?_ ?_
    · rw [running.flatMap_calls hmore, calls_append, h.calls_eq]
    · refine .delivering (running.append hmore (List.append_cons done entry _) ?_ (by simp)) ?_
      · rw [List.map_append, ← running.value_eq]
        rfl
      · rw [running.map_value hmore]
        exact values
    · obtain ⟨answers, performed, left, hans, hleft⟩ := h.answered
      rw [hphase] at hleft
      obtain rfl : left = [] := hleft
      exact ⟨_, performed, _, hans.call ht entry.callback w t.value, rfl⟩

theorem endRound (h : Course behavior s value evs t)
    (hphase : t.phase = .delivering w [] []) :
    Course behavior s value evs { t with phase := .draining } where
  history_eq := h.history_eq
  version_eq := h.version_eq
  value_eq := h.value_eq
  calls_eq := h.calls_eq
  stage := by
    have hstage := h.stage
    rw [hphase] at hstage
    cases hstage with
    | delivering running values => exact .draining running.complete_of_done values
  answered := by
    obtain ⟨answers, performed, left, hans, hleft⟩ := h.answered
    rw [hphase] at hleft
    exact ⟨answers, performed, left, hans, hleft⟩

/-- **One step of a delivery.** -/
theorem step (h : Course behavior s value evs t) (ht : Reachable behavior t) :
    ∃ more, Course behavior s value (evs ++ more) (t.step behavior) := by
  have hsame {u : Observable κ ν} (hu : Course behavior s value evs u) :
      ∃ more, Course behavior s value (evs ++ more) u := ⟨[], by rwa [List.append_nil]⟩
  -- One case for each phase; a step that tells nothing keeps the events.
  unfold Observable.step
  split
  · exact hsame h
  · exact hsame h
  · next hphase =>
    split
    · next hpending => exact hsame (h.finish hphase hpending)
    · next hpending => exact ⟨_, h.beginRound ht.coherent hphase hpending⟩
  · next act _ _ hphase =>
    by_cases hact : act = .panic
    · subst hact
      exact ⟨_, h.panic hphase⟩
    · exact h.perform hphase hact
  · next hphase => exact ⟨_, h.call ht hphase⟩
  · next hphase => exact hsame (h.endRound hphase)

/-- **A whole delivery**, as far as the fuel goes. -/
theorem run (h : Course behavior s value evs t) (ht : Reachable behavior t) (fuel : Nat) :
    ∃ more, Course behavior s value (evs ++ more) (run behavior fuel t) := by
  induction fuel generalizing t evs with
  | zero => exact ⟨[], by rwa [List.append_nil]⟩
  | succ fuel ih =>
    unfold Observable.run
    split
    · obtain ⟨more, h'⟩ := h.step ht
      obtain ⟨more', h''⟩ := ih h' ht.step
      exact ⟨more ++ more', by rwa [← List.append_assoc]⟩
    · exact ⟨[], by rwa [List.append_nil]⟩

end Course

/-! ### Publications from rest -/

section Rest

variable {behavior : Behavior κ ν} {s t : Observable κ ν} {value : ν}

/-- A publication from rest that goes as far as it can, in whatever way it ends. -/
theorem course_of_rest (hs : Reachable behavior s) (hrest : s.isNotifying = false) (fuel : Nat) :
    Course behavior s value ((run behavior fuel (s.publish value)).since s.journal.length)
      (run behavior fuel (s.publish value)) := by
  obtain ⟨more, h⟩ :=
    (Course.start hrest (hs.pending_eq_nil hrest)).run (hs.publish value hrest) fuel
  rwa [since_eq h.history_eq]

/-- The first round after a publication from rest is for its own value, and for those whose
subscription was held then. -/
theorem first_round (hs : Reachable behavior s) (hrest : s.isNotifying = false) (value : ν)
    (fuel : Nat) :
    ∃ r later, rounds s.history
        ((run behavior (fuel + 1) (s.publish value)).since s.journal.length) = r :: later ∧
      r.value = value ∧ r.entries = live s.history := by
  have hpending := hs.pending_eq_nil hrest
  have hphase : (s.publish value).phase = .draining := by simp [publish, hrest]
  have hwait : (s.publish value).pending = [value] := by simp [publish, hpending]
  have hreach := hs.publish value hrest
  have hstep : (s.publish value).step behavior = (s.publish value).beginRound value [] := by
    simp [step, hphase, hwait]
  have hrun : run behavior (fuel + 1) (s.publish value) =
      run behavior fuel ((s.publish value).beginRound value []) := by
    rw [run, if_pos (isNotifying_publish s value), hstep]
  have hstart : Course behavior s value [.published value] (s.publish value) :=
    Course.start hrest hpending
  have hbegun := hstart.beginRound hreach.coherent hphase hwait
  obtain ⟨more, h⟩ := hbegun.run (hstep ▸ hreach.step) fuel
  have hlive : live (s.publish value).history = live s.history := by
    rw [history_of_journal (s := s) rfl]
    exact live_append _ _ rfl rfl
  rw [hrun, since_eq h.history_eq, hlive]
  exact ⟨_, _, rfl, rfl, rfl⟩

end Rest

end ColorTheme.Observable
