import ColorTheme.Proofs.Observable.Delivery
import Mathlib.Data.Multiset.DershowitzManna

/-!
# Deliveries that come to an end

A callback may publish as it likes while it is told of a value, and may register others that do the
same, so neither the values that wait nor the entries need to become fewer.  If everything that is
published in answer to a value has a lower rank than the value, a round takes one rank from those that
wait and puts any number of lower ones in its place.  Multisets of natural numbers cannot go down in
this way for ever.
-/

namespace ColorTheme.Observable

variable {κ ν : Type} {behavior : Behavior κ ν} {rank : ν → Nat} {s t : Observable κ ν}

/-! ### Coming to an end -/

/-- The delivery stops, at whatever time. -/
def Stops (behavior : Behavior κ ν) (s : Observable κ ν) : Prop :=
  ∃ fuel, (run behavior fuel s).isNotifying = false

theorem run_succ (h : s.isNotifying = true) (fuel : Nat) :
    run behavior (fuel + 1) s = run behavior fuel (s.step behavior) := by
  rw [run, if_pos h]

theorem Stops.of_rest (h : s.isNotifying = false) : Stops behavior s := ⟨0, h⟩

theorem Stops.of_step (hs : s.isNotifying = true) (h : Stops behavior (s.step behavior)) :
    Stops behavior s := by
  obtain ⟨fuel, hstop⟩ := h
  exact ⟨fuel + 1, by rwa [run_succ hs]⟩

/-- In every call that is made from the state on, the callback publishes only values of a lower rank
than the one that it is told of. -/
def Descends (behavior : Behavior κ ν) (rank : ν → Nat) (s : Observable κ ν) : Prop :=
  ∀ fuel value entry waiting,
    (run behavior fuel s).phase = .delivering value [] (entry :: waiting) →
      ∀ v, .publish v ∈ behavior entry.callback (run behavior fuel s) value → rank v < rank value

theorem Descends.step (h : Descends behavior rank s) (hs : s.isNotifying = true) :
    Descends behavior rank (s.step behavior) := by
  intro fuel value entry waiting
  rw [← run_succ hs]
  exact h (fuel + 1) value entry waiting

/-- Callbacks that publish only lower values in whatever state they are called do so in every run. -/
theorem descends_of_forall (h : ∀ callback u value v,
    .publish v ∈ behavior callback u value → rank v < rank value) :
    Descends behavior rank s :=
  fun _ value entry _ _ v => h entry.callback _ value v

/-! ### One round -/

/-- Beside the values that waited when a round began there are only lower ones than its own. -/
def Lowered (rank : ν → Nat) (value : ν) (kept : List ν) (s : Observable κ ν) : Prop :=
  ∃ added, s.pending = kept ++ added ∧ ∀ v ∈ added, rank v < rank value

theorem Lowered.perform {value : ν} {kept : List ν} {act : Act κ ν} (h : Lowered rank value kept s)
    (hs : s.isNotifying = true) (hact : act ≠ .panic)
    (hlow : ∀ v, act = .publish v → rank v < rank value) :
    Lowered rank value kept (s.perform act) ∧ (s.perform act).phase = s.phase := by
  obtain ⟨added, hadded, hbelow⟩ := h
  obtain ⟨more, hdone⟩ := performed hs hact
  refine ⟨⟨added ++ act.published?.toList, ?_, fun v hv => ?_⟩, hdone.phase_eq⟩
  · rw [hdone.pending_eq, hadded, List.append_assoc]
  · rcases List.mem_append.1 hv with hv | hv
    · exact hbelow v hv
    · cases act with
      | publish w =>
        obtain rfl : v = w := by simpa [Act.published?] using hv
        exact hlow v rfl
      | _ => simp [Act.published?] at hv

/-- What is known of the states of a round: where it is, and what its callbacks publish. -/
structure InRound (behavior : Behavior κ ν) (rank : ν → Nat) (value : ν) (kept : List ν)
    (s : Observable κ ν) : Prop where
  descends : Descends behavior rank s
  lowered : Lowered rank value kept s

section Round

variable {value : ν} {kept : List ν} {waiting : List (Entry κ)}

/-- The acts of one callback: there are finitely many. -/
theorem stops_of_acts (hdone : ∀ t : Observable κ ν, t.phase = .delivering value [] waiting →
      InRound behavior rank value kept t → Stops behavior t)
    (acts : List (Act κ ν)) (hacts : ∀ v, .publish v ∈ acts → rank v < rank value)
    (hphase : s.phase = .delivering value acts waiting) (h : InRound behavior rank value kept s) :
    Stops behavior s := by
  induction acts generalizing s with
  | nil => exact hdone s hphase h
  | cons act acts ih =>
    have hs : s.isNotifying = true := by simp [isNotifying, hphase]
    have hstep : s.step behavior = { s with phase := .delivering value acts waiting }.perform act := by
      simp [step, hphase]
    have hdown := h.descends.step hs
    refine .of_step hs ?_
    rw [hstep] at hdown ⊢
    by_cases hact : act = .panic
    · subst hact
      exact .of_rest rfl
    · have hkept : Lowered rank value kept { s with phase := .delivering value acts waiting } :=
        h.lowered
      obtain ⟨hkept', hphase'⟩ :=
        hkept.perform rfl hact fun v hv => hacts v (hv ▸ List.mem_cons_self)
      exact ih (fun v hv => hacts v (List.mem_cons_of_mem _ hv)) hphase' ⟨hdown, hkept'⟩

/-- **A round stops** if what follows it does: it makes no more calls than it has entries when it
begins. -/
theorem stops_of_calls (hnext : ∀ t : Observable κ ν, t.phase = .draining →
      InRound behavior rank value kept t → Stops behavior t)
    (hphase : s.phase = .delivering value [] waiting) (h : InRound behavior rank value kept s) :
    Stops behavior s := by
  induction waiting generalizing s with
  | nil =>
    have hs : s.isNotifying = true := by simp [isNotifying, hphase]
    have hstep : s.step behavior = { s with phase := .draining } := by simp [step, hphase]
    have hdown := h.descends.step hs
    refine .of_step hs ?_
    rw [hstep] at hdown ⊢
    exact hnext _ rfl ⟨hdown, h.lowered⟩
  | cons entry waiting ih =>
    have hs : s.isNotifying = true := by simp [isNotifying, hphase]
    have hstep : s.step behavior = { s with
        phase := .delivering value (behavior entry.callback s value) waiting
        journal := .called entry.callback value s.value :: s.journal } := by
      simp [step, hphase]
    have hdown := h.descends.step hs
    refine .of_step hs ?_
    rw [hstep] at hdown ⊢
    exact stops_of_acts (fun t => ih) _ (h.descends 0 value entry waiting hphase) rfl
      ⟨hdown, h.lowered⟩

end Round

/-! ### All rounds -/

def waitingRanks (rank : ν → Nat) (s : Observable κ ν) : Multiset Nat := s.pending.map rank

/-- A round takes one rank away and adds lower ones. -/
theorem waitingRanks_lt {value : ν} {rest : List ν} (hpending : s.pending = value :: rest)
    (h : Lowered rank value rest t) : (waitingRanks rank t).IsDershowitzMannaLT (waitingRanks rank s) := by
  obtain ⟨added, hadded, hbelow⟩ := h
  refine ⟨rest.map rank, added.map rank, {rank value}, by simp, ?_, ?_, fun n hn => ?_⟩
  · rw [waitingRanks, hadded, List.map_append, Multiset.coe_add]
  · rw [waitingRanks, hpending, List.map_cons, ← Multiset.cons_coe, ← Multiset.singleton_add,
      add_comm]
  · obtain ⟨v, hv, rfl⟩ := List.mem_map.1 (Multiset.mem_coe.1 hn)
    exact ⟨rank value, Multiset.mem_singleton_self _, hbelow v hv⟩

/-- **A delivery stops.** -/
theorem stops_of_draining (hphase : s.phase = .draining) (hdown : Descends behavior rank s) :
    Stops behavior s := by
  have hwf : WellFounded fun M N : Multiset Nat => M.IsDershowitzMannaLT N :=
    Multiset.wellFounded_isDershowitzMannaLT
  generalize hranks : waitingRanks rank s = ranks
  induction ranks using hwf.induction generalizing s with
  | _ ranks ih =>
    subst hranks
    have hs : s.isNotifying = true := by simp [isNotifying, hphase]
    refine .of_step hs ?_
    have hdown' := hdown.step hs
    cases hpending : s.pending with
    | nil =>
      have hstep : s.step behavior = { s with phase := .idle } := by simp [step, hphase, hpending]
      rw [hstep]
      exact .of_rest rfl
    | cons value rest =>
      have hstep : s.step behavior = s.beginRound value rest := by simp [step, hphase, hpending]
      rw [hstep] at hdown' ⊢
      have hround : InRound behavior rank value rest (s.beginRound value rest) :=
        ⟨hdown', [], (List.append_nil rest).symm, by simp⟩
      refine stops_of_calls (fun t ht h => ?_) rfl hround
      exact ih _ (waitingRanks_lt hpending h.lowered) ht h.descends rfl

/-- **A publication from rest comes to its end** if the values go down, in whatever state it is made:
it returns or is given up. -/
theorem ends_of_descends {value : ν} (hrest : s.isNotifying = false)
    (hdown : Descends behavior rank (s.publish value)) :
    ∃ t, Returns behavior s value t ∨ Unwinds behavior s value t := by
  have hphase : (s.publish value).phase = .draining := by simp [publish, hrest]
  obtain ⟨fuel, hstop⟩ := stops_of_draining hphase hdown
  refine ⟨run behavior fuel (s.publish value), ?_⟩
  cases hend : (run behavior fuel (s.publish value)).phase with
  | idle => exact .inl ⟨fuel, rfl, hend⟩
  | unwound => exact .inr ⟨fuel, rfl, hend⟩
  | draining => simp [isNotifying, hend] at hstop
  | delivering => simp [isNotifying, hend] at hstop

/-- Counts down to zero by two publications for each number, and registers itself once more between
them. -/
def countdown : Behavior Unit Nat := fun _ s value =>
  match value with
  | 0 => []
  | n + 1 => [.publish n, .subscribe (toString s.nextSerial) (), .publish n]

theorem ends_of_descends_countdown :
    let s := (new 0 : Observable Unit Nat).subscribe "first" ()
    s.isNotifying = false ∧ Descends countdown id (s.publish 3) ∧
      ∃ t, Returns countdown s 3 t ∨ Unwinds countdown s 3 t := by
  intro s
  have hdown : Descends countdown id (s.publish 3) := by
    refine descends_of_forall fun _ _ value v hv => ?_
    cases value with
    | zero => simp [countdown] at hv
    | succ n =>
      obtain rfl : v = n := by simpa [countdown] using hv
      exact Nat.lt_succ_self v
  exact ⟨rfl, hdown, ends_of_descends rfl hdown⟩

end ColorTheme.Observable
