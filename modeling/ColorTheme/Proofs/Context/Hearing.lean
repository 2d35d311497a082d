import ColorTheme.Proofs.Context.Audience
import ColorTheme.Proofs.Context.StoredMode

/-!
# Who hears what

Through any run of operations the listeners of a context are told what its audience hears: each is
told the mode when it subscribes, and every mode that is announced while its subscription is held,
in the order of the subscriptions and up to the first listener that gives up.
-/

namespace ColorTheme

open Context (Operation Turn)

/-! ### What an audience hears -/

namespace Audience

/-- What is heard of an operation, with the mode that the store would resume. -/
def heard (a : Audience) (resumed : Mode) : Operation → List (Listener × Mode)
  | .subscribe listener => [(listener, a.mode)]
  | operation =>
    if operation.announces then
      let mode := operation.next resumed a.mode
      tidings mode (hearers mode a.entries)
    else []

def after (a : Audience) (resumed : Mode) : Operation → Audience
  | .subscribe listener => a.welcome listener
  | .unsubscribe name => a.without [name]
  | operation => if operation.announces then a.announce (operation.next resumed a.mode) else a

/-- A turn, and the mode that the store would resume in it. -/
abbrev Scene := Turn × Mode

/-- What is heard in a scene, by the listeners as they have become by then. -/
def heardIn (a : Audience) (scene : Scene) : List (Listener × Mode) :=
  (a.withListeners scene.1.listener).heard scene.2 scene.1.call.operation

def afterScene (a : Audience) (scene : Scene) : Audience :=
  (a.withListeners scene.1.listener).after scene.2 scene.1.call.operation

def afterScenes (a : Audience) (scenes : List Scene) : Audience := scenes.foldl afterScene a

/-- What is heard in each of the scenes. -/
def transcript (a : Audience) : List Scene → List (List (Listener × Mode))
  | [] => []
  | scene :: rest => a.heardIn scene :: transcript (a.afterScene scene) rest

/-- The seat was taken in one of the scenes: by a listener that subscribed and did not give up. -/
def Taken (a : Audience) (scenes : List Scene) (seat : Seat) : Prop :=
  ∃ before scene later listener, scenes = before ++ scene :: later ∧
    scene.1.call.operation = .subscribe listener ∧
    listener.givesUp (a.afterScenes before).mode = false ∧ seat.name = listener.name ∧
    seat.entry.serial = (a.afterScenes before).nextSerial

/-- Only a listener that subscribes takes a seat. -/
theorem seat_after {a : Audience} {resumed : Mode} {operation : Operation} {seat : Seat}
    (h : seat ∈ (a.after resumed operation).seats) :
    seat ∈ a.seats ∨ ∃ listener, operation = .subscribe listener ∧
      listener.givesUp a.mode = false ∧ seat.name = listener.name ∧
      seat.entry.serial = a.nextSerial := by
  unfold after at h
  split at h
  · next listener =>
    unfold welcome at h
    split at h
    · exact .inl (List.mem_filter.1 h).1
    · next hgives =>
      rcases List.mem_append.1 h with h | h
      · exact .inl (List.mem_filter.1 (List.mem_filter.1 h).1).1
      · rw [List.mem_singleton.1 h]
        exact .inr ⟨listener, rfl, Bool.not_eq_true _ ▸ hgives, rfl, rfl⟩
  · exact .inl (List.mem_filter.1 h).1
  · split at h
    · exact .inl (List.mem_filter.1 h).1
    · exact .inl h

/-- **Every seat was taken by a subscription** that did not give up, and has its serial. -/
theorem taken_of_mem (mode : Mode) (scenes : List Scene) :
    ∀ seat ∈ ((empty mode).afterScenes scenes).seats, (empty mode).Taken scenes seat := by
  induction scenes using List.reverseRecOn with
  | nil => nofun
  | append_singleton scenes scene ih =>
    intro seat hseat
    rw [afterScenes, List.foldl_concat, ← afterScenes] at hseat
    rcases seat_after hseat with hseat | ⟨listener, hsubscribe, hgives, hname, hserial⟩
    · -- The seat was there before, with the listener as it was then.
      obtain ⟨was, hwas, rfl⟩ := List.mem_map.1 hseat
      obtain ⟨before, taking, later, listener, rfl, htaken⟩ := ih was hwas
      exact ⟨before, taking, later ++ [scene], listener, by simp, htaken⟩
    · exact ⟨scenes, scene, [], listener, rfl, hsubscribe, hgives, hname, hserial⟩

end Audience

/-! ### What listeners are told -/

namespace Context

/-- The calls of listeners in a turn, each with the mode that it was told. -/
def heard (c : Context) (turn : Turn) : List (Listener × Mode) :=
  Observable.calls ((c.afterTurn turn).cell.since c.cell.journal.length)

def transcript (c : Context) : List Turn → List (List (Listener × Mode))
  | [] => []
  | turn :: rest => c.heard turn :: transcript (c.afterTurn turn) rest

def scenes (c : Context) : List Turn → List Audience.Scene
  | [] => []
  | turn :: rest =>
    (turn, resumed c.store turn.call.surroundings) :: scenes (c.afterTurn turn) rest

variable {c : Context} {a : Audience}

theorem isOf_withListeners (h : a.IsOf c.cell)
    (listener : Observable.Entry Listener → Listener) :
    (a.withListeners listener).IsOf (c.withListeners listener).cell := by
  refine ⟨h.mode, h.nextSerial, ?_, ?_, ?_⟩
  · rw [Audience.withListeners, List.map_map]
    exact h.held
  · have hpresent := congrArg (List.map fun e => { e with callback := listener e }) h.present
    rw [Audience.entries, List.map_map] at hpresent
    rw [ModeCell.present, Context.withListeners, List.filter_map, Audience.entries,
      Audience.withListeners, List.map_map]
    exact hpresent
  · intro e he
    obtain ⟨before, hbefore, rfl⟩ := List.mem_map.1 he
    exact h.registered before hbefore

/-- **One call** tells the listeners what the audience hears. -/
theorem follows_after (h : a.IsOf c.cell) (hrests : c.cell.Rests) (call : Call) :
    (a.after (resumed c.store call.surroundings) call.operation).Follows c.cell (c.after call).cell
      (a.heard (resumed c.store call.surroundings) call.operation) := by
  obtain ⟨operation, s⟩ := call
  cases hpaints : operation.paints with
  | true =>
    rw [c.after_of_paints hpaints]
    cases operation <;> first | exact ⟨h, hrests, .refl c.cell⟩ | cases hpaints
  | false =>
    cases operation with
    | setMode mode =>
      rw [after, perform, Plan.run_bind, run_setMode]
      exact Audience.follows_announce h hrests mode
    | toggle =>
      have hmode : c.mode.toggled = a.mode.toggled := congrArg Mode.toggled h.mode
      rw [after, perform, Plan.run_bind, toggle, run_setMode, hmode]
      exact Audience.follows_announce h hrests a.mode.toggled
    | resume =>
      rw [after, perform, Plan.run_bind, run_resume]
      exact Audience.follows_announce h hrests (resumed c.store s)
    | subscribe listener => exact Audience.follows_welcome h hrests listener
    | unsubscribe name => exact ⟨h.drop name, hrests.drop name, ModeCell.said_drop c.cell name⟩
    | _ => cases hpaints

theorem follows_afterTurn (h : a.IsOf c.cell) (hrests : c.cell.Rests) (turn : Turn) :
    let scene := (turn, resumed c.store turn.call.surroundings)
    (a.afterScene scene).Follows c.cell (c.afterTurn turn).cell (a.heardIn scene) := by
  have hbecome : (c.withListeners turn.listener).cell.Rests := ⟨hrests.quiet, hrests.pending⟩
  have hafter := follows_after (isOf_withListeners h turn.listener) hbecome turn.call
  exact ⟨hafter.isOf, hafter.rests, hafter.said⟩

theorem heard_eq (h : a.IsOf c.cell) (hrests : c.cell.Rests) (turn : Turn) :
    c.heard turn = a.heardIn (turn, resumed c.store turn.call.surroundings) := by
  obtain ⟨evs, hhistory, hcalls⟩ := (follows_afterTurn h hrests turn).said
  rw [heard, Observable.since_eq hhistory, hcalls]

/-- **A run** tells the listeners what the audience hears. -/
theorem transcript_eq (h : a.IsOf c.cell) (hrests : c.cell.Rests) (turns : List Turn) :
    c.transcript turns = a.transcript (c.scenes turns) ∧
      (a.afterScenes (c.scenes turns)).IsOf (c.afterTurns turns).cell := by
  induction turns generalizing a c with
  | nil => exact ⟨rfl, h⟩
  | cons turn rest ih =>
    have hturn := follows_afterTurn h hrests turn
    obtain ⟨htranscript, hisOf⟩ := ih hturn.isOf hturn.rests
    refine ⟨?_, hisOf⟩
    rw [transcript, scenes, Audience.transcript, heard_eq h hrests, htranscript]

/-- **The listeners of a context are told what its audience hears**, in every run of operations on
any store, whatever the listeners do and become.  A listener hears the mode when it subscribes, and
takes a seat if it does not give up; a mode that is announced is heard from the seats that are
taken, in their order, up to the first listener that gives up.  The seats are the subscriptions that
are held. -/
theorem transcript_new (store : Store) (defaults : Defaults) (turns : List Turn) :
    let c := new store defaults
    let scenes := c.scenes turns
    let a := (Audience.empty .dark).afterScenes scenes
    c.transcript turns = (Audience.empty .dark).transcript scenes ∧
      (c.afterTurns turns).mode = a.mode ∧
      (c.afterTurns turns).cell.held = a.seats.map (fun seat => (seat.name, seat.entry.serial)) ∧
      ∀ seat ∈ a.seats, (Audience.empty .dark).Taken scenes seat := by
  intro c scenes a
  have hisOf : (Audience.empty .dark).IsOf c.cell := ⟨rfl, rfl, rfl, rfl, nofun⟩
  have hrests : c.cell.Rests := ⟨rfl, rfl⟩
  obtain ⟨htranscript, hafter⟩ := transcript_eq hisOf hrests turns
  exact ⟨htranscript, hafter.mode, hafter.held, Audience.taken_of_mem .dark scenes⟩

/-- When they hear of the light mode, a listener ends the subscription of another one, and the next
one gives up. -/
def quarrel : List Turn :=
  [Operation.subscribe ⟨"first", fun _ => []⟩,
    .subscribe ⟨"rival", fun mode => if mode = .light then [.drop "first"] else []⟩,
    .subscribe ⟨"frail", fun mode => if mode = .light then [.panic] else []⟩,
    .subscribe ⟨"last", fun _ => []⟩, .setMode .light, .toggle].map fun operation =>
      ⟨⟨operation, .ofFiles .empty⟩, (·.callback)⟩

/-- The one that is dropped hears of the mode all the same, and the last one is back when the mode
changes again. -/
example : ((new (.memory .empty) .builtin).transcript quarrel).map (·.map fun call =>
      (call.1.name, call.2)) =
    [[("first", .dark)], [("rival", .dark)], [("frail", .dark)], [("last", .dark)],
      [("first", .light), ("rival", .light), ("frail", .light)],
      [("rival", .dark), ("frail", .dark), ("last", .dark)]] := by decide +kernel

end Context

end ColorTheme
