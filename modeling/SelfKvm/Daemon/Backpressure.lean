/-
  The server under load (`kvm-daemon/src/server.rs`, `ServerRuntime::run`, `dispatch` and the writer
  of `handle_client`; `src-tauri/src/lib.rs`, `ensure_capture`).

  Captured input passes a bounded channel, a task, the controller's bounded channel, the controller,
  the bounded queue of a client and its writer, and the GUI is told through a bounded channel, too.
  Only the capture turns away what does not fit; everybody else waits.

  1. Nothing is lost or reordered behind the capture.  `conserves`: whatever the schedule, the
     controller has run on a part of what was captured, with what others have sent in between, and
     what it has put out is what is written, told or still waiting.
  2. What a GUI and the capture layer see lags behind, but towards the truth (`mirrors`).

  What becomes of those who wait is in `Daemon.Stalls`.
-/
import SelfKvm.Base.Channel
import SelfKvm.Core.Discipline
import SelfKvm.Daemon.Controller

namespace SelfKvm

/-! ## The code -/

/-- What waits between the capture and the clients; `size` is the capacity of the capture's own
    channel. -/
structure Flow (size : Nat) where
  sink : Channel size LocalEvent
  /-- The event the capture task has taken and not passed on. -/
  passing : Option LocalEvent
  ctl : Channel 256 ServerEvent
  controller : Controller
  /-- What the controller has still to do before it takes the next event. -/
  owed : List Effect
  queue : Sender → Channel 256 Message
  /-- The task of the connection has reported its end, and aborts the writer next. -/
  parted : Sender → Bool
  /-- The writer has ended, and nobody takes from its queue any more. -/
  closed : Sender → Bool
  status : Channel 64 ServerStatus
  grab : Bool

/-- The captured event in it. -/
def ServerEvent.captured : ServerEvent → Option LocalEvent
  | .«local» le => some le
  | _ => none

/-- What happens next. -/
inductive FlowMove where
  | capture (le : LocalEvent)
  /-- The capture task takes an event. -/
  | next
  /-- It passes it on. -/
  | pass
  /-- Another task sends an event to the controller. -/
  | post (ev : ServerEvent) (hev : ev.captured = none)
  | take
  /-- The controller carries out an effect. -/
  | carry
  /-- A writer writes. -/
  | write (id : Sender)
  /-- A writer fails to write, and ends. -/
  | fail (id : Sender)
  /-- The task of a connection reports that the client is gone. -/
  | report (id : Sender) (screen : String)
  /-- Then it aborts the writer. -/
  | abort (id : Sender)
  /-- The GUI is told a status. -/
  | tell

/-- What shows of it. -/
inductive Flowed where
  | accepted (le : LocalEvent)
  | dropped (le : LocalEvent)
  | took (ev : ServerEvent)
  | carried (eff : Effect)
  | wrote (id : Sender) (msg : Message)
  | told (s : ServerStatus)

namespace Flow

variable {size : Nat}

def new (layout : ScreenLayout) (home : String) : Flow size :=
  { sink := .empty, passing := none, ctl := .empty, controller := .new layout home, owed := []
    queue := fun _ => .empty, parted := fun _ => false, closed := fun _ => false
    status := .empty, grab := false }

/-- Carry out an effect, unless it has to wait. -/
def perform (f : Flow size) : Effect → Option (Flow size)
  | .deliver tx msg =>
    -- to a queue nobody takes from, sending fails at once
    if f.closed tx then
      some f
    else
      ((f.queue tx).trySend msg).map fun q => { f with queue := Function.update f.queue tx q }
  | .setGrab on => some { f with grab := on }
  | .status s => (f.status.trySend s).map fun status => { f with status }
  | .warpCursor _ _ => some f
  | .setClipboard _ => some f

/-- One step of one task. -/
def step (f : Flow size) : FlowMove → Flow size × List Flowed
  | .capture le =>
    match f.sink.trySend le with
    | some sink => ({ f with sink }, [.accepted le])
    | none => (f, [.dropped le])
  | .next =>
    match f.passing, f.sink.recv with
    | none, some (le, sink) => ({ f with sink, passing := some le }, [])
    | _, _ => (f, [])
  | .pass =>
    match f.passing with
    | some le =>
      match f.ctl.trySend (.«local» le) with
      | some ctl => ({ f with ctl, passing := none }, [])
      | none => (f, [])
    | none => (f, [])
  | .post ev _ =>
    match f.ctl.trySend ev with
    | some ctl => ({ f with ctl }, [])
    | none => (f, [])
  | .take =>
    match f.owed, f.ctl.recv with
    | [], some (ev, ctl) =>
      let (controller, owed) := f.controller.step ev
      ({ f with ctl, controller, owed }, [.took ev])
    | _, _ => (f, [])
  | .carry =>
    match f.owed with
    | eff :: owed =>
      match f.perform eff with
      | some f => ({ f with owed }, [.carried eff])
      | none => (f, [])
    | [] => (f, [])
  | .write id =>
    match (f.queue id).recv with
    | some (msg, q) =>
      if f.closed id then
        (f, [])
      else
        ({ f with queue := Function.update f.queue id q }, [.wrote id msg])
    | none => (f, [])
  | .fail id => ({ f with closed := Function.update f.closed id true }, [])
  | .report id screen =>
    if f.parted id then
      (f, [])
    else
      match f.ctl.trySend (.clientDisconnected screen) with
      | some ctl => ({ f with ctl, parted := Function.update f.parted id true }, [])
      | none => (f, [])
  | .abort id =>
    if f.parted id then
      ({ f with closed := Function.update f.closed id true }, [])
    else
      (f, [])
  | .tell =>
    match f.status.recv with
    | some (s, status) => ({ f with status }, [.told s])
    | none => (f, [])

end Flow

namespace Flowed

@[simp] def accept : Flowed → Option LocalEvent
  | .accepted le => some le
  | _ => none

@[simp] def take : Flowed → Option ServerEvent
  | .took ev => some ev
  | _ => none

@[simp] def carry : Flowed → Option Effect
  | .carried eff => some eff
  | _ => none

@[simp] def write (id : Sender) : Flowed → Option Message
  | .wrote tx msg => if tx = id then some msg else none
  | _ => none

@[simp] def tell : Flowed → Option ServerStatus
  | .told s => some s
  | _ => none

end Flowed

namespace Effect

/-- The message for this queue. -/
@[simp] def «to» (id : Sender) : Effect → Option Message
  | .deliver tx msg => if tx = id then some msg else none
  | _ => none

@[simp] def told : Effect → Option ServerStatus
  | .status s => some s
  | _ => none

/-- The last grab asked for wins. -/
@[simp] def grabbed (on : Bool) : Effect → Bool
  | .setGrab on => on
  | _ => on

end Effect

/-- The last screen announced wins. -/
def ServerStatus.focus (screen : String) : ServerStatus → String
  | .activeScreen screen => screen
  | _ => screen

/-- The server's own steps: nothing is captured, nobody comes or goes. -/
def FlowMove.inner : FlowMove → Bool
  | .next => true
  | .pass => true
  | .take => true
  | .carry => true
  | .write _ => true
  | .tell => true
  | _ => false

/-- The captured event. -/
def FlowMove.captured : FlowMove → Option LocalEvent
  | .capture le => some le
  | _ => none

namespace Flow

variable {size : Nat} {f : Flow size} {move : FlowMove}

/-! ## What a step can do -/

/-- An effect that is carried out fills a queue, or tells, or grabs, or shows nowhere. -/
inductive Performed (f : Flow size) : Effect → Flow size → Prop
  | gone {tx : Sender} {msg : Message} (h : f.closed tx = true) : Performed f (.deliver tx msg) f
  | queued {tx : Sender} {msg : Message} {q : Channel 256 Message} (hopen : f.closed tx = false)
      (h : (f.queue tx).trySend msg = some q) :
      Performed f (.deliver tx msg) { f with queue := Function.update f.queue tx q }
  | grabbed (on : Bool) : Performed f (.setGrab on) { f with grab := on }
  | told {s : ServerStatus} {status : Channel 64 ServerStatus}
      (h : f.status.trySend s = some status) : Performed f (.status s) { f with status }
  | warped (x y : Int32) : Performed f (.warpCursor x y) f
  | copied (data : List UInt8) : Performed f (.setClipboard data) f

theorem perform_cases {eff : Effect} {f' : Flow size} (h : f.perform eff = some f') :
    Performed f eff f' := by
  cases eff with
  | deliver tx msg =>
    unfold perform at h
    by_cases hclosed : f.closed tx = true
    · simp only [hclosed, if_true] at h
      injection h with h
      exact h ▸ .gone hclosed
    · simp only [hclosed, Bool.false_eq_true, if_false, Option.map_eq_some_iff] at h
      obtain ⟨q, hq, rfl⟩ := h
      exact .queued (Bool.not_eq_true _ ▸ hclosed) hq
  | setGrab on =>
    injection h with h
    exact h ▸ .grabbed on
  | status s =>
    obtain ⟨status, hs, rfl⟩ := Option.map_eq_some_iff.mp h
    exact .told hs
  | warpCursor x y =>
    injection h with h
    exact h ▸ .warped x y
  | setClipboard data =>
    injection h with h
    exact h ▸ .copied data

/-- A step does one of these, or nothing. -/
inductive FlowStep (f : Flow size) : FlowMove → Flow size → List Flowed → Prop
  | wait (move : FlowMove) (h : move.captured = none) : FlowStep f move f []
  | accept {le : LocalEvent} {sink : Channel size LocalEvent} (h : f.sink.trySend le = some sink) :
      FlowStep f (.capture le) { f with sink } [.accepted le]
  | drop {le : LocalEvent} (h : f.sink.room = 0) : FlowStep f (.capture le) f [.dropped le]
  | next {le : LocalEvent} {sink : Channel size LocalEvent} (hfree : f.passing = none)
      (h : f.sink.recv = some (le, sink)) :
      FlowStep f .next { f with sink, passing := some le } []
  | pass {le : LocalEvent} {ctl : Channel 256 ServerEvent} (hle : f.passing = some le)
      (h : f.ctl.trySend (.«local» le) = some ctl) :
      FlowStep f .pass { f with ctl, passing := none } []
  | post {ev : ServerEvent} {ctl : Channel 256 ServerEvent} (hev : ev.captured = none)
      (h : f.ctl.trySend ev = some ctl) : FlowStep f (.post ev hev) { f with ctl } []
  | take {ev : ServerEvent} {ctl : Channel 256 ServerEvent} (hidle : f.owed = [])
      (h : f.ctl.recv = some (ev, ctl)) :
      FlowStep f .take
        { f with ctl, controller := (f.controller.step ev).1, owed := (f.controller.step ev).2 }
        [.took ev]
  | carry {eff : Effect} {owed : List Effect} {f' : Flow size} (howed : f.owed = eff :: owed)
      (h : f.perform eff = some f') : FlowStep f .carry { f' with owed } [.carried eff]
  | write {id : Sender} {msg : Message} {q : Channel 256 Message} (hopen : f.closed id = false)
      (h : (f.queue id).recv = some (msg, q)) :
      FlowStep f (.write id) { f with queue := Function.update f.queue id q } [.wrote id msg]
  | fail (id : Sender) :
      FlowStep f (.fail id) { f with closed := Function.update f.closed id true } []
  | report {id : Sender} {screen : String} {ctl : Channel 256 ServerEvent}
      (hnew : f.parted id = false) (h : f.ctl.trySend (.clientDisconnected screen) = some ctl) :
      FlowStep f (.report id screen) { f with ctl, parted := Function.update f.parted id true } []
  | abort {id : Sender} (hparted : f.parted id = true) :
      FlowStep f (.abort id) { f with closed := Function.update f.closed id true } []
  | tell {s : ServerStatus} {status : Channel 64 ServerStatus}
      (h : f.status.recv = some (s, status)) : FlowStep f .tell { f with status } [.told s]

theorem step_cases (f : Flow size) (move : FlowMove) :
    FlowStep f move (f.step move).1 (f.step move).2 := by
  cases move with
  | capture le =>
    simp only [step]
    cases h : f.sink.trySend le with
    | some sink => exact .accept h
    | none => exact .drop (Channel.trySend_eq_none.mp h)
  | next =>
    simp only [step]
    cases hfree : f.passing with
    | some le => exact .wait _ rfl
    | none =>
      cases h : f.sink.recv with
      | none => exact .wait _ rfl
      | some p => exact .next hfree h
  | pass =>
    simp only [step]
    cases hle : f.passing with
    | none => exact .wait _ rfl
    | some le =>
      dsimp only
      cases h : f.ctl.trySend (.«local» le) with
      | none => exact .wait _ rfl
      | some ctl => exact .pass hle h
  | post ev hev =>
    simp only [step]
    cases h : f.ctl.trySend ev with
    | none => exact .wait _ rfl
    | some ctl => exact .post hev h
  | take =>
    simp only [step]
    cases hidle : f.owed with
    | cons eff owed => exact .wait _ rfl
    | nil =>
      cases h : f.ctl.recv with
      | none => exact .wait _ rfl
      | some p => exact .take hidle h
  | carry =>
    simp only [step]
    cases howed : f.owed with
    | nil => exact .wait _ rfl
    | cons eff owed =>
      dsimp only
      cases h : f.perform eff with
      | none => exact .wait _ rfl
      | some f' => exact .carry howed h
  | write id =>
    simp only [step]
    cases h : (f.queue id).recv with
    | none => exact .wait _ rfl
    | some p =>
      dsimp only
      by_cases hclosed : f.closed id = true
      · rw [if_pos hclosed]
        exact .wait _ rfl
      · rw [if_neg hclosed]
        exact .write (Bool.not_eq_true _ ▸ hclosed) h
  | fail id => exact .fail id
  | report id screen =>
    simp only [step]
    by_cases hparted : f.parted id = true
    · rw [if_pos hparted]
      exact .wait _ rfl
    · rw [if_neg hparted]
      cases h : f.ctl.trySend (.clientDisconnected screen) with
      | none => exact .wait _ rfl
      | some ctl => exact .report (Bool.not_eq_true _ ▸ hparted) h
  | abort id =>
    simp only [step]
    by_cases hparted : f.parted id = true
    · rw [if_pos hparted]
      exact .abort hparted
    · rw [if_neg hparted]
      exact .wait _ rfl
  | tell =>
    simp only [step]
    cases h : f.status.recv with
    | none => exact .wait _ rfl
    | some p => exact .tell h

/-! ## Nothing is lost on the way -/

/-- The captured events on their way to the controller. -/
def pending (f : Flow size) : List LocalEvent :=
  f.ctl.waiting.filterMap ServerEvent.captured ++ (f.passing.toList ++ f.sink.waiting)

/-- What has shown so far, and where the rest is. -/
structure Balanced (layout : ScreenLayout) (home : String) (outs : List Flowed) (f : Flow size) :
    Prop where
  ran : Mealy.run Controller.step (.new layout home) (outs.filterMap Flowed.take) =
    (f.controller, outs.filterMap Flowed.carry ++ f.owed)
  kept : outs.filterMap Flowed.accept =
    (outs.filterMap Flowed.take).filterMap ServerEvent.captured ++ f.pending
  lines : ∀ id, f.closed id = false →
    (outs.filterMap Flowed.carry).filterMap (Effect.to id) =
      outs.filterMap (Flowed.write id) ++ (f.queue id).waiting
  told : (outs.filterMap Flowed.carry).filterMap Effect.told =
    outs.filterMap Flowed.tell ++ f.status.waiting
  grab : f.grab = (outs.filterMap Flowed.carry).foldl Effect.grabbed false

variable {layout : ScreenLayout} {home : String} {outs : List Flowed}

theorem balanced_new : Balanced layout home [] (new layout home : Flow size) where
  ran := rfl
  kept := rfl
  lines := fun _ _ => rfl
  told := rfl
  grab := rfl

/-- A step beside the controller: what shows of it is what leaves or joins a channel. -/
theorem Balanced.beside {outs' : List Flowed} {f' : Flow size}
    (hb : Balanced layout home outs f) (htake : outs'.filterMap Flowed.take = [])
    (hcarry : outs'.filterMap Flowed.carry = [])
    (hsame : f'.controller = f.controller ∧ f'.owed = f.owed ∧ f'.grab = f.grab)
    (hpending : f.pending ++ outs'.filterMap Flowed.accept = f'.pending)
    (hlines : ∀ id, f'.closed id = false → f.closed id = false ∧
      (f.queue id).waiting = outs'.filterMap (Flowed.write id) ++ (f'.queue id).waiting)
    (htold : f.status.waiting = outs'.filterMap Flowed.tell ++ f'.status.waiting) :
    Balanced layout home (outs ++ outs') f' := by
  obtain ⟨hcontroller, howed, hgrab⟩ := hsame
  have htaken : (outs ++ outs').filterMap Flowed.take = outs.filterMap Flowed.take := by
    rw [List.filterMap_append, htake, List.append_nil]
  have hcarried : (outs ++ outs').filterMap Flowed.carry = outs.filterMap Flowed.carry := by
    rw [List.filterMap_append, hcarry, List.append_nil]
  constructor
  · rw [htaken, hcarried, hcontroller, howed]
    exact hb.ran
  · rw [htaken, List.filterMap_append, hb.kept, ← hpending, List.append_assoc]
  · intro id hopen
    obtain ⟨hopen', hqueue⟩ := hlines id hopen
    rw [hcarried, hb.lines id hopen', hqueue, List.filterMap_append, List.append_assoc]
  · rw [hcarried, hb.told, htold, List.filterMap_append, List.append_assoc]
  · rw [hcarried, hgrab]
    exact hb.grab

/-- An effect that is carried out is where it belongs. -/
theorem Balanced.carry {eff : Effect} {owed : List Effect} {f' : Flow size}
    (hb : Balanced layout home outs f) (howed : f.owed = eff :: owed) (h : Performed f eff f') :
    Balanced layout home (outs ++ [.carried eff]) { f' with owed } := by
  obtain ⟨hran, hkept, hlines, htold, hgrab⟩ := hb
  rw [howed] at hran
  have hran' : Mealy.run Controller.step (.new layout home) (outs.filterMap Flowed.take) =
      (f.controller, outs.filterMap Flowed.carry ++ [eff] ++ owed) := by
    rw [hran, List.append_assoc]
    rfl
  constructor
  · cases h <;> simpa [List.filterMap_cons] using hran'
  · cases h <;> simpa [pending, List.filterMap_cons] using hkept
  · intro id hopen
    cases h with
    | @gone tx msg hclosed =>
      have hne : tx ≠ id := by
        rintro rfl
        rw [hopen] at hclosed
        cases hclosed
      simpa [List.filterMap_cons, hne] using hlines id hopen
    | @queued tx msg q _ hq =>
      by_cases htx : tx = id
      · subst htx
        simp [List.filterMap_cons, Channel.trySend_waiting hq, hlines tx hopen]
      · have hne : id ≠ tx := fun h => htx h.symm
        simpa [List.filterMap_cons, htx, hne, Function.update_of_ne] using hlines id hopen
    | _ => simpa [List.filterMap_cons] using hlines id hopen
  · cases h with
    | told hs => simp [List.filterMap_cons, Channel.trySend_waiting hs, htold]
    | _ => simpa [List.filterMap_cons] using htold
  · cases h <;> simp [hgrab]

/-- Closing a queue takes it out of the account. -/
theorem Balanced.close (hb : Balanced layout home outs f) (id : Sender) :
    Balanced layout home (outs ++ []) { f with closed := Function.update f.closed id true } := by
  refine hb.beside rfl rfl ⟨rfl, rfl, rfl⟩ (List.append_nil _) ?_ rfl
  intro id' hopen
  refine ⟨?_, rfl⟩
  by_cases hid : id' = id
  · subst hid
    have hclosed : Function.update f.closed id' true id' = false := hopen
    rw [Function.update_self] at hclosed
    cases hclosed
  · have hopen' : Function.update f.closed id true id' = false := hopen
    rwa [Function.update_of_ne hid] at hopen'

theorem Balanced.step (hb : Balanced layout home outs f) (move : FlowMove) :
    Balanced layout home (outs ++ (f.step move).2) (f.step move).1 := by
  have hstep := step_cases f move
  generalize (f.step move).1 = f', (f.step move).2 = outs' at hstep ⊢
  have hlines : ∀ id, f.closed id = false → f.closed id = false ∧
      (f.queue id).waiting = [] ++ (f.queue id).waiting := fun id hopen => ⟨hopen, rfl⟩
  cases hstep with
  | wait => rwa [List.append_nil]
  | accept h =>
    refine hb.beside rfl rfl ⟨rfl, rfl, rfl⟩ ?_ hlines rfl
    simp [pending, Channel.trySend_waiting h]
  | drop h => exact hb.beside rfl rfl ⟨rfl, rfl, rfl⟩ (List.append_nil _) hlines rfl
  | next hfree h =>
    refine hb.beside rfl rfl ⟨rfl, rfl, rfl⟩ ?_ hlines rfl
    simp [pending, hfree, Channel.recv_waiting h]
  | pass hle h =>
    refine hb.beside rfl rfl ⟨rfl, rfl, rfl⟩ ?_ hlines rfl
    simp [pending, ServerEvent.captured, hle, Channel.trySend_waiting h]
  | post hev h =>
    refine hb.beside rfl rfl ⟨rfl, rfl, rfl⟩ ?_ hlines rfl
    simp [pending, hev, Channel.trySend_waiting h]
  | report hnew h =>
    refine hb.beside rfl rfl ⟨rfl, rfl, rfl⟩ ?_ hlines rfl
    simp [pending, List.filterMap_cons, ServerEvent.captured, Channel.trySend_waiting h]
  | @take ev ctl hidle h =>
    obtain ⟨hran, hkept, hlines, htold, hgrab⟩ := hb
    rw [hidle, List.append_nil] at hran
    rw [pending, Channel.recv_waiting h] at hkept
    refine ⟨?_, ?_, ?_, ?_, ?_⟩
    · simp [List.filterMap_cons, Mealy.run_concat, hran]
    · cases ev <;> simpa [pending, List.filterMap_cons, ServerEvent.captured] using hkept
    · simpa [List.filterMap_cons] using hlines
    · simpa [List.filterMap_cons] using htold
    · simpa [List.filterMap_cons] using hgrab
  | carry howed h => exact hb.carry howed (perform_cases h)
  | @write id msg q hopen h =>
    refine hb.beside rfl rfl ⟨rfl, rfl, rfl⟩ (List.append_nil _) ?_ rfl
    intro id' hopen'
    refine ⟨hopen', ?_⟩
    by_cases hid : id' = id
    · subst hid
      simp [Channel.recv_waiting h]
    · have hne : id ≠ id' := fun h => hid h.symm
      simp [hne, Function.update_of_ne hid]
  | fail id => exact hb.close id
  | abort hparted => exact hb.close _
  | tell h =>
    refine hb.beside rfl rfl ⟨rfl, rfl, rfl⟩ (List.append_nil _) hlines ?_
    simp [Channel.recv_waiting h]

theorem run_balanced (size : Nat) (layout : ScreenLayout) (home : String) (moves : List FlowMove) :
    Balanced layout home (Mealy.run step (new layout home : Flow size) moves).2
      (Mealy.run step (new layout home : Flow size) moves).1 := by
  refine Mealy.run_induction (P := fun _ f outs => Balanced layout home outs f) step balanced_new ?_
    moves
  intro _ f outs move hb
  exact hb.step move

/-- What is accepted of the captured events: in order, and all of them if there is always room. -/
theorem run_accepts (f : Flow size) (moves : List FlowMove) :
    ((Mealy.run step f moves).2.filterMap Flowed.accept).Sublist
        (moves.filterMap FlowMove.captured) ∧
      ((Mealy.run step f moves).2.filterMap Flowed.accept = moves.filterMap FlowMove.captured ↔
        Mealy.EveryStep step f moves fun _ f move => move.captured ≠ none → f.sink.room ≠ 0) := by
  induction moves using List.reverseRecOn with
  | nil => exact ⟨List.Sublist.refl _, fun _ => Mealy.everyStep_nil _, fun _ => rfl⟩
  | append_singleton moves move ih =>
    obtain ⟨hsub, hiff⟩ := ih
    rw [Mealy.run_concat, Mealy.everyStep_concat, ← hiff]
    simp only [List.filterMap_append]
    generalize (Mealy.run step f moves).2 = outs, (Mealy.run step f moves).1 = f at hsub ⊢
    have hstep := step_cases f move
    generalize (f.step move).1 = f', (f.step move).2 = outs' at hstep ⊢
    have hquiet : move.captured = none → outs'.filterMap Flowed.accept = [] →
        (outs.filterMap Flowed.accept ++ outs'.filterMap Flowed.accept).Sublist
            (moves.filterMap FlowMove.captured ++ [move].filterMap FlowMove.captured) ∧
          (outs.filterMap Flowed.accept ++ outs'.filterMap Flowed.accept =
              moves.filterMap FlowMove.captured ++ [move].filterMap FlowMove.captured ↔
            outs.filterMap Flowed.accept = moves.filterMap FlowMove.captured ∧
              (move.captured ≠ none → f.sink.room ≠ 0)) := by
      intro hmove haccept
      simpa [List.filterMap_cons, hmove, haccept] using hsub
    cases hstep with
    | @accept le sink h =>
      have hroom : f.sink.room ≠ 0 := by
        rw [Ne, ← Channel.trySend_eq_none (a := le), h]
        exact Option.some_ne_none sink
      refine ⟨hsub.append (List.Sublist.refl [le]), ?_⟩
      simp [FlowMove.captured, hroom]
    | @drop le h =>
      refine ⟨hsub.append (List.nil_sublist [le]), ?_⟩
      simp only [FlowMove.captured, h, List.filterMap_cons, List.filterMap_nil, Flowed.accept,
        List.append_nil, ne_eq, not_true_eq_false, reduceCtorEq, not_false_eq_true, forall_const,
        and_false, iff_false]
      intro heq
      have hlen := hsub.length_le
      rw [heq, List.length_append, List.length_singleton] at hlen
      omega
    | wait _ hmove => exact hquiet hmove rfl
    | _ => exact hquiet rfl rfl

/-- **Nothing is lost behind the capture.**  Whatever the schedule: the controller has run on the
    events it has taken, and what it has put out is what is carried out and what it still owes; the
    captured events that were accepted are those it has taken and those on their way, in order; what
    was put into the queue of a client is what is written to it and what waits, unless its writer
    has ended; so with what the GUI is told.  The accepted events are in the order of the captured,
    and are all of them exactly if there is room at every capture. -/
theorem conserves (layout : ScreenLayout) (home : String) (moves : List FlowMove) :
    let run := Mealy.run step (new layout home : Flow size) moves
    let taken := run.2.filterMap Flowed.take
    let carried := run.2.filterMap Flowed.carry
    let accepted := run.2.filterMap Flowed.accept
    Mealy.run Controller.step (.new layout home) taken = (run.1.controller, carried ++ run.1.owed) ∧
    accepted = taken.filterMap ServerEvent.captured ++ run.1.pending ∧
    (∀ id, run.1.closed id = false →
      carried.filterMap (Effect.to id) =
        run.2.filterMap (Flowed.write id) ++ (run.1.queue id).waiting) ∧
    carried.filterMap Effect.told = run.2.filterMap Flowed.tell ++ run.1.status.waiting ∧
    accepted.Sublist (moves.filterMap FlowMove.captured) ∧
    (accepted = moves.filterMap FlowMove.captured ↔
      Mealy.EveryStep step (new layout home : Flow size) moves
        fun _ f move => move.captured ≠ none → f.sink.room ≠ 0) := by
  have hb := run_balanced size layout home moves
  obtain ⟨hsub, hall⟩ := run_accepts (new layout home : Flow size) moves
  exact ⟨hb.ran, hb.kept, hb.lines, hb.told, hsub, hall⟩

/-! ## What others see -/

end Flow

/-- The actions of the machine and what becomes of them grab alike, and announce alike. -/
theorem dispatch_watched (clients : Clients) (acts : List ServerAction) (on : Bool)
    (screen : String) :
    (acts.flatMap (dispatch clients)).foldl Effect.grabbed on = acts.foldl grabStep on ∧
    ((acts.flatMap (dispatch clients)).filterMap Effect.told).foldl ServerStatus.focus screen =
      acts.foldl activeStep screen := by
  induction acts generalizing on screen with
  | nil => exact ⟨rfl, rfl⟩
  | cons act acts ih =>
    simp only [List.flatMap_cons, List.foldl_append, List.filterMap_append, List.foldl_cons]
    rw [(ih _ screen).1, (ih on _).2]
    cases act with
    | send screen' msg =>
      cases h : clients.lookup screen' with
      | none => simp [dispatch, h, grabStep, activeStep]
      | some tx => simp [dispatch, h, grabStep, activeStep, List.filterMap_cons]
    | setGrab on' => exact ⟨rfl, rfl⟩
    | warpCursor x y => exact ⟨rfl, rfl⟩
    | activeChanged screen' => exact ⟨rfl, rfl⟩

/-- A broadcast neither grabs nor tells. -/
theorem broadcast_watched (clients : Clients) (msg : Message) (on : Bool) :
    (broadcast clients msg).foldl Effect.grabbed on = on ∧
      (broadcast clients msg).filterMap Effect.told = [] := by
  unfold broadcast
  generalize clients.entries = entries
  induction entries with
  | nil => exact ⟨rfl, rfl⟩
  | cons e entries ih => exact ih

/-- At each event the effects take the grab, and the announced screen, from what the machine was to
    what it is. -/
theorem Controller.step_watched (c : Controller) (ev : ServerEvent) :
    (c.step ev).2.foldl Effect.grabbed c.machine.isRemote = (c.step ev).1.machine.isRemote ∧
    ((c.step ev).2.filterMap Effect.told).foldl ServerStatus.focus c.machine.active =
      (c.step ev).1.machine.active := by
  cases ev with
  | «local» le =>
    have hs := ServerMachine.step_settles c.machine (.handle le)
    obtain ⟨hgrab, hfocus⟩ := dispatch_watched c.clients (c.machine.handle le).2 c.machine.isRemote
      c.machine.active
    exact ⟨hgrab.trans hs.grab, hfocus.trans hs.active⟩
  | clientConnected screen size outbound =>
    have hs := ServerMachine.step_settles c.machine (.setScreenSize screen size.1 size.2)
    exact ⟨hs.grab, hs.active⟩
  | clientDisconnected screen =>
    have hs := ServerMachine.step_settles c.machine .goHome
    simp only [step]
    by_cases hactive : c.machine.active = screen
    · rw [if_pos hactive]
      obtain ⟨hgrab, hfocus⟩ := dispatch_watched (c.clients.erase screen) c.machine.goHome.2
        c.machine.isRemote c.machine.active
      rw [List.foldl_append, List.filterMap_append, List.foldl_append, hgrab, hfocus]
      exact ⟨hs.grab, hs.active⟩
    · rw [if_neg hactive]
      exact ⟨rfl, rfl⟩
  | fromClient screen msg => cases msg <;> exact ⟨rfl, rfl⟩
  | keepAliveTick =>
    obtain ⟨hgrab, htold⟩ := broadcast_watched c.clients .keepAlive c.machine.isRemote
    refine ⟨hgrab, ?_⟩
    show ((broadcast c.clients .keepAlive).filterMap Effect.told).foldl _ _ = _
    rw [htold]
    rfl
  | clipboardOut text =>
    obtain ⟨hgrab, htold⟩ := broadcast_watched c.clients
      (.clipboardData 0 (c.clipSeq + 1) 0 (utf8 text)) c.machine.isRemote
    refine ⟨hgrab, ?_⟩
    show ((broadcast c.clients _).filterMap Effect.told).foldl _ _ = _
    rw [htold]
    rfl

theorem Controller.run_watched (layout : ScreenLayout) (home : String) (evs : List ServerEvent) :
    (Mealy.run Controller.step (.new layout home) evs).2.foldl Effect.grabbed false =
      (Mealy.run Controller.step (.new layout home) evs).1.machine.isRemote ∧
    ((Mealy.run Controller.step (.new layout home) evs).2.filterMap Effect.told).foldl
        ServerStatus.focus home =
      (Mealy.run Controller.step (.new layout home) evs).1.machine.active := by
  refine Mealy.run_induction (P := fun _ c effs => effs.foldl Effect.grabbed false =
      c.machine.isRemote ∧
    (effs.filterMap Effect.told).foldl ServerStatus.focus home = c.machine.active) Controller.step
    ⟨?_, rfl⟩ ?_ evs
  · exact (ServerMachine.not_isRemote_iff.mpr rfl).symm
  · rintro _ c effs ev ⟨hgrab, hfocus⟩
    rw [List.foldl_append, List.filterMap_append, List.foldl_append, hgrab, hfocus]
    exact c.step_watched ev

namespace Flow

/-- **The grab switch and the GUI follow the machine.**  Whatever the schedule: what the controller
    still owes takes the grab switch to where the machine is, and what the GUI has been told, what
    waits for it and what is owed name the active screen last; so when nothing is owed, input is
    grabbed exactly if a client's screen is active. -/
theorem mirrors (layout : ScreenLayout) (home : String) (moves : List FlowMove) :
    let run := Mealy.run step (new layout home : Flow size) moves
    run.1.owed.foldl Effect.grabbed run.1.grab = run.1.controller.machine.isRemote ∧
    (run.2.filterMap Flowed.tell ++ run.1.status.waiting ++
        run.1.owed.filterMap Effect.told).foldl ServerStatus.focus home =
      run.1.controller.machine.active ∧
    (run.1.owed = [] → run.1.grab = run.1.controller.machine.isRemote) := by
  have hb := run_balanced size layout home moves
  obtain ⟨hgrab, hfocus⟩ := Controller.run_watched layout home
    ((Mealy.run step (new layout home : Flow size) moves).2.filterMap Flowed.take)
  rw [hb.ran] at hgrab hfocus
  rw [List.foldl_append, ← hb.grab] at hgrab
  rw [List.filterMap_append, hb.told] at hfocus
  refine ⟨hgrab, hfocus, ?_⟩
  intro hidle
  rwa [hidle] at hgrab

end Flow

end SelfKvm
