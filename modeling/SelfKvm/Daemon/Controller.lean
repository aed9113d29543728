/-
  The server's controller (`kvm-daemon/src/server.rs`, `ServerRuntime::run` and `dispatch`).

  A single task owns the `ServerMachine` and the table of connected clients, and takes one
  `ServerEvent` after the other.  What it does to the world is data here (`Effect`), so that a run
  of the controller is a run of a machine.  The machine and the table change at different events:
  the machine knows the layout, never who is connected.

  `operator_never_stranded` is about the seam between the two.  While input is grabbed, the active
  screen must have an outbound queue; the code keeps that at every event but one, a crossing that
  leads to a screen nobody is connected for.
-/
import Mathlib.Data.List.AList
import SelfKvm.Base.Mealy
import SelfKvm.Core.Server
import SelfKvm.Proto.Codec

namespace SelfKvm

open ServerMachine

/-! ## The code -/

/-- The sending half of an outbound queue; every connection makes its own. -/
abbrev Sender : Type := Nat

/-- The client table: the outbound queue of each connected screen. -/
abbrev Clients : Type := AList fun _ : String => Sender

/-- What a GUI is told while the controller runs. -/
inductive ServerStatus where
  | clientConnected (screen : String)
  | clientDisconnected (screen : String)
  | activeScreen (screen : String)
  | grab (on : Bool)
  deriving DecidableEq, Repr

/-- What is funnelled into the controller. -/
inductive ServerEvent where
  | «local» (le : LocalEvent)
  /-- `size` is the geometry the client reported. -/
  | clientConnected (screen : String) (size : Int32 × Int32) (outbound : Sender)
  | clientDisconnected (screen : String)
  | fromClient (screen : String) (msg : Message)
  | keepAliveTick
  | clipboardOut (text : String)
  deriving DecidableEq, Repr

/-- What the controller does to the world. -/
inductive Effect where
  /-- Put a message into an outbound queue. -/
  | deliver (tx : Sender) (msg : Message)
  | setGrab (on : Bool)
  | warpCursor (x y : Int32)
  | status (s : ServerStatus)
  /-- Set the clipboard to the text these bytes spell, read lossily. -/
  | setClipboard (data : List UInt8)
  deriving DecidableEq, Repr

def Effect.said : Effect → Option Message
  | .deliver _ msg => some msg
  | _ => none

/-- Carry out one action of the machine. -/
def dispatch (clients : Clients) : ServerAction → List Effect
  | .send screen msg =>
    match clients.lookup screen with
    | some tx => [.deliver tx msg]
    -- nobody to send to: the message is dropped
    | none => []
  | .setGrab on => [.setGrab on, .status (.grab on)]
  | .warpCursor x y => [.warpCursor x y]
  | .activeChanged screen => [.status (.activeScreen screen)]

theorem dispatch_send {clients : Clients} {screen : String} {tx : Sender} {msg : Message}
    (h : clients.lookup screen = some tx) :
    dispatch clients (.send screen msg) = [.deliver tx msg] := by
  unfold dispatch
  simp only [h]

/-- One message for everybody, in the order of the table (the program's is unspecified). -/
def broadcast (clients : Clients) (msg : Message) : List Effect :=
  clients.entries.map fun e => .deliver e.2 msg

/-- What the controller owns. -/
structure Controller where
  machine : ServerMachine
  clients : Clients
  clipSeq : UInt32

namespace Controller

def new (layout : ScreenLayout) (localScreen : String) : Controller :=
  { machine := .new layout localScreen, clients := ∅, clipSeq := 0 }

/-- One turn of the controller's loop. -/
def step (c : Controller) : ServerEvent → Controller × List Effect
  | .«local» le =>
    let (machine, actions) := c.machine.handle le
    ({ c with machine }, actions.flatMap (dispatch c.clients))
  | .clientConnected screen size outbound =>
    -- the reported resolution goes into the layout, so that crossings use it
    let machine := c.machine.setScreenSize screen size.1 size.2
    let clients := c.clients.insert screen outbound
    ({ c with machine, clients }, [.status (.clientConnected screen)])
  | .clientDisconnected screen =>
    let clients := c.clients.erase screen
    let (machine, actions) :=
      if c.machine.active = screen then c.machine.goHome else (c.machine, [])
    ({ c with machine, clients },
      actions.flatMap (dispatch clients) ++ [.status (.clientDisconnected screen)])
  | .fromClient _ msg =>
    match msg with
    | .clipboardData _ _ _ data => (c, [.setClipboard data])
    | _ => (c, [])
  | .keepAliveTick => (c, broadcast c.clients .keepAlive)
  | .clipboardOut text =>
    let clipSeq := c.clipSeq + 1
    ({ c with clipSeq }, broadcast c.clients (.clipboardData 0 clipSeq 0 (utf8 text)))

/-! ## Nobody is stranded -/

/-- The actions the machine emits at an event. -/
def emitted (c : Controller) : ServerEvent → List ServerAction
  | .«local» le => (c.machine.handle le).2
  | .clientDisconnected screen => if c.machine.active = screen then c.machine.goHome.2 else []
  | _ => []

/-- While input is grabbed, the active screen has an outbound queue. -/
def Served (c : Controller) : Prop := c.machine.isRemote = true → c.machine.active ∈ c.clients

/-- Every message the machine emits at the event is put into the queue of the client it is for. -/
def Carried (c : Controller) (ev : ServerEvent) : Prop :=
  ∀ screen msg, .send screen msg ∈ c.emitted ev →
    ∃ tx, c.clients.lookup screen = some tx ∧ .deliver tx msg ∈ (c.step ev).2

end Controller

/-- Where an event's messages go and where it leaves the cursor: to the screen that was active, or
    to its destination. -/
structure ServerMachine.Reaches (m : ServerMachine) (dest : Option String) (m' : ServerMachine)
    (acts : List ServerAction) : Prop where
  sends : ∀ screen msg, .send screen msg ∈ acts →
    m.isRemote = true ∧ screen = m.active ∨ dest = some screen
  lands : m'.isRemote = true →
    m.isRemote = true ∧ m'.active = m.active ∨ dest = some m'.active
  enters : ∀ screen, dest = some screen → ∃ msg, .send screen msg ∈ acts

/-- Nothing is sent, and the cursor stays where it was. -/
theorem reaches_still {m m' : ServerMachine} (hactive : m'.active = m.active)
    (hlocal : m'.localScreen = m.localScreen) : m.Reaches none m' [] where
  sends := fun _ _ h => by cases h
  lands := by
    intro h
    rw [isRemote_iff, hactive, hlocal] at h
    exact .inl ⟨isRemote_iff.mpr h, hactive⟩
  enters := fun _ h => by cases h

/-- One message to the active client, and the cursor stays on its screen. -/
theorem reaches_send {m m' : ServerMachine} {msg : Message} (hr : m.active ≠ m.localScreen)
    (hactive : m'.active = m.active) : m.Reaches none m' [.send m.active msg] where
  sends := by
    intro screen msg' h
    rw [List.mem_singleton] at h
    injection h with hscreen
    exact .inl ⟨isRemote_iff.mpr hr, hscreen⟩
  lands := fun _ => .inl ⟨isRemote_iff.mpr hr, hactive⟩
  enters := fun _ h => by cases h

theorem ServerMachine.MotionOutcome.reaches {m m' : ServerMachine} {acts : List ServerAction}
    (h : MotionOutcome m m' acts) :
    m.Reaches (m.crossing.bind fun cr =>
      if cr.target = m.localScreen then none else some cr.target) m' acts where
  sends := by
    intro screen msg hmem
    rcases h.mem_send hmem with ⟨hr, hscreen, -⟩ | ⟨cr, hc, ht, hscreen, -⟩
    · exact .inl ⟨hr, hscreen⟩
    · rw [hc, Option.bind_some, if_neg ht, hscreen]
      exact .inr rfl
  lands := by
    intro hr
    cases h with
    | stay => exact .inl ⟨hr, rfl⟩
    | move => exact .inl ⟨hr, rfl⟩
    | home => exact absurd rfl (isRemote_iff.mp hr)
    | enter cr hc ht =>
      rw [hc, Option.bind_some, if_neg ht]
      exact .inr rfl
  enters := by
    intro screen hdest
    cases h with
    | stay hc =>
      rw [hc] at hdest
      cases hdest
    | move hc =>
      rw [hc] at hdest
      cases hdest
    | home cr hc ht =>
      rw [hc, Option.bind_some, if_pos ht] at hdest
      cases hdest
    | enter cr hc ht =>
      rw [hc, Option.bind_some, if_neg ht] at hdest
      injection hdest with hdest
      subst hdest
      exact ⟨_, List.mem_append_right _ (List.mem_append_right _ List.mem_cons_self)⟩

theorem ServerMachine.handle_reaches (m : ServerMachine) (le : LocalEvent) :
    m.Reaches (m.destination le) (m.handle le).1 (m.handle le).2 := by
  have hout := handle_outcome m le
  generalize (m.handle le).1 = m', (m.handle le).2 = acts at hout ⊢
  unfold destination
  cases hout with
  | motion m₁ _ _ hm ho =>
    rw [hm]
    obtain ⟨p, rfl, -⟩ := moved_eq_some hm
    -- moving the cursor changes neither the screen nor who is remote
    obtain ⟨hsends, hlands, henters⟩ := ho.reaches
    exact ⟨hsends, hlands, henters⟩
  | forward msg hr hf =>
    rw [moved_of_forwarded hf]
    exact reaches_send hr (trackModifiers_active le)
  | ignore hm hf =>
    rw [hm]
    exact reaches_still (trackModifiers_active le) (trackModifiers_localScreen le)

namespace Controller

/-- A crossing to a client screen leads to one that is connected. -/
def Awaited (c : Controller) : ServerEvent → Prop
  | .«local» le => ∀ screen, c.machine.destination le = some screen → screen ∈ c.clients
  | _ => True

/-- Going home sends nothing. -/
theorem goHome_sends_nothing {m : ServerMachine} {screen : String} {msg : Message} :
    .send screen msg ∉ m.goHome.2 := by
  intro h
  by_cases hr : m.active = m.localScreen
  · rw [goHome_local hr] at h
    cases h
  · rw [goHome_remote hr] at h
    simp at h

/-- Going home ends at home. -/
theorem goHome_is_home (m : ServerMachine) : m.goHome.1.isRemote = false := by
  rw [not_isRemote_iff]
  by_cases hr : m.active = m.localScreen
  · rw [goHome_local hr]
    exact hr
  · rw [goHome_remote hr]
    rfl

/-- What the controller keeps at one event: served before, and no crossing into the void. -/
theorem Served.step {c : Controller} {ev : ServerEvent} (h : c.Served) (hev : c.Awaited ev) :
    (c.step ev).1.Served ∧ c.Carried ev := by
  cases ev with
  | «local» le =>
    have hreaches := handle_reaches c.machine le
    constructor
    · intro hr
      rcases hreaches.lands hr with ⟨hr', hactive⟩ | hdest
      · show (c.machine.handle le).1.active ∈ c.clients
        rw [hactive]
        exact h hr'
      · exact hev _ hdest
    · intro screen msg hmem
      have hconn : screen ∈ c.clients := by
        rcases hreaches.sends screen msg hmem with ⟨hr, rfl⟩ | hdest
        · exact h hr
        · exact hev _ hdest
      obtain ⟨tx, htx⟩ := Option.isSome_iff_exists.mp (AList.lookup_isSome.mpr hconn)
      refine ⟨tx, htx, List.mem_flatMap.mpr ⟨_, hmem, ?_⟩⟩
      rw [dispatch_send htx]
      exact List.mem_singleton_self _
  | clientConnected screen size outbound =>
    refine ⟨fun hr => ?_, fun _ _ hmem => by cases hmem⟩
    exact (AList.mem_insert _).mpr (.inr (h hr))
  | clientDisconnected screen =>
    constructor
    · intro hr
      by_cases hactive : c.machine.active = screen
      · simp only [Controller.step, hactive, if_true, goHome_is_home] at hr
        cases hr
      · simp only [Controller.step, hactive, if_false] at hr ⊢
        exact AList.mem_erase.mpr ⟨hactive, h hr⟩
    · intro screen' msg hmem
      unfold emitted at hmem
      by_cases hactive : c.machine.active = screen
      · simp only [hactive, if_true] at hmem
        exact absurd hmem goHome_sends_nothing
      · simp only [hactive, if_false] at hmem
        cases hmem
  | fromClient screen msg => cases msg <;> exact ⟨h, fun _ _ hmem => by cases hmem⟩
  | keepAliveTick => exact ⟨h, fun _ _ hmem => by cases hmem⟩
  | clipboardOut text => exact ⟨h, fun _ _ hmem => by cases hmem⟩

/-- **Exactly when nobody is stranded.**  For any layout and any events in any order: after every
    event the active screen is served while input is grabbed, and no message the machine emits is
    dropped — if and only if every crossing to a client screen leads to one that is connected. -/
theorem operator_never_stranded (layout : ScreenLayout) (home : String) (evs : List ServerEvent) :
    Mealy.EveryStep step (new layout home) evs (fun _ c ev => (c.step ev).1.Served ∧ c.Carried ev) ↔
      Mealy.EveryStep step (new layout home) evs (fun _ c ev => c.Awaited ev) := by
  constructor
  · intro h
    refine h.mono _ ?_
    rintro - c ev ⟨-, hcarried⟩
    cases ev with
    | «local» le =>
      intro screen hdest
      -- the `Enter` had to be delivered
      obtain ⟨msg, hmem⟩ := (handle_reaches c.machine le).enters screen hdest
      obtain ⟨tx, htx, -⟩ := hcarried screen msg hmem
      exact AList.lookup_isSome.mp (htx ▸ rfl)
    | _ => trivial
  · intro h evs' ev hpre
    have hserved : Mealy.EveryStep step (new layout home) evs fun _ c _ => c.Served := by
      refine h.invariant _ (P := fun _ c => c.Served) ?_ ?_
      · intro hr
        exact absurd rfl (isRemote_iff.mp hr)
      · intro _ c ev hc hev
        exact (hc.step hev).1
    exact (hserved evs' ev hpre).step (h evs' ev hpre)

/-- The cursor crosses to the laptop before the laptop has connected: input is grabbed, and the
    laptop has no outbound queue. -/
theorem stranded_before_connection :
    ¬ ∀ (layout : ScreenLayout) (home : String) (evs : List ServerEvent),
      Mealy.EveryStep step (new layout home) evs fun _ c ev =>
        (c.step ev).1.Served ∧ c.Carried ev := by
  intro hall
  obtain ⟨hserved, -⟩ := hall twoScreens "srv" [.«local» (.motionAbs 1919 540)] []
    (.«local» (.motionAbs 1919 540)) (List.prefix_refl _)
  revert hserved
  unfold Served
  decide

end Controller

end SelfKvm
