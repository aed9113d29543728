/-
  The control deck (`ui/src/main.ts`), which shows the user how a session stands.

  The deck has no view into the runtimes.  It learns what the status forwarders of the desktop app
  (`src-tauri/src/lib.rs`) make of their reports, event by event, and keeps its own books: whether a
  session runs, how many clients there are, which screen is active.  A command that starts or stops
  a session changes them, too, when it has returned.  What it says about a server holds of a deck that
  is fresh and hears the session from its start: starting a session resets neither the active screen
  nor the count, and a status that comes late, or before a reload, is not told from the others.

  1. **The active screen** (`focus_shown`).  The deck names the screen the machine has active, from
     the first switch on; before that it names none, or, with TLS, the fingerprint of the server,
     which is reported as if it were a screen.

  2. **The number of clients** (`clients_shown`).  The deck counts arrivals and departures: that
     is the number of connections being served, in every run.  It is the number of screens in the
     controller's table, too, exactly as long as no two connections serve the same screen.

  3. **Whether a client runs** (`running_shown`).  The deck believes a client is running exactly as
     long as it has not handled its farewell after the start of the session: for ever, if the
     runtime ended without one, or said it before the command that started it had returned.
-/
import Mathlib.Data.Finset.Card
import SelfKvm.App.Sessions
import SelfKvm.Daemon.Backpressure
import SelfKvm.Daemon.Connection

namespace SelfKvm

/-! ## The code -/

/-- What the app emits on `kvm://status`. -/
structure StatusEvent where
  kind : String
  detail : String
  deriving DecidableEq, Repr

/-- The forwarder of a server's status. -/
def ServerStatus.event : ServerStatus → StatusEvent
  | .clientConnected n => .mk "client_connected" n
  | .clientDisconnected n => .mk "client_disconnected" n
  | .activeScreen n => .mk "active_screen" n
  | .grab b => .mk "grab" (toString b)

/-- The forwarder of a client's status. -/
def ClientStatus.event : ClientStatus → StatusEvent
  | .connecting => .mk "connecting" ""
  | .connected => .mk "connected" ""
  | .entered => .mk "entered" ""
  | .left => .mk "left" ""
  | .disconnected r => .mk "disconnected" r

/-- What a server reports before its controller runs: the fingerprint, if it has one, as if it were
    a screen, and where it listens. -/
def announced (fingerprint : Option String) (addr : String) : List StatusEvent :=
  (fingerprint.map fun fp => (ServerStatus.activeScreen ("tls:" ++ fp)).event).toList ++
    [.mk "listening" addr]

inductive Pill where
  | offline
  | live
  | linked
  deriving DecidableEq, Repr

inductive Tag where
  | plain
  | amber
  | red
  | muted
  deriving DecidableEq, Repr

/-- A line of the console, its time apart. -/
structure LogLine where
  tag : Tag
  label : String
  msg : String
  deriving DecidableEq, Repr

structure Deck where
  mode : Role
  running : Bool
  activeScreen : Option String
  clientCount : Nat
  pill : Pill
  /-- The text of the metric "State". -/
  state : String
  deriving DecidableEq, Repr

/-- What the deck takes up, one after the other. -/
inductive DeckEvent where
  /-- The user asks for a role. -/
  | setMode (m : Role)
  /-- A session is there: the command that starts it has returned, or it ran when the deck came
      up. -/
  | enterRunning (role : Role)
  /-- The command that starts a session has failed. -/
  | startFailed (e : String)
  /-- The command that stops the session has returned, with an error or without. -/
  | stopSession (failed : Option String)
  | status (payload : StatusEvent)
  deriving DecidableEq, Repr

namespace Deck

def new : Deck :=
  { mode := .server, running := false, activeScreen := none, clientCount := 0, pill := .offline
    state := "Idle" }

def setMode (d : Deck) (m : Role) : Deck × List LogLine :=
  if d.running then
    (d, [⟨.red, "BLOCKED", "stop the current session before switching role"⟩])
  else
    ({ d with mode := m }, [])

def enterRunning (d : Deck) (role : Role) : Deck :=
  { d with
    running := true
    pill := if role = .server then .live else .linked
    state := if role = .server then "Listening" else "Linking" }

def stopSession (d : Deck) (failed : Option String) : Deck × List LogLine :=
  ({ d with
      running := false, activeScreen := none, clientCount := 0, pill := .offline, state := "Idle" },
    (failed.map fun e => ⟨.red, "ERROR", e⟩).toList ++ [⟨.muted, "HALT", "session stopped"⟩])

def handleStatus (d : Deck) (payload : StatusEvent) : Deck × List LogLine :=
  match payload.kind with
  | "listening" => (d, [⟨.plain, "LISTEN", "server up on " ++ payload.detail⟩])
  | "client_connected" =>
    ({ d with clientCount := d.clientCount + 1 },
      [⟨.amber, "LINK", "client \"" ++ payload.detail ++ "\" connected"⟩])
  | "client_disconnected" =>
    -- never below zero
    ({ d with clientCount := d.clientCount - 1 },
      [⟨.muted, "DROP", "client \"" ++ payload.detail ++ "\" left"⟩])
  | "active_screen" =>
    ({ d with activeScreen := some payload.detail },
      [⟨.plain, "FOCUS", "control → " ++ payload.detail⟩])
  | "grab" =>
    (d, [⟨.muted, "GRAB", "local input " ++
      if payload.detail = "true" then "captured" else "released"⟩])
  | "connecting" => (d, [⟨.muted, "DIAL", "connecting…"⟩])
  | "connected" => ({ d with state := "Linked" }, [⟨.plain, "READY", "handshake complete"⟩])
  | "entered" => (d, [⟨.amber, "FOCUS", "cursor entered this screen"⟩])
  | "left" => (d, [⟨.muted, "BLUR", "cursor left this screen"⟩])
  | "disconnected" =>
    ({ d with running := false, pill := .offline, state := "Idle" },
      [⟨.red, "DOWN", if payload.detail = "" then "disconnected" else payload.detail⟩])
  | _ => (d, [])

def step (d : Deck) : DeckEvent → Deck × List LogLine
  | .setMode m => d.setMode m
  | .enterRunning role => (d.enterRunning role, [])
  | .startFailed e => (d, [⟨.red, "ERROR", e⟩])
  | .stopSession failed => d.stopSession failed
  | .status payload => d.handleStatus payload

/-- The deck after these statuses. -/
def after (d : Deck) (payloads : List StatusEvent) : Deck :=
  (Mealy.run step d (payloads.map .status)).1

end Deck

/-! ## What one status changes -/

namespace Deck

theorem after_append (d : Deck) (ps qs : List StatusEvent) :
    d.after (ps ++ qs) = (d.after ps).after qs := by
  unfold after
  rw [List.map_append, Mealy.run_append]

theorem after_cons (d : Deck) (p : StatusEvent) (ps : List StatusEvent) :
    d.after (p :: ps) = (d.handleStatus p).1.after ps := rfl

/-- The active screen as a server's statuses announce it. -/
def shown (screen : Option String) : ServerStatus → Option String
  | .activeScreen n => some n
  | _ => screen

/-- The number of clients as they count it. -/
def counted (n : Nat) : ServerStatus → Nat
  | .clientConnected _ => n + 1
  | .clientDisconnected _ => n - 1
  | _ => n

/-- **What a server's statuses come to.** -/
theorem after_server (d : Deck) (ss : List ServerStatus) :
    (d.after (ss.map ServerStatus.event)).activeScreen = ss.foldl shown d.activeScreen ∧
      (d.after (ss.map ServerStatus.event)).clientCount = ss.foldl counted d.clientCount := by
  induction ss generalizing d with
  | nil => exact ⟨rfl, rfl⟩
  | cons s ss ih =>
    rw [List.map_cons, after_cons, List.foldl_cons, List.foldl_cons]
    cases s <;> exact ih _

/-- What is announced before them counts nobody. -/
theorem after_announced (d : Deck) (fingerprint : Option String) (addr : String) :
    (d.after (announced fingerprint addr)).activeScreen =
        (fingerprint.map ("tls:" ++ ·)).or d.activeScreen ∧
      (d.after (announced fingerprint addr)).clientCount = d.clientCount := by
  cases fingerprint <;> exact ⟨rfl, rfl⟩

/-- A client's statuses stop the deck if there is a farewell among them, and start it never. -/
theorem after_client (d : Deck) (ss : List ClientStatus) :
    (d.after (ss.map ClientStatus.event)).running = true ↔
      d.running = true ∧ ∀ why, .disconnected why ∉ ss := by
  induction ss generalizing d with
  | nil => simp [after]
  | cons s ss ih =>
    rw [List.map_cons, after_cons, ih]
    cases s with
    | disconnected why =>
      constructor
      · rintro ⟨h, -⟩
        cases h
      · rintro ⟨-, h⟩
        exact absurd List.mem_cons_self (h why)
    | _ => simp [handleStatus, ClientStatus.event]

end Deck

/-! ## A server's session -/

/-- What the controller takes in one step of the server. -/
def Runtime.taken (r : Runtime) : Happening → List ServerEvent
  | .connection id o => (handleClient r.layout id (r.handlers id) o).2.filterMap ClientAct.told
  | .captured le => [.«local» le]
  | .tick => [.keepAliveTick]
  | .copied text => [.clipboardOut text]

/-- The server, showing the statuses that its steps report. -/
def Runtime.reported (r : Runtime) (h : Happening) : Runtime × List ServerStatus :=
  ((r.step h).1, (Mealy.run Controller.step r.controller (r.taken h)).2.filterMap Effect.told)

/-- The status reports a switch. -/
def ServerStatus.switches : ServerStatus → Bool
  | .activeScreen _ => true
  | _ => false

/-- A fresh deck that hears a server's session from its start, once it has handled all that was
    reported. -/
def serverDeck (fingerprint : Option String) (addr : String) (layout : ScreenLayout) (home : String)
    (hs : List Happening) : Deck :=
  ((Deck.new.enterRunning .server).after (announced fingerprint addr)).after
    ((Mealy.run Runtime.reported (.new layout home) hs).2.map ServerStatus.event)

namespace Runtime

theorem step_controller (r : Runtime) (h : Happening) :
    (r.step h).1.controller = (Mealy.run Controller.step r.controller (r.taken h)).1 := by
  cases h with
  | connection id o => rfl
  | captured le => rw [taken, Mealy.run_singleton]; rfl
  | tick => rw [taken, Mealy.run_singleton]; rfl
  | copied text => rw [taken, Mealy.run_singleton]; rfl

theorem run_reported (r : Runtime) (hs : List Happening) :
    (Mealy.run reported r hs).1 = (Mealy.run step r hs).1 := by
  apply Mealy.run_state_congr
  exact fun _ _ => rfl

/-- What is reported is what the controller tells of the events it takes. -/
theorem reported_told (layout : ScreenLayout) (home : String) (hs : List Happening) :
    ∃ evs, (Mealy.run step (new layout home) hs).1.controller =
        (Mealy.run Controller.step (.new layout home) evs).1 ∧
      (Mealy.run reported (new layout home) hs).2 =
        (Mealy.run Controller.step (.new layout home) evs).2.filterMap Effect.told := by
  induction hs using List.reverseRecOn with
  | nil => exact ⟨[], rfl, rfl⟩
  | append_singleton hs h ih =>
    obtain ⟨evs, hcontroller, houts⟩ := ih
    refine ⟨evs ++ (Mealy.run step (new layout home) hs).1.taken h, ?_, ?_⟩
    · rw [Mealy.run_concat, step_controller, hcontroller, Mealy.run_append]
    · rw [Mealy.run_concat, Mealy.run_append, List.filterMap_append, houts, run_reported,
        ← hcontroller]
      rfl

end Runtime

/-- Once a screen is announced, what was shown before does not matter. -/
theorem foldl_shown (ss : List ServerStatus) (screen : Option String) (home : String) :
    ss.foldl Deck.shown screen =
      if ss.any ServerStatus.switches then some (ss.foldl ServerStatus.focus home) else screen := by
  induction ss using List.reverseRecOn with
  | nil => rfl
  | append_singleton ss s ih =>
    rw [List.foldl_append, List.foldl_append, ih, List.any_append]
    cases s <;> simp [Deck.shown, ServerStatus.focus, ServerStatus.switches]

/-- **The active screen on the deck.**  For any server and any interleaving of its connections with
    captured input: a fresh deck, when it has handled what was reported, shows the screen that is active, once a switch has been reported, and
    before that the fingerprint as if it were a screen, or nothing without TLS. -/
theorem focus_shown (fingerprint : Option String) (addr : String) (layout : ScreenLayout)
    (home : String) (hs : List Happening) :
    (serverDeck fingerprint addr layout home hs).activeScreen =
      if (Mealy.run Runtime.reported (.new layout home) hs).2.any ServerStatus.switches then
        some (Mealy.run Runtime.step (.new layout home) hs).1.controller.machine.active
      else
        fingerprint.map ("tls:" ++ ·) := by
  unfold serverDeck
  obtain ⟨evs, hcontroller, houts⟩ := Runtime.reported_told layout home hs
  rw [(Deck.after_server _ _).1, foldl_shown _ _ home, (Deck.after_announced _ _ _).1, hcontroller,
    houts, (Controller.run_watched layout home evs).2]
  cases fingerprint <;> rfl

/-! ## The number of clients -/

/-- An action of the machine reports neither an arrival nor a departure. -/
theorem dispatch_counts (clients : Clients) (acts : List ServerAction) (n : Nat) :
    ((acts.flatMap (dispatch clients)).filterMap Effect.told).foldl Deck.counted n = n := by
  induction acts with
  | nil => rfl
  | cons act acts ih =>
    rw [List.flatMap_cons, List.filterMap_append, List.foldl_append]
    have hact : ((dispatch clients act).filterMap Effect.told).foldl Deck.counted n = n := by
      cases act with
      | send screen msg =>
        simp only [dispatch]
        split <;> rfl
      | _ => rfl
    rw [hact, ih]

/-- The count, once the controller has taken an event. -/
def ServerEvent.counted (n : Nat) : ServerEvent → Nat
  | .clientConnected .. => n + 1
  | .clientDisconnected _ => n - 1
  | _ => n

theorem step_counts (c : Controller) (ev : ServerEvent) (n : Nat) :
    ((c.step ev).2.filterMap Effect.told).foldl Deck.counted n = ev.counted n := by
  cases ev with
  | «local» le => exact dispatch_counts c.clients _ n
  | clientConnected screen size outbound => rfl
  | clientDisconnected screen =>
    have hgone : ∀ acts : List ServerAction, ((acts.flatMap (dispatch (c.clients.erase screen)) ++
        [Effect.status (.clientDisconnected screen)]).filterMap Effect.told).foldl Deck.counted n =
          n - 1 := by
      intro acts
      rw [List.filterMap_append, List.foldl_append, dispatch_counts]
      rfl
    exact hgone _
  | fromClient screen msg => cases msg <;> rfl
  | keepAliveTick => rw [show (c.step .keepAliveTick).2.filterMap Effect.told = [] from
      (broadcast_watched c.clients .keepAlive false).2]; rfl
  | clipboardOut text => rw [show (c.step (.clipboardOut text)).2.filterMap Effect.told = [] from
      (broadcast_watched c.clients (.clipboardData 0 (c.clipSeq + 1) 0 (utf8 text)) false).2]; rfl

namespace Runtime

/-- What a step does to the connections being served, the table and the count: one more is served,
    one less, or everything stays. -/
inductive Turnover (r : Runtime) (h : Happening) : Prop
  | nobody (hhandlers : ∀ s id, (r.step h).1.handlers id = .serving s ↔ r.handlers id = .serving s)
    (hclients : (r.step h).1.controller.clients = r.controller.clients)
    (hcount : ∀ n, (r.reported h).2.foldl Deck.counted n = n)
  | arrives {id : Sender} {name : String} (hfresh : ∀ s, r.handlers id ≠ .serving s)
    (hhandlers : (r.step h).1.handlers = Function.update r.handlers id (.serving name))
    (hclients : (r.step h).1.controller.clients = r.controller.clients.insert name id)
    (hcount : ∀ n, (r.reported h).2.foldl Deck.counted n = n + 1)
  | leaves {id : Sender} {name : String} {result : Except ClientError Unit}
    (hold : r.handlers id = .serving name)
    (hhandlers : (r.step h).1.handlers = Function.update r.handlers id (.ended result))
    (hclients : (r.step h).1.controller.clients = r.controller.clients.erase name)
    (hcount : ∀ n, (r.reported h).2.foldl Deck.counted n = n - 1)

theorem reported_counts {r : Runtime} {h : Happening} {ev : ServerEvent} (hev : r.taken h = [ev])
    (n : Nat) : (r.reported h).2.foldl Deck.counted n = ev.counted n := by
  rw [← step_counts r.controller ev n]
  simp only [reported, hev, Mealy.run_singleton]

theorem turnover (r : Runtime) (h : Happening) : r.Turnover h := by
  cases h with
  | captured le =>
    exact .nobody (fun _ _ => Iff.rfl) rfl (@reported_counts r _ (.«local» le) rfl)
  | tick => exact .nobody (fun _ _ => Iff.rfl) rfl (@reported_counts r _ .keepAliveTick rfl)
  | copied text =>
    exact .nobody (fun _ _ => Iff.rfl) rfl (@reported_counts r _ (.clipboardOut text) rfl)
  | connection id o =>
    have hout := task_outcome r.layout id (r.handlers id) o
    have hhandlers : (r.step (.connection id o)).1.handlers = Function.update r.handlers id
        (handleClient r.layout id (r.handlers id) o).1 := rfl
    have htaken : r.taken (.connection id o) =
        (handleClient r.layout id (r.handlers id) o).2.filterMap ClientAct.told := rfl
    have hcontroller := r.step_controller (.connection id o)
    generalize (handleClient r.layout id (r.handlers id) o).1 = p' at hout hhandlers
    generalize (handleClient r.layout id (r.handlers id) o).2.filterMap ClientAct.told = evs
      at hout htaken
    rw [htaken] at hcontroller
    generalize hp : r.handlers id = p at hout
    cases hout with
    | quiet _ _ hsame =>
      refine .nobody ?_ (by rw [hcontroller, Mealy.run_nil]) ?_
      · intro s other
        rw [hhandlers]
        exact update_serving (fun s => hp ▸ hsame s) s other
      · intro n
        simp only [reported, htaken]
        rfl
    | said name msg =>
      refine .nobody ?_ ?_ (reported_counts htaken)
      · intro s other
        rw [hhandlers]
        exact update_serving (fun s => hp ▸ Iff.rfl) s other
      · rw [hcontroller, Mealy.run_singleton, step_fromClient]
    | registered _ name size hfresh =>
      refine .arrives (fun s => hp ▸ hfresh s) hhandlers ?_ (reported_counts htaken)
      rw [hcontroller, Mealy.run_singleton]
      rfl
    | gone name e result ho =>
      refine .leaves hp hhandlers ?_ (reported_counts htaken)
      rw [hcontroller, Mealy.run_singleton]
      rfl

/-- The deck's count, and the connections that are being served. -/
structure Counts (r : Runtime) (n : Nat) (ids : List Sender) : Prop where
  nodup : ids.Nodup
  serving : ∀ id, id ∈ ids ↔ ∃ s, r.handlers id = .serving s
  count : n = ids.length

/-- **One step**: an arrival is one more, a departure one less. -/
theorem Counts.step {r : Runtime} {n : Nat} {ids : List Sender} (hc : r.Counts n ids)
    (h : Happening) : ∃ ids', (r.step h).1.Counts ((r.reported h).2.foldl Deck.counted n) ids' := by
  cases r.turnover h with
  | nobody hhandlers _ hcount =>
    refine ⟨ids, hc.nodup, fun id => ?_, (hcount n).trans hc.count⟩
    rw [hc.serving]
    exact exists_congr fun s => (hhandlers s id).symm
  | @arrives id name hfresh hhandlers _ hcount =>
    have hnew : id ∉ ids := by
      rw [hc.serving]
      rintro ⟨s, hs⟩
      exact hfresh s hs
    refine ⟨id :: ids, List.nodup_cons.mpr ⟨hnew, hc.nodup⟩, fun other => ?_, ?_⟩
    · rw [hhandlers, List.mem_cons]
      by_cases hother : other = id
      · rw [hother, Function.update_self]
        simp
      · rw [Function.update_of_ne hother, ← hc.serving]
        simp [hother]
    · rw [hcount, hc.count, List.length_cons]
  | @leaves id name result hold hhandlers _ hcount =>
    refine ⟨ids.erase id, hc.nodup.erase id, fun other => ?_, ?_⟩
    · rw [hhandlers, hc.nodup.mem_erase_iff]
      by_cases hother : other = id
      · rw [hother, Function.update_self]
        simp
      · rw [Function.update_of_ne hother, ← hc.serving]
        simp [hother]
    · rw [hcount, hc.count, List.length_erase_of_mem ((hc.serving id).mpr ⟨name, hold⟩)]

/-- The deck's count in a run. -/
theorem run_counts (layout : ScreenLayout) (home : String) (hs : List Happening) :
    ∃ ids, (Mealy.run Runtime.step (new layout home) hs).1.Counts
      ((Mealy.run reported (new layout home) hs).2.foldl Deck.counted 0) ids := by
  induction hs using List.reverseRecOn with
  | nil =>
    refine ⟨[], List.nodup_nil, fun id => ?_, rfl⟩
    exact ⟨(fun h => by cases h), (fun ⟨_, h⟩ => by cases h)⟩
  | append_singleton hs h ih =>
    obtain ⟨ids, hc⟩ := ih
    rw [Mealy.run_concat, Mealy.run_concat, List.foldl_append, run_reported]
    exact hc.step h

/-- No two connections serve the same screen. -/
def Distinct (r : Runtime) : Prop :=
  ∀ id id' s, r.handlers id = .serving s → r.handlers id' = .serving s → id = id'

/-- The screens in the table are served. -/
def Manned (r : Runtime) : Prop :=
  ∀ s, s ∈ r.controller.clients → ∃ id, r.handlers id = .serving s

theorem Manned.step {r : Runtime} (hm : r.Manned) (h : Happening) : (r.step h).1.Manned := by
  intro s hs
  cases r.turnover h with
  | nobody hhandlers hclients =>
    rw [hclients] at hs
    obtain ⟨id, hid⟩ := hm s hs
    exact ⟨id, (hhandlers s id).mpr hid⟩
  | @arrives id name hfresh hhandlers hclients =>
    rw [hclients] at hs
    rw [hhandlers]
    rcases (AList.mem_insert _).mp hs with rfl | hs
    · exact ⟨id, Function.update_self ..⟩
    · obtain ⟨other, hother⟩ := hm s hs
      have hne : other ≠ id := by
        rintro rfl
        exact hfresh s hother
      exact ⟨other, by rw [Function.update_of_ne hne]; exact hother⟩
  | @leaves id name result hold hhandlers hclients =>
    rw [hclients] at hs
    obtain ⟨hne, hs⟩ := AList.mem_erase.mp hs
    obtain ⟨other, hother⟩ := hm s hs
    have hid : other ≠ id := by
      rintro rfl
      rw [hold] at hother
      injection hother with hname
      exact hne hname.symm
    exact ⟨other, by rw [hhandlers, Function.update_of_ne hid]; exact hother⟩

theorem run_manned (layout : ScreenLayout) (home : String) (hs : List Happening) :
    (Mealy.run step (new layout home) hs).1.Manned := by
  induction hs using List.reverseRecOn with
  | nil =>
    intro s hs
    cases hs
  | append_singleton hs h ih =>
    rw [Mealy.run_concat]
    exact ih.step h

/-- The screen a connection serves. -/
def screenOf (r : Runtime) (id : Sender) : String :=
  match r.handlers id with
  | .serving s => s
  | _ => ""

theorem screenOf_serving {r : Runtime} {id : Sender} {s : String} (h : r.handlers id = .serving s) :
    r.screenOf id = s := by
  unfold screenOf
  rw [h]

/-- The screens in the table are among those of the connections. -/
theorem Counts.keys_subset {r : Runtime} {n : Nat} {ids : List Sender} (hc : r.Counts n ids)
    (hm : r.Manned) : r.controller.clients.keys.toFinset ⊆ ids.toFinset.image r.screenOf := by
  intro s hs
  obtain ⟨id, hid⟩ := hm s (AList.mem_keys.mpr (List.mem_toFinset.mp hs))
  exact Finset.mem_image.mpr
    ⟨id, List.mem_toFinset.mpr ((hc.serving id).mpr ⟨s, hid⟩), screenOf_serving hid⟩

/-- **If the count is the size of the table, nobody is served twice.** -/
theorem Counts.distinct {r : Runtime} {n : Nat} {ids : List Sender} (hc : r.Counts n ids)
    (hm : r.Manned) (hsize : n = r.controller.clients.keys.length) : r.Distinct := by
  have hkeys : r.controller.clients.keys.toFinset.card = n := by
    rw [List.toFinset_card_of_nodup r.controller.clients.keys_nodup, hsize]
  have hids : ids.toFinset.card = n := by
    rw [List.toFinset_card_of_nodup hc.nodup, hc.count]
  have hle := Finset.card_le_card (hc.keys_subset hm)
  have hinj : Set.InjOn r.screenOf ids.toFinset := by
    refine Finset.card_image_iff.mp (le_antisymm Finset.card_image_le ?_)
    rw [hids, ← hkeys]
    exact hle
  intro id id' s hid hid'
  refine hinj ?_ ?_ ((screenOf_serving hid).trans (screenOf_serving hid').symm)
  · exact List.mem_toFinset.mpr ((hc.serving id).mpr ⟨s, hid⟩)
  · exact List.mem_toFinset.mpr ((hc.serving id').mpr ⟨s, hid'⟩)

/-- **If nobody is served twice and everybody is in the table, the count is its size.** -/
theorem Counts.size {r : Runtime} {n : Nat} {ids : List Sender} (hc : r.Counts n ids)
    (hm : r.Manned) (hdistinct : r.Distinct)
    (htable : ∀ id s, r.handlers id = .serving s → s ∈ r.controller.clients) :
    n = r.controller.clients.keys.length := by
  have hsame : r.controller.clients.keys.toFinset = ids.toFinset.image r.screenOf := by
    refine Finset.Subset.antisymm (hc.keys_subset hm) ?_
    intro s hs
    obtain ⟨id, hid, rfl⟩ := Finset.mem_image.mp hs
    obtain ⟨s, hs⟩ := (hc.serving id).mp (List.mem_toFinset.mp hid)
    rw [screenOf_serving hs]
    exact List.mem_toFinset.mpr (AList.mem_keys.mp (htable id s hs))
  have hinj : Set.InjOn r.screenOf ids.toFinset := by
    intro id hid id' hid' heq
    obtain ⟨s, hs⟩ := (hc.serving id).mp (List.mem_toFinset.mp hid)
    obtain ⟨s', hs'⟩ := (hc.serving id').mp (List.mem_toFinset.mp hid')
    rw [screenOf_serving hs, screenOf_serving hs'] at heq
    exact hdistinct id id' s hs (heq ▸ hs')
  rw [← List.toFinset_card_of_nodup r.controller.clients.keys_nodup, hsame,
    Finset.card_image_of_injOn hinj, List.toFinset_card_of_nodup hc.nodup, hc.count]

/-- As long as nobody is served twice, everybody served is in the table. -/
theorem run_right (layout : ScreenLayout) (home : String) (hs : List Happening)
    (hdistinct : ∀ js, js <+: hs → (Mealy.run step (new layout home) js).1.Distinct) :
    Right (Mealy.run step (new layout home) hs).2
      (Mealy.run step (new layout home) hs).1.controller.clients := by
  induction hs using List.reverseRecOn with
  | nil => exact fun s => rfl
  | append_singleton hs h ih =>
    have hright := ih fun js hjs => hdistinct js (hjs.trans (List.prefix_append hs [h]))
    have hbefore := hdistinct hs (List.prefix_append hs [h])
    rw [Mealy.run_concat]
    refine (step_follows (run_tracked layout home hs) h).table hright ?_
    cases h with
    | connection id o =>
      cases o with
      | readFailed e => exact fun s hid other hother => hbefore other id s hother hid
      | _ => trivial
    | _ => trivial

end Runtime

/-- **The number of clients on the deck.**  For any server and any interleaving of its connections
    with captured input: such a deck counts the connections that are being served; and that is the
    number of screens in the controller's table, at every moment, exactly if at no moment two
    connections serve the same screen. -/
theorem clients_shown (fingerprint : Option String) (addr : String) (layout : ScreenLayout)
    (home : String) (hs : List Happening) :
    (∃ ids : List Sender, ids.Nodup ∧
      (∀ id, id ∈ ids ↔
        ∃ s, (Mealy.run Runtime.step (.new layout home) hs).1.handlers id = .serving s) ∧
      (serverDeck fingerprint addr layout home hs).clientCount = ids.length) ∧
    ((∀ js, js <+: hs → (serverDeck fingerprint addr layout home js).clientCount =
        (Mealy.run Runtime.step (.new layout home) js).1.controller.clients.keys.length) ↔
      ∀ js, js <+: hs → (Mealy.run Runtime.step (.new layout home) js).1.Distinct) := by
  have hcount : ∀ js, (serverDeck fingerprint addr layout home js).clientCount =
      (Mealy.run Runtime.reported (.new layout home) js).2.foldl Deck.counted 0 := by
    intro js
    unfold serverDeck
    rw [(Deck.after_server _ _).2, (Deck.after_announced _ _ _).2]
    rfl
  simp only [hcount]
  constructor
  · obtain ⟨ids, hc⟩ := Runtime.run_counts layout home hs
    exact ⟨ids, hc.nodup, hc.serving, hc.count⟩
  · constructor
    · intro hsize js hjs
      obtain ⟨ids, hc⟩ := Runtime.run_counts layout home js
      exact hc.distinct (Runtime.run_manned layout home js) (hsize js hjs)
    · intro hdistinct js hjs
      obtain ⟨ids, hc⟩ := Runtime.run_counts layout home js
      have hright := Runtime.run_right layout home js fun ks hks => hdistinct ks (hks.trans hjs)
      have htracked := Runtime.run_tracked layout home js
      refine hc.size (Runtime.run_manned layout home js) (hdistinct js hjs) ?_
      intro id s hid
      have hlive := (htracked.serving s id).mpr hid
      rw [← AList.lookup_isSome, hright s, List.isSome_head?]
      exact List.ne_nil_of_mem hlive

/-! ## A client's session -/

def ClientEffect.told : ClientEffect → Option ClientStatus
  | .status s => some s
  | _ => none

/-- The statuses a client's runtime has reported. -/
def clientStatuses (ioText : IoError → String) (tlsBuilt : Bool) (config : ClientConfig)
    (hs : List ClientHappening) : List ClientStatus :=
  (clientRun ioText tlsBuilt config hs).2.filterMap ClientEffect.told

/-- The deck of a client's session that has handled all that was reported, `k` reports of it before
    the command that started the session had returned. -/
def clientDeck (d : Deck) (k : Nat) (ss : List ClientStatus) : Deck :=
  ((d.after ((ss.take k).map ClientStatus.event)).enterRunning .client).after
    ((ss.drop k).map ClientStatus.event)

section

variable (ioText : IoError → String) (tlsBuilt : Bool) (config : ClientConfig)

/-- A farewell is the last report. -/
theorem farewell_drop (hs : List ClientHappening) (k : Nat) :
    (∃ why, .disconnected why ∈ (clientStatuses ioText tlsBuilt config hs).drop k) ↔
      k < (clientStatuses ioText tlsBuilt config hs).length ∧
        ∃ why, .status (.disconnected why) ∈ (clientRun ioText tlsBuilt config hs).2 := by
  have hlast := farewell_last ioText tlsBuilt config hs
  unfold clientStatuses
  generalize (clientRun ioText tlsBuilt config hs).2 = effs at hlast ⊢
  constructor
  · rintro ⟨why, hmem⟩
    refine ⟨?_, why, ?_⟩
    · by_contra hk
      rw [List.drop_of_length_le (Nat.not_lt.mp hk)] at hmem
      cases hmem
    · obtain ⟨eff, heff, htold⟩ := List.mem_filterMap.mp (List.mem_of_mem_drop hmem)
      cases eff with
      | status s =>
        injection htold with htold
        rwa [← htold]
      | _ => cases htold
  · rintro ⟨hk, why, hmem⟩
    refine ⟨why, ?_⟩
    -- it is the last effect, so it is left whatever goes before it
    have hne : effs ≠ [] := List.ne_nil_of_mem hmem
    have hsplit := List.dropLast_append_getLast hne
    have hfarewell : effs.getLast hne = .status (.disconnected why) := by
      rw [← hsplit] at hmem
      rcases List.mem_append.mp hmem with hmem | hmem
      · exact absurd hmem (hlast why)
      · exact (List.mem_singleton.mp hmem).symm
    rw [← hsplit, hfarewell, List.filterMap_append] at hk ⊢
    have hone : [ClientEffect.status (.disconnected why)].filterMap ClientEffect.told =
        [.disconnected why] := rfl
    rw [hone, List.length_append, List.length_singleton] at hk
    rw [hone, List.drop_append_of_le_length (by omega)]
    exact List.mem_append_right _ (List.mem_singleton_self _)

/-- **Whether a client runs, on the deck.**  For any configuration, whatever the runtime meets and
    however much of it the deck hears before it takes the session for started: once all is handled,
    the deck shows a running client exactly if the runtime has not ended, or has ended without a
    word, or nothing was left to be said when the session was taken for started. -/
theorem running_shown (d : Deck) (hs : List ClientHappening) (k : Nat) :
    (clientDeck d k (clientStatuses ioText tlsBuilt config hs)).running = true ↔
      (∀ result, (clientRun ioText tlsBuilt config hs).1 ≠ .ended result) ∨
      ¬Mealy.EveryStep (ClientTask.step ioText tlsBuilt config) .dialing hs
        (fun _ task h => ¬task.Silences h) ∨
      (clientStatuses ioText tlsBuilt config hs).length ≤ k := by
  have hdrop := farewell_drop ioText tlsBuilt config hs k
  rw [mem_farewell] at hdrop
  have hshown : (clientDeck d k (clientStatuses ioText tlsBuilt config hs)).running = true ↔
      ¬∃ why, .disconnected why ∈ (clientStatuses ioText tlsBuilt config hs).drop k := by
    unfold clientDeck
    rw [Deck.after_client, not_exists]
    exact and_iff_right rfl
  rw [hshown, hdrop, not_and_or, not_and_or, not_lt, not_exists, or_comm, or_assoc]

end

end SelfKvm
