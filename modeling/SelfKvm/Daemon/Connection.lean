/-
  Connections and the client table (`kvm-daemon/src/server.rs`, `handle_client`).

  Every accepted connection has a task of its own: a handshake, then a pump that reports whatever
  the peer says to the controller, and at last its end.  The task is a machine over what it meets
  (`handleClient`); the runtime is the controller with all the connections there ever will be, and
  a run of it is any interleaving of their steps with captured input.

  The reports name a screen, not a connection.  Two connections may come to serve the same screen,
  as when a client reconnects before its old connection is known to be dead; nothing refuses the
  second one, and the end of either removes whatever the table holds.  `reconnect_exact` says that
  this is the only way to go wrong: the table follows the live connections exactly as long as no
  connection ends while another one serves the same screen.
-/
import SelfKvm.Daemon.Controller
import SelfKvm.Net.Transport

namespace SelfKvm

/-! ## The code -/

/-- Why a connection's task gave up. -/
inductive ClientError where
  /-- The client runs an incompatible protocol. -/
  | incompatible (major : Int16)
  | notInLayout (name : String)
  | expectedHelloBack (got : Message)
  | expectedDeviceInfo (name : String) (got : Message)
  | net (e : NetError)
  deriving DecidableEq, Repr

/-- Where a connection's task is. -/
inductive Phase where
  | accepted
  /-- `Hello` is sent, the reply is awaited. -/
  | greeted
  /-- `QueryInfo` is sent, the geometry is awaited. -/
  | queried (name : String)
  /-- The handshake is complete and the controller knows the connection. -/
  | serving (name : String)
  | ended (result : Except ClientError Unit)
  deriving DecidableEq, Repr

/-- The answer that does not go through, counted from the first one, and why. -/
abbrev WriteFailure : Type := Option (Nat × NetError)

/-- What a task meets. -/
inductive Occurrence where
  | start (fails : WriteFailure)
  | received (msg : Message) (fails : WriteFailure)
  | readFailed (e : NetError)
  deriving DecidableEq, Repr

/-- What a task does. -/
inductive ClientAct where
  /-- Send to the peer. -/
  | reply (msg : Message)
  /-- Send to the controller. -/
  | report (ev : ServerEvent)
  deriving DecidableEq, Repr

def ClientAct.told : ClientAct → Option ServerEvent
  | .reply _ => none
  | .report ev => some ev

def ClientAct.said : ClientAct → Option Message
  | .reply msg => some msg
  | .report _ => none

/-- The first `n` messages go through. -/
def WriteFailure.Spares (n : Nat) : WriteFailure → Prop
  | none => True
  | some (k, _) => n ≤ k

instance (n : Nat) : (fails : WriteFailure) → Decidable (fails.Spares n)
  | none => isTrue trivial
  | some (k, _) => inferInstanceAs (Decidable (n ≤ k))

/-- Send the messages in order and go on, or give up at the first that does not go through. -/
def sendAll (msgs : List Message) (fails : WriteFailure) (next : Phase) (reports : List ServerEvent) :
    Phase × List ClientAct :=
  match fails with
  | some (n, e) =>
    if n < msgs.length then
      (.ended (.error (.net e)), (msgs.take n).map .reply)
    else
      (next, msgs.map .reply ++ reports.map .report)
  | none => (next, msgs.map .reply ++ reports.map .report)

/-- One step of the task that greets a client, validates it and then pumps its connection. -/
def handleClient (layout : ScreenLayout) (outTx : Sender) :
    Phase → Occurrence → Phase × List ClientAct
  | .accepted, .start fails => sendAll [.hello protocolMajor protocolMinor] fails .greeted []
  | .greeted, .received msg fails =>
    match msg with
    | .helloBack major _ name =>
      if major ≠ protocolMajor then
        -- the refusal is sent if it can be
        (.ended (.error (.incompatible major)),
          (sendAll [.errIncompatible protocolMajor protocolMinor] fails .greeted []).2)
      else if !layout.contains name then
        (.ended (.error (.notInLayout name)), (sendAll [.errUnknown] fails .greeted []).2)
      else
        sendAll [.queryInfo] fails (.queried name) []
    | other => (.ended (.error (.expectedHelloBack other)), [])
  | .queried name, .received msg fails =>
    match msg with
    | .deviceInfo _ _ w h _ _ _ =>
      sendAll [.infoAck, .resetOptions, .setOptions []] fails (.serving name)
        [.clientConnected name (w.toInt32, h.toInt32) outTx]
    | other => (.ended (.error (.expectedDeviceInfo name other)), [])
  | .serving name, .received msg _ => (.serving name, [.report (.fromClient name msg)])
  | .serving name, .readFailed e =>
    -- a closed connection is no error; either way the end is reported
    (.ended (if e = .closed then .ok () else .error (.net e)), [.report (.clientDisconnected name)])
  | .greeted, .readFailed e => (.ended (.error (.net e)), [])
  | .queried _, .readFailed e => (.ended (.error (.net e)), [])
  | phase, _ => (phase, [])

/-- The server with its connections; each is known by the sending half of its outbound queue. -/
structure Runtime where
  layout : ScreenLayout
  handlers : Sender → Phase
  controller : Controller

/-- What can happen next. -/
inductive Happening where
  | connection (id : Sender) (o : Occurrence)
  | captured (le : LocalEvent)
  | tick
  | copied (text : String)
  deriving DecidableEq, Repr

namespace Runtime

def new (layout : ScreenLayout) (localScreen : String) : Runtime :=
  { layout, handlers := fun _ => .accepted, controller := .new layout localScreen }

/-- One step of one task, and what it makes the controller do.  The step shows what the controller
    was told by which connection. -/
def step (r : Runtime) : Happening → Runtime × List (Sender × ServerEvent)
  | .connection id o =>
    let (phase, acts) := handleClient r.layout id (r.handlers id) o
    let told := acts.filterMap ClientAct.told
    ({ r with
        handlers := Function.update r.handlers id phase
        controller := (Mealy.run Controller.step r.controller told).1 },
      told.map fun ev => (id, ev))
  | .captured le => ({ r with controller := (r.controller.step (.«local» le)).1 }, [])
  | .tick => ({ r with controller := (r.controller.step .keepAliveTick).1 }, [])
  | .copied text => ({ r with controller := (r.controller.step (.clipboardOut text)).1 }, [])

end Runtime

/-! ## The live connections -/

/-- What a report does to the connections that serve `s`. -/
def liveStep (s : String) (ids : List Sender) : Sender × ServerEvent → List Sender
  | (id, .clientConnected screen _ _) => if screen = s then id :: ids else ids
  | (id, .clientDisconnected screen) => if screen = s then ids.erase id else ids
  | _ => ids

/-- The connections that were registered for `s` and have not disconnected, the latest first. -/
def live (s : String) (told : List (Sender × ServerEvent)) : List Sender :=
  told.foldl (liveStep s) []

theorem live_append (s : String) (told more : List (Sender × ServerEvent)) :
    live s (told ++ more) = more.foldl (liveStep s) (live s told) := by
  unfold live
  rw [List.foldl_append]

namespace Runtime

/-- The step ends the connection, while none other serves the same screen. -/
def EndsAlone (r : Runtime) : Happening → Prop
  | .connection id (.readFailed _) =>
    ∀ s, r.handlers id = .serving s → ∀ other, r.handlers other = .serving s → other = id
  | _ => True

/-- After the step the table is right: every screen has the queue of its latest live connection; and
    the end of an older connection leaves the cursor alone. -/
def Current (told : List (Sender × ServerEvent)) (r : Runtime) (h : Happening) : Prop :=
  (∀ s, (r.step h).1.controller.clients.lookup s = (live s (told ++ (r.step h).2)).head?) ∧
  ∀ id e s newest, h = .connection id (.readFailed e) → r.handlers id = .serving s →
    (live s told).head? = some newest → newest ≠ id →
    (r.step h).1.controller.clients.lookup s = some newest ∧
    (r.step h).1.controller.machine = r.controller.machine

/-! ## One step -/

theorem sendAll_spares {msgs : List Message} {fails : WriteFailure} {next : Phase}
    {reports : List ServerEvent} (h : fails.Spares msgs.length) :
    sendAll msgs fails next reports = (next, msgs.map .reply ++ reports.map .report) := by
  unfold sendAll
  rcases fails with _ | ⟨n, e⟩
  · rfl
  · exact if_neg (Nat.not_lt.mpr h)

theorem sendAll_fails {msgs : List Message} {fails : WriteFailure} (next : Phase)
    (reports : List ServerEvent) (h : ¬ fails.Spares msgs.length) :
    ∃ n e, fails = some (n, e) ∧
      sendAll msgs fails next reports = (.ended (.error (.net e)), (msgs.take n).map .reply) := by
  rcases fails with _ | ⟨n, e⟩
  · exact absurd trivial h
  · exact ⟨n, e, rfl, if_pos (Nat.not_le.mp h)⟩

/-- The ways in which a task takes a step. -/
inductive Handled (layout : ScreenLayout) (id : Sender) :
    Phase → Occurrence → Phase × List ClientAct → Prop
  /-- That is not what it waits for. -/
  | still (p : Phase) (o : Occurrence) : Handled layout id p o (p, [])
  | greets (fails : WriteFailure) :
      Handled layout id .accepted (.start fails)
        (sendAll [.hello protocolMajor protocolMinor] fails .greeted [])
  /-- The peer is refused, and told so if that can be. -/
  | refuses (msg : Message) (fails : WriteFailure) (refusal : Message)
      (result : Except ClientError Unit)
      (hrefusal : refusal = .errIncompatible protocolMajor protocolMinor ∨ refusal = .errUnknown) :
      Handled layout id .greeted (.received msg fails)
        (.ended result, (sendAll [refusal] fails .greeted []).2)
  | asks (minor : Int16) (name : String) (fails : WriteFailure)
      (hname : layout.contains name = true) :
      Handled layout id .greeted (.received (.helloBack protocolMajor minor name) fails)
        (sendAll [.queryInfo] fails (.queried name) [])
  | admits (name : String) (x y w h warp mx my : Int16) (fails : WriteFailure) :
      Handled layout id (.queried name) (.received (.deviceInfo x y w h warp mx my) fails)
        (sendAll [.infoAck, .resetOptions, .setOptions []] fails (.serving name)
          [.clientConnected name (w.toInt32, h.toInt32) id])
  | passesOn (name : String) (msg : Message) (fails : WriteFailure) :
      Handled layout id (.serving name) (.received msg fails)
        (.serving name, [.report (.fromClient name msg)])
  | leaves (name : String) (e : NetError) (result : Except ClientError Unit) :
      Handled layout id (.serving name) (.readFailed e)
        (.ended result, [.report (.clientDisconnected name)])
  /-- The handshake ends without a word. -/
  | givesUp (p : Phase) (o : Occurrence) (result : Except ClientError Unit)
      (hp : ∀ name, p ≠ .serving name) : Handled layout id p o (.ended result, [])

/-- **There are no other ways.** -/
theorem handleClient_handled (layout : ScreenLayout) (id : Sender) (p : Phase) (o : Occurrence) :
    Handled layout id p o (handleClient layout id p o) := by
  cases p with
  | accepted =>
    cases o with
    | start fails => exact .greets fails
    | _ => exact .still _ _
  | greeted =>
    cases o with
    | start fails => exact .still _ _
    | readFailed e => exact .givesUp _ _ _ fun _ h => by cases h
    | received msg fails =>
      cases msg with
      | helloBack major minor name =>
        simp only [handleClient]
        by_cases hmajor : major = protocolMajor
        · subst hmajor
          by_cases hname : layout.contains name = true
          · simp only [ne_eq, not_true_eq_false, if_false, hname, Bool.not_true,
              Bool.false_eq_true]
            exact .asks minor name fails hname
          · simp only [ne_eq, not_true_eq_false, if_false, hname, Bool.not_false, if_true]
            exact .refuses _ fails _ _ (.inr rfl)
        · simp only [hmajor, ne_eq, not_false_eq_true, if_true]
          exact .refuses _ fails _ _ (.inl rfl)
      | _ => exact .givesUp _ _ _ fun _ h => by cases h
  | queried name =>
    cases o with
    | start fails => exact .still _ _
    | readFailed e => exact .givesUp _ _ _ fun _ h => by cases h
    | received msg fails =>
      cases msg with
      | deviceInfo x y w h warp mx my => exact .admits name x y w h warp mx my fails
      | _ => exact .givesUp _ _ _ fun _ h => by cases h
  | serving name =>
    cases o with
    | start fails => exact .still _ _
    | received msg fails => exact .passesOn name msg fails
    | readFailed e => exact .leaves name e _
  | ended result => cases o <;> exact .still _ _

/-- What one step of a task comes to for the controller. -/
inductive TaskOutcome (id : Sender) (o : Occurrence) : Phase → Phase → List ServerEvent → Prop
  /-- Nothing is reported, and the handshake is not completed. -/
  | quiet (p p' : Phase) (h : ∀ s, p' = .serving s ↔ p = .serving s) : TaskOutcome id o p p' []
  /-- The handshake is complete. -/
  | registered (p : Phase) (name : String) (size : Int32 × Int32) (hp : ∀ s, p ≠ .serving s) :
      TaskOutcome id o p (.serving name) [.clientConnected name size id]
  | said (name : String) (msg : Message) :
      TaskOutcome id o (.serving name) (.serving name) [.fromClient name msg]
  | gone (name : String) (e : NetError) (result : Except ClientError Unit)
      (ho : o = .readFailed e) :
      TaskOutcome id o (.serving name) (.ended result) [.clientDisconnected name]

theorem told_replies (msgs : List Message) :
    (msgs.map ClientAct.reply).filterMap ClientAct.told = [] := by
  rw [List.filterMap_map]
  exact List.filterMap_eq_nil_iff.mpr fun _ _ => rfl

theorem told_reports (reports : List ServerEvent) :
    (reports.map ClientAct.report).filterMap ClientAct.told = reports := by
  rw [List.filterMap_map]
  exact List.filterMap_some

/-- Sending either fails without a report, or goes on with all of them. -/
theorem sendAll_told (msgs : List Message) (fails : WriteFailure) (next : Phase)
    (reports : List ServerEvent) :
    (∃ result, (sendAll msgs fails next reports).1 = .ended result ∧
      (sendAll msgs fails next reports).2.filterMap ClientAct.told = []) ∨
    ((sendAll msgs fails next reports).1 = next ∧
      (sendAll msgs fails next reports).2.filterMap ClientAct.told = reports) := by
  by_cases h : fails.Spares msgs.length
  · right
    rw [sendAll_spares h, List.filterMap_append, told_replies, told_reports, List.nil_append]
    exact ⟨rfl, rfl⟩
  · left
    obtain ⟨n, e, -, hfails⟩ := sendAll_fails next reports h
    rw [hfails]
    exact ⟨_, rfl, told_replies _⟩

/-- A report is made only when everything that was to be sent before it went through. -/
theorem sendAll_report {msgs : List Message} {fails : WriteFailure} {next : Phase}
    {reports : List ServerEvent} {ev : ServerEvent}
    (h : ev ∈ (sendAll msgs fails next reports).2.filterMap ClientAct.told) :
    fails.Spares msgs.length ∧ ev ∈ reports := by
  by_cases hspares : fails.Spares msgs.length
  · rw [sendAll_spares hspares, List.filterMap_append, told_replies, told_reports,
      List.nil_append] at h
    exact ⟨hspares, h⟩
  · obtain ⟨n, e, -, hfails⟩ := sendAll_fails next reports hspares
    rw [hfails, told_replies] at h
    cases h

/-- Nothing is reported on the way through a handshake. -/
theorem sendAll_quiet (msgs : List Message) (fails : WriteFailure) (next : Phase) :
    (sendAll msgs fails next []).2.filterMap ClientAct.told = [] := by
  rcases sendAll_told msgs fails next [] with ⟨-, -, h⟩ | ⟨-, h⟩
  · exact h
  · exact h

theorem said_replies (msgs : List Message) :
    (msgs.map ClientAct.reply).filterMap ClientAct.said = msgs := by
  rw [List.filterMap_map]
  exact List.filterMap_some

/-- What goes out before a failure is a first part of what was to be sent. -/
theorem sendAll_said (msgs : List Message) (fails : WriteFailure) (next : Phase)
    (reports : List ServerEvent) :
    (sendAll msgs fails next reports).2.filterMap ClientAct.said =
      match fails with
      | none => msgs
      | some (n, _) => msgs.take n := by
  have hreports : (reports.map ClientAct.report).filterMap ClientAct.said = [] := by
    rw [List.filterMap_map]
    exact List.filterMap_eq_nil_iff.mpr fun _ _ => rfl
  by_cases h : fails.Spares msgs.length
  · rw [sendAll_spares h, List.filterMap_append, said_replies, hreports, List.append_nil]
    rcases fails with _ | ⟨n, e⟩
    · rfl
    · exact (List.take_of_length_le h).symm
  · obtain ⟨n, e, rfl, hfails⟩ := sendAll_fails next reports h
    rw [hfails, said_replies]

/-- What a task sends is among what it means to send. -/
theorem mem_sendAll {msgs : List Message} {fails : WriteFailure} {next : Phase}
    {reports : List ServerEvent} {m : Message}
    (h : m ∈ (sendAll msgs fails next reports).2.filterMap ClientAct.said) : m ∈ msgs := by
  rw [sendAll_said] at h
  cases fails with
  | none => exact h
  | some failure => exact List.mem_of_mem_take h

/-- **There are no other outcomes of a task's step.** -/
theorem task_outcome (layout : ScreenLayout) (id : Sender) (p : Phase) (o : Occurrence) :
    TaskOutcome id o p (handleClient layout id p o).1
      ((handleClient layout id p o).2.filterMap ClientAct.told) := by
  have hend : ∀ result, (∀ s, p ≠ .serving s) → TaskOutcome id o p (.ended result) [] := by
    intro result hp
    exact .quiet _ _ fun s => ⟨(fun h => by cases h), fun h => absurd h (hp s)⟩
  -- a send on the way to the next phase of the handshake
  have hsend : ∀ msgs fails next, (∀ s, p ≠ .serving s) → (∀ s, next ≠ .serving s) →
      TaskOutcome id o p (sendAll msgs fails next []).1
        ((sendAll msgs fails next []).2.filterMap ClientAct.told) := by
    intro msgs fails next hp hnext
    rcases sendAll_told msgs fails next [] with ⟨result, h₁, h₂⟩ | ⟨h₁, h₂⟩
    · rw [h₁, h₂]
      exact hend result hp
    · rw [h₁, h₂]
      exact .quiet _ _ fun s => ⟨fun h => absurd h (hnext s), fun h => absurd h (hp s)⟩
  have hstep := handleClient_handled layout id p o
  generalize handleClient layout id p o = r at hstep ⊢
  cases hstep with
  | still => exact .quiet _ _ fun s => Iff.rfl
  | greets fails => exact hsend _ fails _ (fun _ h => by cases h) fun _ h => by cases h
  | refuses msg fails refusal result =>
    rw [sendAll_quiet]
    exact hend result fun _ h => by cases h
  | asks minor name fails => exact hsend _ fails _ (fun _ h => by cases h) fun _ h => by cases h
  | admits name x y w h warp mx my fails =>
    rcases sendAll_told [.infoAck, .resetOptions, .setOptions []] fails (.serving name)
      [.clientConnected name (w.toInt32, h.toInt32) id] with ⟨result, h₁, h₂⟩ | ⟨h₁, h₂⟩
    · rw [h₁, h₂]
      exact hend result fun _ h => by cases h
    · rw [h₁, h₂]
      exact .registered _ name _ fun _ h => by cases h
  | passesOn name msg fails => exact .said name msg
  | leaves name e result => exact .gone name e result rfl
  | givesUp _ _ result hp => exact hend result hp

/-! ## The connections that are live -/

/-- The reports tell the live connections apart from the others. -/
structure Tracked (told : List (Sender × ServerEvent)) (handlers : Sender → Phase) : Prop where
  nodup : ∀ s, (live s told).Nodup
  serving : ∀ s id, id ∈ live s told ↔ handlers id = .serving s

/-- Every screen has the queue of its latest live connection. -/
def Right (told : List (Sender × ServerEvent)) (clients : Clients) : Prop :=
  ∀ s, clients.lookup s = (live s told).head?

section Reports

variable {told : List (Sender × ServerEvent)} {handlers : Sender → Phase} {clients : Clients}
  {id : Sender} {name : String} {size : Int32 × Int32}

theorem live_connected (s : String) :
    live s (told ++ [(id, .clientConnected name size id)]) =
      if name = s then id :: live s told else live s told := by
  rw [live_append]
  rfl

theorem live_disconnected (s : String) :
    live s (told ++ [(id, .clientDisconnected name)]) =
      if name = s then (live s told).erase id else live s told := by
  rw [live_append]
  rfl

/-- A connection that was not registered is. -/
theorem Tracked.connected (hr : Tracked told handlers) (hfresh : ∀ s, handlers id ≠ .serving s) :
    Tracked (told ++ [(id, .clientConnected name size id)])
      (Function.update handlers id (.serving name)) := by
  have hnew : ∀ s, id ∉ live s told := by
    intro s hmem
    exact hfresh s ((hr.serving s id).mp hmem)
  refine ⟨fun s => ?_, fun s other => ?_⟩
  · rw [live_connected]
    by_cases hs : name = s
    · rw [if_pos hs]
      exact List.nodup_cons.mpr ⟨hnew s, hr.nodup s⟩
    · rw [if_neg hs]
      exact hr.nodup s
  · rw [live_connected]
    by_cases hother : other = id
    · subst hother
      rw [Function.update_self]
      by_cases hs : name = s
      · simp [hs]
      · simp [hs, hnew s]
    · rw [Function.update_of_ne hother, ← hr.serving s other]
      by_cases hs : name = s
      · simp [hs, hother]
      · simp [hs]

/-- A connection that served a screen ends. -/
theorem Tracked.disconnected (hr : Tracked told handlers) (hp : handlers id = .serving name)
    (result : Except ClientError Unit) :
    Tracked (told ++ [(id, .clientDisconnected name)])
      (Function.update handlers id (.ended result)) := by
  refine ⟨fun s => ?_, fun s other => ?_⟩
  · rw [live_disconnected]
    by_cases hs : name = s
    · rw [if_pos hs]
      exact (hr.nodup s).erase id
    · rw [if_neg hs]
      exact hr.nodup s
  · rw [live_disconnected]
    by_cases hother : other = id
    · subst hother
      rw [Function.update_self]
      by_cases hs : name = s
      · simp [hs, (hr.nodup s).mem_erase_iff]
      · simp [hs, hr.serving s other, hp]
    · rw [Function.update_of_ne hother, ← hr.serving s other]
      by_cases hs : name = s
      · simp [hs, (hr.nodup s).mem_erase_iff, hother]
      · simp [hs]

/-- A connection that serves its screen alone is all there is on the list. -/
theorem Tracked.alone (hr : Tracked told handlers) (hp : handlers id = .serving name)
    (halone : ∀ other, handlers other = .serving name → other = id) : live name told = [id] := by
  have hmem : id ∈ live name told := (hr.serving name id).mpr hp
  have hrep : live name told = List.replicate (live name told).length id :=
    List.eq_replicate_of_mem fun other hother => halone other ((hr.serving name other).mp hother)
  have hnd := hr.nodup name
  rw [hrep, List.nodup_replicate] at hnd
  have hpos := List.length_pos_of_mem hmem
  have hone : (live name told).length = 1 := by omega
  rw [hrep, hone]
  rfl

theorem Right.connected (h : Right told clients) :
    Right (told ++ [(id, .clientConnected name size id)]) (clients.insert name id) := by
  intro s
  rw [live_connected]
  by_cases hs : name = s
  · subst hs
    rw [if_pos rfl, AList.lookup_insert]
    rfl
  · rw [if_neg hs, AList.lookup_insert_ne (Ne.symm hs)]
    exact h s

/-- The end of a connection clears the entry, which is right if there is nobody else. -/
theorem Right.disconnected (h : Right told clients) (honly : live name told = [id]) :
    Right (told ++ [(id, .clientDisconnected name)]) (clients.erase name) := by
  intro s
  rw [live_disconnected]
  by_cases hs : name = s
  · subst hs
    rw [if_pos rfl, AList.lookup_erase, honly, List.erase_cons_head]
    rfl
  · rw [if_neg hs, AList.lookup_erase_ne (Ne.symm hs)]
    exact h s

end Reports

/-- What is live after a step, and what the table then holds. -/
structure Follows (told : List (Sender × ServerEvent)) (r : Runtime) (h : Happening) : Prop where
  tracked : Tracked (told ++ (r.step h).2) (r.step h).1.handlers
  table : Right told r.controller.clients → r.EndsAlone h →
    Right (told ++ (r.step h).2) (r.step h).1.controller.clients

/-- A step that the table and the connections do not notice. -/
theorem follows_unnoticed {told : List (Sender × ServerEvent)} {r : Runtime} {h : Happening}
    (hr : Tracked told r.handlers) (hlive : ∀ s, live s (told ++ (r.step h).2) = live s told)
    (hhandlers : ∀ s id, (r.step h).1.handlers id = .serving s ↔ r.handlers id = .serving s)
    (hclients : (r.step h).1.controller.clients = r.controller.clients) : Follows told r h where
  tracked := by
    refine ⟨fun s => ?_, fun s id => ?_⟩
    · rw [hlive]
      exact hr.nodup s
    · rw [hlive, hhandlers]
      exact hr.serving s id
  table := by
    intro htable _ s
    rw [hlive, hclients]
    exact htable s

theorem step_fromClient (c : Controller) (screen : String) (msg : Message) :
    (c.step (.fromClient screen msg)).1 = c := by
  cases msg <;> rfl

theorem update_serving {handlers : Sender → Phase} {id : Sender} {p : Phase}
    (h : ∀ s, p = .serving s ↔ handlers id = .serving s) (s : String) (other : Sender) :
    Function.update handlers id p other = .serving s ↔ handlers other = .serving s := by
  by_cases hother : other = id
  · subst hother
    rw [Function.update_self]
    exact h s
  · rw [Function.update_of_ne hother]

theorem connection_follows {told : List (Sender × ServerEvent)} {r : Runtime}
    (hr : Tracked told r.handlers) (id : Sender) (o : Occurrence) :
    Follows told r (.connection id o) := by
  have hout := task_outcome r.layout id (r.handlers id) o
  have hstep : r.step (.connection id o) =
      ({ r with
          handlers := Function.update r.handlers id (handleClient r.layout id (r.handlers id) o).1
          controller := (Mealy.run Controller.step r.controller
            ((handleClient r.layout id (r.handlers id) o).2.filterMap ClientAct.told)).1 },
        ((handleClient r.layout id (r.handlers id) o).2.filterMap ClientAct.told).map
          fun ev => (id, ev)) := rfl
  generalize (handleClient r.layout id (r.handlers id) o).1 = p' at hout hstep
  generalize (handleClient r.layout id (r.handlers id) o).2.filterMap ClientAct.told = evs
    at hout hstep
  generalize hp : r.handlers id = p at hout
  cases hout with
  | quiet _ _ h =>
    refine follows_unnoticed hr ?_ ?_ ?_
    · intro s
      rw [hstep, List.map_nil, List.append_nil]
    · intro s other
      rw [hstep]
      exact update_serving (fun s => hp ▸ h s) s other
    · rw [hstep]
      rfl
  | said name msg =>
    refine follows_unnoticed hr ?_ ?_ ?_
    · intro s
      rw [hstep, live_append]
      rfl
    · intro s other
      rw [hstep]
      exact update_serving (fun s => hp ▸ Iff.rfl) s other
    · rw [hstep, Mealy.run_singleton, step_fromClient]
  | registered _ name size hfresh =>
    constructor
    · rw [hstep]
      exact hr.connected fun s => hp ▸ hfresh s
    · intro htable _
      rw [hstep]
      exact htable.connected
  | gone name e result ho =>
    subst ho
    constructor
    · rw [hstep]
      exact hr.disconnected hp result
    · intro htable halone
      rw [hstep]
      exact htable.disconnected (hr.alone hp (halone name hp))

/-- **One step.**  The live connections are tracked whatever happens; the table stays right while no
    connection ends in the shadow of another. -/
theorem step_follows {told : List (Sender × ServerEvent)} {r : Runtime}
    (hr : Tracked told r.handlers) (h : Happening) : Follows told r h := by
  have hnil : ∀ h' : Happening, (r.step h').2 = [] → ∀ s,
      live s (told ++ (r.step h').2) = live s told := by
    intro h' hnone s
    rw [hnone, List.append_nil]
  cases h with
  | connection id o => exact connection_follows hr id o
  | captured le => exact follows_unnoticed hr (hnil _ rfl) (fun _ _ => Iff.rfl) rfl
  | tick => exact follows_unnoticed hr (hnil _ rfl) (fun _ _ => Iff.rfl) rfl
  | copied text => exact follows_unnoticed hr (hnil _ rfl) (fun _ _ => Iff.rfl) rfl

/-! ## Whole runs -/

/-- Whatever happens, the reports track the live connections. -/
theorem run_tracked (layout : ScreenLayout) (home : String) (hs : List Happening) :
    Tracked (Mealy.run step (new layout home) hs).2
      (Mealy.run step (new layout home) hs).1.handlers := by
  apply Mealy.run_induction step (P := fun _ r told => Tracked told r.handlers)
  · refine ⟨fun s => List.nodup_nil, fun s id => ?_⟩
    exact ⟨(fun h => by cases h), fun h => by cases h⟩
  · intro _ r told h hr
    exact (step_follows hr h).tracked

/-- **Exactly when reconnects are harmless.**  For any layout and any interleaving of the tasks of
    any number of connections with captured input: the table always holds the queue of the latest
    live connection of every screen, and the end of an older connection touches neither it nor the
    cursor — if and only if no connection ends while another one serves the same screen. -/
theorem reconnect_exact (layout : ScreenLayout) (home : String) (hs : List Happening) :
    Mealy.EveryStep step (new layout home) hs Current ↔
      Mealy.EveryStep step (new layout home) hs fun _ r h => r.EndsAlone h := by
  constructor
  · intro hcurrent hs' h hpre
    have hr := run_tracked layout home hs'
    obtain ⟨htable, -⟩ := hcurrent hs' h hpre
    generalize (Mealy.run step (new layout home) hs').1 = r,
      (Mealy.run step (new layout home) hs').2 = told at hr htable ⊢
    cases h with
    | connection id o =>
      cases o with
      | readFailed e =>
        intro s hserving other hother
        by_contra hne
        -- the entry is gone, but the other connection is live
        have hlive : live s (told ++ (r.step (.connection id (.readFailed e))).2) =
            (live s told).erase id := by
          rw [live_append]
          simp [step, handleClient, hserving, ClientAct.told, liveStep]
        have hgone : (r.step (.connection id (.readFailed e))).1.controller.clients.lookup s
            = none := by
          simp [step, handleClient, hserving, ClientAct.told, Controller.step]
        have hempty : (live s told).erase id = [] := by
          rw [← List.head?_eq_none_iff, ← hlive, ← htable s, hgone]
        have hmem : other ∈ (live s told).erase id :=
          ((hr.nodup s).mem_erase_iff).mpr ⟨hne, (hr.serving s other).mpr hother⟩
        rw [hempty] at hmem
        cases hmem
      | _ => trivial
    | _ => trivial
  · intro halone
    have htable : Mealy.EveryStep step (new layout home) hs fun told r _ =>
        Tracked told r.handlers ∧ Right told r.controller.clients := by
      refine halone.invariant _ (P := fun told r =>
        Tracked told r.handlers ∧ Right told r.controller.clients) ?_ ?_
      · exact ⟨run_tracked layout home [], fun s => rfl⟩
      · rintro told r h ⟨hr, htable⟩ hh
        exact ⟨(step_follows hr h).tracked, (step_follows hr h).table htable hh⟩
    intro hs' h hpre
    obtain ⟨hr, htable⟩ := htable hs' h hpre
    have hh := halone hs' h hpre
    refine ⟨(step_follows hr h).table htable hh, ?_⟩
    rintro id e s newest rfl hserving hnewest hne
    -- the newest connection is live, so this one is not alone
    have hmem : newest ∈ live s _ := List.mem_of_head? hnewest
    exact absurd (hh s hserving newest ((hr.serving s newest).mp hmem)) hne

/-- The laptop reconnects before its old connection is known to be dead: when that one ends, the
    live connection is lost from the table. -/
theorem reconnect_loses_live_connection :
    ¬ ∀ (layout : ScreenLayout) (home : String) (hs : List Happening),
      Mealy.EveryStep step (new layout home) hs Current := by
  intro hall
  have hcurrent := hall twoScreens "srv"
    [.connection 1 (.start none), .connection 1 (.received (.helloBack 1 9 "lap") none),
      .connection 1 (.received (.deviceInfo 0 0 1280 800 0 0 0) none),
      .connection 2 (.start none), .connection 2 (.received (.helloBack 1 9 "lap") none),
      .connection 2 (.received (.deviceInfo 0 0 1280 800 0 0 0) none),
      .connection 1 (.readFailed .closed)]
    [.connection 1 (.start none), .connection 1 (.received (.helloBack 1 9 "lap") none),
      .connection 1 (.received (.deviceInfo 0 0 1280 800 0 0 0) none),
      .connection 2 (.start none), .connection 2 (.received (.helloBack 1 9 "lap") none),
      .connection 2 (.received (.deviceInfo 0 0 1280 800 0 0 0) none)]
    (.connection 1 (.readFailed .closed)) (List.prefix_refl _)
  have htable := hcurrent.1 "lap"
  revert htable
  decide

end Runtime

end SelfKvm
