/-
  A server that is stopped, and the connections it leaves (`kvm-daemon/src/server.rs`,
  `src-tauri/src/lib.rs`, `stop_inner`).

  Stopping a server aborts the task that runs its controller, and with it go the table of clients
  and the receiving end of the channel.  Everything that task has spawned lives on: the accept loop
  with the listener, the task of every connection, and the writers.  A task ignores that its reports
  are no longer taken; a writer ends when its queue has lost its last sender; but a connection is
  closed only when the task that reads from it ends, and that is up to the peer.

  The model has the controller, its channel, the accept loop, the task and the writer of every
  connection, and the clients, and interleaves them freely (`Service.step`).  Queues are unbounded;
  a full one would only hold its sender back.  A frame that is too long is written all the same, and
  ends whoever reads it.

  `step_line` says what a step can make of one connection.
-/
import SelfKvm.Core.Client
import SelfKvm.Daemon.Admission

namespace SelfKvm

/-! ## The processes -/

/-- The writer of a connection, with the queue of messages it is to write. -/
inductive WriterTask where
  | absent
  | running (queue : List Message)
  | finished
  deriving DecidableEq, Repr

/-- A connection with the processes at both of its ends. -/
structure Line where
  /-- The task that serves it, once it is accepted. -/
  task : Option Phase
  /-- What the task has still to report before it goes on. -/
  pending : List ServerEvent
  writer : WriterTask
  /-- Its handshake began after the controller had ended. -/
  late : Bool
  /-- On the way to the client, and to the server. -/
  down : List Message
  up : List Message
  /-- What the client has taken. -/
  heard : List Message
  /-- The client, or the network, has closed the connection. -/
  gone : Bool

structure Service where
  /-- The controller, until it ends. -/
  controller : Option Controller
  /-- What was sent to the controller and not taken. -/
  channel : List ServerEvent
  lines : Sender → Line

/-- An event that is not about a client: captured input, a tick, a copied text. -/
def ServerEvent.isAmbient : ServerEvent → Bool
  | .«local» _ => true
  | .keepAliveTick => true
  | .clipboardOut _ => true
  | _ => false

/-- What happens next. -/
inductive Move where
  /-- The accept loop accepts a connection. -/
  | connect (id : Sender)
  /-- The task of a connection greets its peer, or reads the next message and answers it. -/
  | task (id : Sender) (fails : WriteFailure)
  /-- The read of a task fails. -/
  | lose (id : Sender) (e : NetError)
  /-- A task sends a report to the controller. -/
  | report (id : Sender)
  /-- A writer writes one message, or finds that no more will come. -/
  | write (id : Sender) (fails : Bool)
  /-- The controller takes one event. -/
  | control
  /-- Another task sends an event to the controller. -/
  | input (ev : ServerEvent) (hev : ev.isAmbient = true)
  /-- The controller ends: between two events, or in the middle of one, with so many of its effects
      carried out. -/
  | stop (done : Nat)
  /-- A client reads one message and answers it. -/
  | hear (id : Sender)
  /-- A client or the network closes the connection. -/
  | hangUp (id : Sender)

/-- The client gives up its connection. -/
def ClientAction.disconnects : ClientAction → Bool
  | .disconnect _ => true
  | _ => false

namespace Line

def idle : Line :=
  { task := none, pending := [], writer := .absent, late := false, down := [], up := [],
    heard := [], gone := false }

/-- Writing fails only when nobody is left to write to. -/
def failing (l : Line) (fails : WriteFailure) : WriteFailure := if l.gone then fails else none

/-- The task waits for a message. -/
def reads (l : Line) : Bool :=
  match l.task with
  | some .greeted => true
  | some (.queried _) => true
  | some (.serving _) => true
  | _ => false

/-- What the task meets when it reads this message. -/
def read (l : Line) (fails : WriteFailure) (msg : Message) : Occurrence :=
  if msg.oversized then
    .readFailed (.frameTooLarge msg.encode.length)
  else
    .received msg (l.failing fails)

/-- What the task meets next, if it can go on, and what is left to read. -/
def next (l : Line) (fails : WriteFailure) : Option (Occurrence × List Message) :=
  if l.pending ≠ [] then
    none
  else if l.task = some .accepted then
    some (.start (l.failing fails), l.up)
  else if l.reads then
    match l.up with
    | msg :: rest => some (l.read fails msg, rest)
    | [] => none
  else
    none

/-- The task takes a step; what it says goes out, what it reports is still to be sent. -/
def proceed (layout : ScreenLayout) (id : Sender) (l : Line) (o : Occurrence) :
    Line × List Message :=
  match l.task with
  | none => (l, [])
  | some phase =>
    let (phase, acts) := handleClient layout id phase o
    let said := acts.filterMap ClientAct.said
    ({ l with
        task := some phase
        pending := acts.filterMap ClientAct.told
        down := l.down ++ said }, said)

/-- A report is on its way: a new client gets its writer, and a finished task aborts it. -/
def reported (l : Line) (ev : ServerEvent) (rest : List ServerEvent) : Line :=
  let writer :=
    match ev with
    | .clientConnected _ _ _ => .running []
    | .clientDisconnected _ => .finished
    | _ => l.writer
  { l with pending := rest, writer }

/-- A message for the client is put into the queue, unless nobody takes from it. -/
def enqueue (l : Line) (msg : Message) : Line :=
  match l.writer with
  | .running queue => { l with writer := .running (queue ++ [msg]) }
  | _ => l

/-- The client takes a message: it answers, and on some messages it leaves. -/
def take (c : ClientMachine) (l : Line) (msg : Message) (rest : List Message) : Line :=
  let acts := ((Mealy.run ClientMachine.handle c l.heard).1.handle msg).2
  { l with
    down := rest
    heard := l.heard ++ [msg]
    up := l.up ++ acts.filterMap ClientAction.said
    gone := acts.any ClientAction.disconnects }

/-- The client reads the next message; when that is too long, its reader fails and it leaves. -/
def hear (c : ClientMachine) (l : Line) (msg : Message) (rest : List Message) : Line :=
  if msg.oversized then { l with gone := true } else l.take c msg rest

end Line

namespace Service

def new (layout : ScreenLayout) (home : String) : Service :=
  { controller := some (.new layout home), channel := [], lines := fun _ => .idle }

def setLine (s : Service) (id : Sender) (l : Line) : Service :=
  { s with lines := Function.update s.lines id l }

/-- Send to the controller; once it has ended that fails, and nobody cares. -/
def send (s : Service) (ev : ServerEvent) : Service :=
  if s.controller.isSome then { s with channel := s.channel ++ [ev] } else s

/-- Carry out an effect of the controller's on the queues. -/
def deliver (lines : Sender → Line) : Effect → Sender → Line
  | .deliver tx msg => Function.update lines tx ((lines tx).enqueue msg)
  | _ => lines

/-- Somebody can still put a message into the queue of `id`. -/
def held (s : Service) (id : Sender) : Bool :=
  (match s.controller with
    | some c => c.clients.entries.any fun e => e.2 = id
    | none => false) ||
  s.channel.any fun
    | .clientConnected _ _ tx => tx = id
    | _ => false

variable (layout : ScreenLayout) (who : Sender → String × ScreenSize)

/-- The machine of a client before it has heard anything. -/
def client (id : Sender) : ClientMachine := .new (who id).1 (who id).2

/-- One step of one process; the outputs are what the tasks of the connections send. -/
def step (s : Service) : Move → Service × List (Sender × Message)
  | .connect id =>
    if (s.lines id).task = none then
      (s.setLine id { Line.idle with task := some .accepted }, [])
    else
      (s, [])
  | .task id fails =>
    let l := s.lines id
    match l.next fails with
    | none => (s, [])
    | some (o, rest) =>
      let late := if l.task = some .accepted then s.controller.isNone else l.late
      let (l, said) := { l with up := rest, late }.proceed layout id o
      (s.setLine id l, said.map fun msg => (id, msg))
  | .lose id e =>
    let l := s.lines id
    if l.pending = [] ∧ l.gone = true ∧ l.reads = true then
      let (l, said) := l.proceed layout id (.readFailed e)
      (s.setLine id l, said.map fun msg => (id, msg))
    else
      (s, [])
  | .report id =>
    match (s.lines id).pending with
    | [] => (s, [])
    | ev :: rest => ((s.send ev).setLine id ((s.lines id).reported ev rest), [])
  | .write id fails =>
    let l := s.lines id
    match l.writer with
    | .running (msg :: queue) =>
      if l.gone && fails then
        (s.setLine id { l with writer := .finished }, [])
      else
        (s.setLine id { l with writer := .running queue, down := l.down ++ [msg] }, [])
    | .running [] => (if s.held id then s else s.setLine id { l with writer := .finished }, [])
    | _ => (s, [])
  | .control =>
    match s.controller, s.channel with
    | some c, ev :: channel =>
      let (c, effs) := c.step ev
      ({ controller := some c, channel, lines := effs.foldl deliver s.lines }, [])
    | _, _ => (s, [])
  | .input ev _ => (s.send ev, [])
  | .stop done =>
    let lines :=
      match s.controller, s.channel with
      | some c, ev :: _ => ((c.step ev).2.take done).foldl deliver s.lines
      | _, _ => s.lines
    ({ controller := none, channel := [], lines }, [])
  | .hear id =>
    let l := s.lines id
    match l.down with
    | [] => (s, [])
    | msg :: rest => (if l.gone then s else s.setLine id (l.hear (client who id) msg rest), [])
  | .hangUp id =>
    let l := s.lines id
    (if l.task = none then s else s.setLine id { l with gone := true }, [])

end Service

/-! ## What a step makes of one connection -/

/-- A step changes a connection in one of these ways. -/
inductive LineStep (layout : ScreenLayout) (move : Move) (id : Sender) (c : ClientMachine)
    (l : Line) : Line → Prop
  | same : LineStep layout move id c l l
  | accepted (h : l.task = none) :
      LineStep layout move id c l { Line.idle with task := some .accepted }
  | proceeded {fails : WriteFailure} {o : Occurrence} {rest : List Message} (late : Bool)
      (h : l.next fails = some (o, rest)) :
      LineStep layout move id c l ({ l with up := rest, late }.proceed layout id o).1
  | lost (e : NetError) (hgone : l.gone = true) :
      LineStep layout move id c l (l.proceed layout id (.readFailed e)).1
  | reported {ev : ServerEvent} {rest : List ServerEvent} (h : l.pending = ev :: rest) :
      LineStep layout move id c l (l.reported ev rest)
  /-- The queue of its writer changes; where there is no writer, none comes. -/
  | queued (writer : WriterTask) (h : l.writer = .absent → writer = .absent) :
      LineStep layout move id c l { l with writer }
  | wrote {msg : Message} {queue : List Message} (h : l.writer = .running (msg :: queue)) :
      LineStep layout move id c l { l with writer := .running queue, down := l.down ++ [msg] }
  | heard {msg : Message} {rest : List Message} (hmove : move = .hear id) (hgone : l.gone = false)
      (hfits : msg.oversized = false) (h : l.down = msg :: rest) :
      LineStep layout move id c l (l.take c msg rest)
  /-- Somebody closes it, or the client has read a message that is too long. -/
  | closed : LineStep layout move id c l { l with gone := true }

namespace Service

variable {layout : ScreenLayout} {who : Sender → String × ScreenSize} {s : Service} {move : Move}
  {id : Sender}

theorem setLine_lines (s : Service) (id : Sender) (l : Line) (id' : Sender) :
    (s.setLine id l).lines id' = if id' = id then l else s.lines id' := by
  show Function.update s.lines id l id' = _
  by_cases h : id' = id
  · subst h
    rw [Function.update_self, if_pos rfl]
  · rw [Function.update_of_ne h, if_neg h]

@[simp] theorem setLine_controller (s : Service) (id : Sender) (l : Line) :
    (s.setLine id l).controller = s.controller := rfl

@[simp] theorem send_lines (s : Service) (ev : ServerEvent) : (s.send ev).lines = s.lines := by
  unfold send
  split <;> rfl

@[simp] theorem send_controller (s : Service) (ev : ServerEvent) :
    (s.send ev).controller = s.controller := by
  unfold send
  split <;> rfl

/-- Carrying out effects fills queues, and that is all. -/
theorem deliver_line (effs : List Effect) (lines : Sender → Line) (id : Sender) :
    ∃ writer, effs.foldl deliver lines id = { lines id with writer } ∧
      ((lines id).writer = .absent → writer = .absent) := by
  induction effs generalizing lines with
  | nil => exact ⟨_, rfl, fun h => h⟩
  | cons eff effs ih =>
    obtain ⟨writer, hline, habsent⟩ := ih (deliver lines eff)
    rw [List.foldl_cons, hline]
    have hone : ∃ writer', deliver lines eff id = { lines id with writer := writer' } ∧
        ((lines id).writer = .absent → writer' = .absent) := by
      cases eff with
      | deliver tx msg =>
        by_cases hid : id = tx
        · subst hid
          rw [deliver, Function.update_self, Line.enqueue]
          cases hw : (lines id).writer with
          | running queue => exact ⟨_, rfl, fun h => by cases h⟩
          | _ => exact ⟨(lines id).writer, rfl, fun h => hw.trans h⟩
        · rw [deliver, Function.update_of_ne hid]
          exact ⟨_, rfl, fun h => h⟩
      | _ => exact ⟨_, rfl, fun h => h⟩
    obtain ⟨writer', hone, habsent'⟩ := hone
    rw [hone] at habsent ⊢
    exact ⟨writer, rfl, fun h => habsent (habsent' h)⟩

/-- One connection takes a step, the others stay as they are. -/
theorem lineStep_setLine {l : Line} (h : LineStep layout move id (client who id) (s.lines id) l)
    (id' : Sender) :
    LineStep layout move id' (client who id') (s.lines id') ((s.setLine id l).lines id') := by
  rw [setLine_lines]
  by_cases hid : id' = id
  · subst hid
    rwa [if_pos rfl]
  · rw [if_neg hid]
    exact .same

/-- The controller's steps, and its end, fill queues, and that is all. -/
theorem control_line (layout : ScreenLayout) (who : Sender → String × ScreenSize) (s : Service)
    (hmove : move = .control ∨ ∃ done, move = .stop done) (id : Sender) :
    ∃ writer, (s.step layout who move).1.lines id = { s.lines id with writer } ∧
      ((s.lines id).writer = .absent → writer = .absent) := by
  rcases hmove with rfl | ⟨done, rfl⟩
  all_goals
    simp only [step]
    cases s.controller with
    | none => exact ⟨(s.lines id).writer, rfl, fun h => h⟩
    | some c =>
      cases s.channel with
      | nil => exact ⟨(s.lines id).writer, rfl, fun h => h⟩
      | cons ev channel => exact deliver_line _ s.lines id

/-- **There is nothing else a step makes of a connection.** -/
theorem step_line (s : Service) (move : Move) (id : Sender) :
    LineStep layout move id (client who id) (s.lines id)
      ((s.step layout who move).1.lines id) := by
  cases move with
  | connect i =>
    simp only [step]
    by_cases h : (s.lines i).task = none
    · rw [if_pos h]
      exact lineStep_setLine (.accepted h) id
    · rw [if_neg h]
      exact .same
  | task i fails =>
    simp only [step]
    cases h : (s.lines i).next fails with
    | none => exact .same
    | some next => exact lineStep_setLine (.proceeded _ h) id
  | lose i e =>
    simp only [step]
    by_cases h : (s.lines i).pending = [] ∧ (s.lines i).gone = true ∧ (s.lines i).reads = true
    · rw [if_pos h]
      exact lineStep_setLine (.lost e h.2.1) id
    · rw [if_neg h]
      exact .same
  | report i =>
    simp only [step]
    cases h : (s.lines i).pending with
    | nil => exact .same
    | cons ev rest =>
      have hone : LineStep layout (.report i) i (client who i) ((s.send ev).lines i)
          ((s.lines i).reported ev rest) := by
        rw [send_lines]
        exact .reported h
      have hstep := lineStep_setLine hone id
      rwa [send_lines] at hstep
  | write i fails =>
    simp only [step]
    cases h : (s.lines i).writer with
    | absent => exact .same
    | finished => exact .same
    | running queue =>
      cases queue with
      | nil =>
        by_cases hheld : s.held i
        · simp only [hheld, if_true]
          exact .same
        · simp only [hheld]
          exact lineStep_setLine (.queued _ fun habsent => by rw [h] at habsent; cases habsent) id
      | cons msg queue =>
        by_cases hfails : ((s.lines i).gone && fails) = true
        · simp only [hfails, if_true]
          exact lineStep_setLine (.queued _ fun habsent => by rw [h] at habsent; cases habsent) id
        · simp only [hfails]
          exact lineStep_setLine (.wrote h) id
  | control =>
    obtain ⟨writer, hline, habsent⟩ := control_line layout who s (.inl rfl) id
    rw [hline]
    exact .queued writer habsent
  | input ev hev =>
    simp only [step, send_lines]
    exact .same
  | stop done =>
    obtain ⟨writer, hline, habsent⟩ := control_line layout who s (.inr ⟨done, rfl⟩) id
    rw [hline]
    exact .queued writer habsent
  | hear i =>
    simp only [step]
    cases h : (s.lines i).down with
    | nil => exact .same
    | cons msg rest =>
      by_cases hgone : (s.lines i).gone = true
      · simp only [hgone, if_true]
        exact .same
      · simp only [hgone, Line.hear]
        by_cases hlong : msg.oversized = true
        · rw [if_pos hlong]
          exact lineStep_setLine .closed id
        · rw [if_neg hlong]
          exact lineStep_setLine (.heard rfl (Bool.not_eq_true _ ▸ hgone)
            (Bool.not_eq_true _ ▸ hlong) h) id
  | hangUp i =>
    simp only [step]
    by_cases h : (s.lines i).task = none
    · rw [if_pos h]
      exact .same
    · rw [if_neg h]
      exact lineStep_setLine .closed id

end Service

end SelfKvm
