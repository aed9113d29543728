/-
  Ghost servers (`kvm-daemon/src/server.rs`, `src-tauri/src/lib.rs`, `stop_inner`).

  A ghost is what answers, or keeps a connection open, after the controller has ended; a client that
  talks to one believes it is connected and is in nobody's table.  The code has no measure against
  ghosts: whether there are any is up to the clients.

  Until a connection is served the two ends of it are in step (`Linked`): the client answers each
  message of the handshake with the one the task waits for.  So a connection that nobody has closed
  is open unless its client was refused, and a client that believes it is connected is being served.

  The table knows one queue for each name, that of the client which was registered last.  A client
  is in the table as long as that queue is its own; it is forgotten as soon as another registers in
  its name, or one of that name is reported to have disconnected.

  `no_ghost_exactly` says on which runs there is no ghost: nobody who is greeted after the end gets
  to report a geometry, everybody has left or was refused by the time the server side comes to rest,
  and the table neither lags behind nor forgets a client that believes it is connected.
-/
import SelfKvm.Daemon.Shutdown

namespace SelfKvm

/-! ## What a ghost is -/

/-- The server takes a client of this name: it is in the layout, and a frame can hold it. -/
structure Welcome (layout : ScreenLayout) (name : String) : Prop where
  known : layout.contains name = true
  fits : (Message.helloBack protocolMajor protocolMinor name).oversized = false

namespace Line

/-- The task has finished, or waits for nothing but its peer. -/
def Rests (l : Line) : Prop :=
  l.pending = [] ∧ match l.task with
    | none => True
    | some (.ended _) => True
    | some .accepted => False
    | some _ => l.up = [] ∧ l.gone = false

/-- The connection is there for both ends: its task, which has the reading half, has not ended, and
    nobody has closed it. -/
def Open (l : Line) : Prop :=
  (∃ phase, l.task = some phase ∧ ∀ result, phase ≠ .ended result) ∧ l.gone = false

/-- The task reads the geometry it has asked for, and its answer goes out. -/
def Completes (l : Line) (fails : WriteFailure) : Prop :=
  (∃ name, l.task = some (.queried name)) ∧ (l.failing fails).Spares 1 ∧
    ∃ x y w h warp mx my rest,
      l.next fails = some (.received (.deviceInfo x y w h warp mx my) (l.failing fails), rest)

end Line

namespace Service

variable (layout : ScreenLayout) (who : Sender → String × ScreenSize)

/-- Every process of the server's is finished or waits for its peer or the network. -/
def Quiet (s : Service) : Prop :=
  s.controller = none ∧ ∀ id, (s.lines id).Rests ∧ ∀ queue, (s.lines id).writer ≠ .running queue

/-- The client has reported that it is connected. -/
def Connected (s : Service) (id : Sender) : Prop :=
  .connected ∈ (Mealy.run ClientMachine.handle (client who id) (s.lines id).heard).2

/-- The controller is alive and has the client in its table, with the queue of its connection. -/
def Registered (s : Service) (id : Sender) : Prop :=
  ∃ c, s.controller = some c ∧ c.clients.lookup (who id).1 = some id

/-- A step without ghosts. -/
structure NoGhost (s : Service) (move : Move) : Prop where
  /-- A handshake that began after the end is not acknowledged. -/
  refused : ∀ id, (id, .infoAck) ∈ (s.step layout who move).2 → (s.lines id).late = false
  /-- After the end, once the server side has come to rest, no connection is open. -/
  closed : (s.step layout who move).1.Quiet → ∀ id, ¬ ((s.step layout who move).1.lines id).Open
  /-- Whoever believes it is connected, over an open connection, is in the controller's table. -/
  served : ∀ id, Connected who (s.step layout who move).1 id →
    ((s.step layout who move).1.lines id).Open → Registered who (s.step layout who move).1 id

/-- What it takes. -/
structure Orderly (s : Service) (move : Move) : Prop where
  /-- Nobody who was greeted after the end gets to report its geometry. -/
  early : ∀ id fails, move = .task id fails → (s.lines id).late = true →
    ¬ (s.lines id).Completes fails
  /-- When the server side has come to rest after the end, everybody has left, or has said hello in
      a name that the server does not take. -/
  left : (s.step layout who move).1.Quiet → ∀ id, ((s.step layout who move).1.lines id).task ≠ none →
    ((s.step layout who move).1.lines id).gone = true ∨
      ¬ Welcome layout (who id).1 ∧ ((s.step layout who move).1.lines id).heard ≠ []
  /-- Nobody takes its acknowledgement before it is in the table. -/
  registered : ∀ id rest, move = .hear id → (s.lines id).down = .infoAck :: rest →
    (s.lines id).gone = false → Registered who s id
  /-- When the controller ends, whoever believes it is connected has left. -/
  stops : ∀ done id, move = .stop done → Connected who s id → (s.lines id).gone = true
  /-- When it takes a report that somebody has disconnected, so has every client of that name. -/
  disconnects : ∀ name channel, move = .control → s.controller.isSome →
    s.channel = .clientDisconnected name :: channel →
    ∀ id, (who id).1 = name → Connected who s id → (s.lines id).gone = true
  /-- When it registers a client, so has every other one of that name. -/
  replaces : ∀ name size tx channel, move = .control → s.controller.isSome →
    s.channel = .clientConnected name size tx :: channel →
    ∀ id, (who id).1 = name → id ≠ tx → Connected who s id → (s.lines id).gone = true

end Service

/-! ## What a client has heard -/

namespace ClientMachine

theorem connected_notMem_injectIfActive {c : ClientMachine} {cmd : InputCommand} :
    .connected ∉ c.injectIfActive cmd := by
  intro h
  unfold injectIfActive at h
  split at h <;> simp at h

/-- Only the acknowledgement makes a client believe it is connected. -/
theorem connected_mem_handle {c : ClientMachine} {msg : Message} :
    .connected ∈ (c.handle msg).2 ↔ msg = .infoAck := by
  cases msg <;> simp [handle, connected_notMem_injectIfActive]

theorem connected_mem_run {c : ClientMachine} {msgs : List Message} :
    .connected ∈ (Mealy.run handle c msgs).2 ↔ .infoAck ∈ msgs := by
  induction msgs generalizing c with
  | nil => simp
  | cons msg msgs ih =>
    rw [Mealy.run_cons, List.mem_append, List.mem_cons, connected_mem_handle, ih]
    constructor
    · rintro (rfl | h)
      · exact .inl rfl
      · exact .inr h
    · rintro (h | h)
      · exact .inl h.symm
      · exact .inr h

theorem handle_name (c : ClientMachine) (msg : Message) : (c.handle msg).1.name = c.name := by
  cases msg <;> rfl

theorem run_name (c : ClientMachine) (msgs : List Message) :
    (Mealy.run handle c msgs).1.name = c.name := by
  induction msgs generalizing c with
  | nil => rfl
  | cons msg msgs ih =>
    rw [Mealy.run_cons, ih]
    exact handle_name c msg

/-- A frame can hold whatever a client answers, if it can hold its name. -/
theorem answer_fits {c : ClientMachine}
    (hname : (Message.helloBack protocolMajor protocolMinor c.name).oversized = false)
    {msg answer : Message} (h : answer ∈ (c.handle msg).2.filterMap ClientAction.said) :
    answer.oversized = false := by
  cases msg with
  | hello major minor =>
    rw [List.mem_singleton.mp h]
    exact hname
  | queryInfo | keepAlive =>
    rw [List.mem_singleton.mp h, Message.oversized_eq]
    rfl
  | _ =>
    -- nothing is answered, at most something is injected
    simp only [handle, injectIfActive] at h
    first | cases h | (split at h <;> cases h)

end ClientMachine

/-! ## The two ends of a connection -/

/-- The states of a handshake: what the task is about, what the client has taken, and what is on the
    way to the client and to the server. -/
inductive Shaking (layout : ScreenLayout) (name : String) :
    Option Phase → List Message → List Message → List Message → Prop
  | idle : Shaking layout name none [] [] []
  | accepted : Shaking layout name (some .accepted) [] [] []
  | hello : Shaking layout name (some .greeted) [] [.hello protocolMajor protocolMinor] []
  | helloBack : Shaking layout name (some .greeted) [.hello protocolMajor protocolMinor] []
      [.helloBack protocolMajor protocolMinor name]
  /-- The name is not in the layout, or could not be read. -/
  | refused (result : Except ClientError Unit) (down : List Message)
      (hname : ¬ Welcome layout name) (hdown : down = [.errUnknown] ∨ down = []) :
      Shaking layout name (some (.ended result)) [.hello protocolMajor protocolMinor] down []
  | queryInfo (hname : Welcome layout name) :
      Shaking layout name (some (.queried name)) [.hello protocolMajor protocolMinor] [.queryInfo] []
  | deviceInfo (x y w h warp mx my : Int16) (hname : Welcome layout name) :
      Shaking layout name (some (.queried name)) [.hello protocolMajor protocolMinor, .queryInfo] []
        [.deviceInfo x y w h warp mx my]

/-- How a connection can be while nobody has closed it: in the handshake, or served. -/
inductive Linked (layout : ScreenLayout) (c : ClientMachine) (l : Line) : Prop
  | gone (h : l.gone = true)
  | shaking (h : Shaking layout c.name l.task l.heard l.down l.up) (hpending : l.pending = [])
      (hwriter : l.writer = .absent)
  | served (name : String) (h : l.task = some (.serving name)) (hname : Welcome layout c.name)
      (hup : ∀ msg ∈ l.up, msg.oversized = false)

namespace Line

variable {layout : ScreenLayout} {move : Move} {id : Sender} {c : ClientMachine} {l l' : Line}

/-- A task that goes on neither closes the connection nor speaks for the client. -/
theorem proceed_gone (o : Occurrence) : (l.proceed layout id o).1.gone = l.gone := by
  unfold proceed
  split <;> rfl

theorem proceed_heard (o : Occurrence) : (l.proceed layout id o).1.heard = l.heard := by
  unfold proceed
  split <;> rfl

theorem read_fits {msg : Message} (h : msg.oversized = false) (fails : WriteFailure) :
    l.read fails msg = .received msg (l.failing fails) :=
  if_neg (by rw [h]; exact Bool.false_ne_true)

theorem next_eq_some {fails : WriteFailure} {o : Occurrence} {rest : List Message}
    (h : l.next fails = some (o, rest)) :
    l.task = some .accepted ∧ o = .start (l.failing fails) ∧ rest = l.up ∨
      l.reads = true ∧ ∃ msg, l.up = msg :: rest ∧ o = l.read fails msg := by
  unfold next at h
  split at h
  · cases h
  · split at h
    · rename_i htask
      injection h with h
      injection h with ho hrest
      exact .inl ⟨htask, ho.symm, hrest.symm⟩
    · split at h
      · rename_i hreads
        cases hup : l.up with
        | nil =>
          rw [hup] at h
          cases h
        | cons msg up =>
          rw [hup] at h
          injection h with h
          injection h with ho hrest
          exact .inr ⟨hreads, msg, by rw [hrest], ho.symm⟩
      · cases h

/-- A task that goes on: it answers what the handshake expects. -/
theorem linked_proceed {fails : WriteFailure} {o : Occurrence} {rest : List Message}
    (late : Bool) (hl : Linked layout c l) (h : l.next fails = some (o, rest)) :
    Linked layout c ({ l with up := rest, late }.proceed layout id o).1 := by
  by_cases hgone : l.gone = true
  · exact .gone ((proceed_gone o).trans hgone)
  have hfailing : l.failing fails = none := if_neg hgone
  have hnext := next_eq_some h
  rcases hl with hl | ⟨hl, hpending, hwriter⟩ | ⟨name, htask, hname, hup⟩
  · exact absurd hl hgone
  · obtain ⟨task, pending, writer, late', down, up, heard, gone⟩ := l
    subst hpending hwriter
    cases hl with
    | idle =>
      rcases hnext with ⟨htask, -, -⟩ | ⟨hreads, -⟩
      · cases htask
      · cases hreads
    | accepted =>
      rcases hnext with ⟨-, rfl, rfl⟩ | ⟨hreads, -⟩
      · rw [hfailing]
        exact .shaking .hello rfl rfl
      · cases hreads
    | hello =>
      rcases hnext with ⟨htask, -, -⟩ | ⟨-, msg, hup, -⟩
      · cases htask
      · cases hup
    | helloBack =>
      rcases hnext with ⟨htask, -, -⟩ | ⟨-, msg, hup, rfl⟩
      · cases htask
      · injection hup with hmsg hrest
        subst hmsg hrest
        by_cases hfits : (Message.helloBack protocolMajor protocolMinor c.name).oversized = true
        · -- the reader fails before it knows the name
          rw [read, if_pos hfits]
          refine .shaking (.refused _ _ (fun hname => ?_) (.inr rfl)) rfl rfl
          rw [hname.fits] at hfits
          cases hfits
        · rw [Bool.not_eq_true] at hfits
          rw [read_fits hfits, hfailing]
          by_cases hname : layout.contains c.name = true
          · simp only [proceed, handleClient, hname]
            exact .shaking (.queryInfo ⟨hname, hfits⟩) rfl rfl
          · simp only [proceed, handleClient, hname]
            exact .shaking (.refused _ _ (fun h => hname h.known) (.inl rfl)) rfl rfl
    | refused =>
      rcases hnext with ⟨htask, -, -⟩ | ⟨hreads, -⟩
      · cases htask
      · cases hreads
    | queryInfo =>
      rcases hnext with ⟨htask, -, -⟩ | ⟨-, msg, hup, -⟩
      · cases htask
      · cases hup
    | deviceInfo x y w h warp mx my hname =>
      rcases hnext with ⟨htask, -, -⟩ | ⟨-, msg, hup, rfl⟩
      · cases htask
      · injection hup with hmsg hrest
        subst hmsg hrest
        rw [read_fits (by rw [Message.oversized_eq]; rfl), hfailing]
        exact .served c.name rfl hname fun _ h => by cases h
  · rcases hnext with ⟨htask', -, -⟩ | ⟨-, msg, hmsg, rfl⟩
    · rw [htask] at htask'
      cases htask'
    · -- whatever a served client says is passed on
      rw [hmsg] at hup
      rw [read_fits (hup msg List.mem_cons_self)]
      simp only [proceed, htask, handleClient]
      exact .served name rfl hname fun m hm => hup m (List.mem_cons_of_mem msg hm)

/-- A client that takes a message: it answers what the handshake asks. -/
theorem linked_take {msg : Message} {rest : List Message} (hl : Linked layout c l)
    (hgone : l.gone = false) (h : l.down = msg :: rest) : Linked layout c (l.take c msg rest) := by
  rcases hl with hl | ⟨hl, hpending, hwriter⟩ | ⟨name, htask, hname, hup⟩
  · rw [hgone] at hl
    cases hl
  · obtain ⟨task, pending, writer, late', down, up, heard, gone⟩ := l
    subst hpending hwriter hgone
    cases hl with
    | idle => cases h
    | accepted => cases h
    | hello =>
      injection h with hmsg hrest
      subst hmsg hrest
      exact .shaking .helloBack rfl rfl
    | helloBack => cases h
    | refused _ _ hname hdown =>
      rcases hdown with rfl | rfl
      · injection h with hmsg hrest
        subst hmsg hrest
        exact .gone rfl
      · cases h
    | queryInfo hname =>
      injection h with hmsg hrest
      subst hmsg hrest
      exact .shaking (.deviceInfo _ _ _ _ _ _ _ hname) rfl rfl
    | deviceInfo => cases h
  · refine .served name htask hname fun m hm => ?_
    rcases List.mem_append.mp hm with hm | hm
    · exact hup m hm
    · refine ClientMachine.answer_fits ?_ hm
      rw [ClientMachine.run_name]
      exact hname.fits

/-- **The two ends of a connection stay in step.** -/
theorem linked_step (hl : Linked layout c l) (h : LineStep layout move id c l l') :
    Linked layout c l' := by
  cases h with
  | same => exact hl
  | accepted => exact .shaking .accepted rfl rfl
  | proceeded late h => exact linked_proceed late hl h
  | lost e hgone => exact .gone ((proceed_gone _).trans hgone)
  | reported h =>
    rcases hl with hl | ⟨-, hpending, -⟩ | ⟨name, htask, hname, hup⟩
    · exact .gone hl
    · rw [hpending] at h
      cases h
    · exact .served name htask hname hup
  | queued writer h =>
    rcases hl with hl | ⟨hl, hpending, hwriter⟩ | ⟨name, htask, hname, hup⟩
    · exact .gone hl
    · exact .shaking hl hpending (h hwriter)
    · exact .served name htask hname hup
  | wrote h =>
    rcases hl with hl | ⟨-, -, hwriter⟩ | ⟨name, htask, hname, hup⟩
    · exact .gone hl
    · rw [hwriter] at h
      cases h
    · exact .served name htask hname hup
  | heard hmove hgone hfits h => exact linked_take hl hgone h
  | closed => exact .gone rfl

/-- Short of a hang-up, a client that was accepted is in an open connection or was refused. -/
theorem open_or_refused (hl : Linked layout c l) (hgone : l.gone = false) (htask : l.task ≠ none) :
    l.Open ∨ ¬ Welcome layout c.name ∧ l.heard ≠ [] := by
  have hopen : ∀ {phase}, l.task = some phase → (∀ result, phase ≠ .ended result) → l.Open :=
    fun h hended => ⟨⟨_, h, hended⟩, hgone⟩
  rcases hl with hl | ⟨hl, -, -⟩ | ⟨name, hserving, -, -⟩
  · rw [hgone] at hl
    cases hl
  · generalize htask' : l.task = task, l.heard = heard, l.down = down, l.up = up at hl
    cases hl with
    | idle => exact absurd htask' htask
    | refused result _ hname => exact .inr ⟨hname, List.cons_ne_nil _ _⟩
    | _ => exact .inl (hopen htask' fun result h => by cases h)
  · exact .inl (hopen hserving fun result h => by cases h)

/-- At rest, a client that was refused is not in an open connection. -/
theorem not_open_of_refused (hl : Linked layout c l) (hrests : l.Rests)
    (hname : ¬ Welcome layout c.name) (hheard : l.heard ≠ []) : ¬ l.Open := by
  rintro ⟨⟨phase, htask, hended⟩, hgone⟩
  rcases hl with hl | ⟨hl, -, -⟩ | ⟨name, -, hname', -⟩
  · rw [hgone] at hl
    cases hl
  · obtain ⟨task, pending, writer, late, down, up, heard, gone⟩ := l
    cases hl with
    | idle => cases htask
    | accepted => exact hheard rfl
    | hello => exact hheard rfl
    | helloBack => cases hrests.2.1
    | refused result => exact hended result (Option.some.inj htask).symm
    | queryInfo hname' | deviceInfo _ _ _ _ _ _ _ hname' => exact hname hname'
  · exact hname hname'

/-- Only a client that is being served has taken its acknowledgement. -/
theorem open_of_acknowledged (hl : Linked layout c l) (hgone : l.gone = false)
    (hack : .infoAck ∈ l.heard) : l.Open := by
  rcases hl with hl | ⟨hl, -, -⟩ | ⟨name, hserving, -, -⟩
  · rw [hgone] at hl
    cases hl
  · generalize l.task = task, l.heard = heard, l.down = down, l.up = up at hl hack
    cases hl <;> simp at hack
  · exact ⟨⟨_, hserving, fun result h => by cases h⟩, hgone⟩

/-- A client comes by its acknowledgement when it takes it, and at no other time. -/
theorem acknowledged_step (h : LineStep layout move id c l l') (hgone : l'.gone = false)
    (hack : .infoAck ∈ l'.heard) :
    l.gone = false ∧
      (.infoAck ∈ l.heard ∨ move = .hear id ∧ ∃ rest, l.down = .infoAck :: rest) := by
  cases h with
  | same | reported | queued | wrote => exact ⟨hgone, .inl hack⟩
  | accepted => cases hack
  | proceeded late h =>
    rw [proceed_gone] at hgone
    rw [proceed_heard] at hack
    exact ⟨hgone, .inl hack⟩
  | lost e h =>
    rw [proceed_gone, h] at hgone
    cases hgone
  | heard hmove hgone' hfits h =>
    refine ⟨hgone', ?_⟩
    rcases List.mem_append.mp hack with hack | hack
    · exact .inl hack
    · rw [← List.mem_singleton.mp hack] at h
      exact .inr ⟨hmove, _, h⟩
  | closed => cases hgone

end Line

/-! ## The table -/

namespace Controller

/-- The queue of a name stays in the table until a client of that name registers or has
    disconnected. -/
theorem lookup_step {c : Controller} {ev : ServerEvent} {name : String} {tx : Sender}
    (h : c.clients.lookup name = some tx) (hgone : ev ≠ .clientDisconnected name)
    (hnew : ∀ size tx', ev = .clientConnected name size tx' → tx' = tx) :
    (c.step ev).1.clients.lookup name = some tx := by
  cases ev with
  | clientConnected screen size tx' =>
    show (c.clients.insert screen tx').lookup name = some tx
    by_cases hscreen : name = screen
    · subst hscreen
      rw [AList.lookup_insert, hnew size tx' rfl]
    · rw [AList.lookup_insert_ne hscreen, h]
  | clientDisconnected screen =>
    show (c.clients.erase screen).lookup name = some tx
    rw [AList.lookup_erase_ne, h]
    rintro rfl
    exact hgone rfl
  | fromClient screen msg => rwa [Runtime.step_fromClient]
  | _ => exact h

theorem lookup_step_disconnected (c : Controller) (name : String) :
    (c.step (.clientDisconnected name)).1.clients.lookup name = none :=
  AList.lookup_erase name c.clients

theorem lookup_step_connected (c : Controller) (name : String) (size : Int32 × Int32)
    (tx : Sender) : (c.step (.clientConnected name size tx)).1.clients.lookup name = some tx :=
  AList.lookup_insert c.clients

end Controller

/-! ## Acknowledgements -/

/-- A task says `InfoAck` when it reads the geometry it has asked for, and at no other time. -/
theorem acknowledges_iff {layout : ScreenLayout} {id : Sender} {p : Phase} {o : Occurrence} :
    .infoAck ∈ (handleClient layout id p o).2.filterMap ClientAct.said ↔
      (∃ name, p = .queried name) ∧ ∃ x y w h warp mx my, ∃ fails : WriteFailure,
        o = .received (.deviceInfo x y w h warp mx my) fails ∧ fails.Spares 1 := by
  constructor
  · intro hmem
    -- the other sends of a handshake send something else
    have hother : ∀ {msg : Message} {fails next reports}, msg ≠ .infoAck →
        .infoAck ∉ (sendAll [msg] fails next reports).2.filterMap ClientAct.said :=
      fun hne hm => hne (List.mem_singleton.mp (Runtime.mem_sendAll hm)).symm
    have hstep := Runtime.handleClient_handled layout id p o
    generalize handleClient layout id p o = r at hstep hmem
    cases hstep with
    | greets => exact absurd hmem (hother (by simp))
    | refuses msg fails refusal result hrefusal =>
      rcases hrefusal with rfl | rfl
      · exact absurd hmem (hother (by simp))
      · exact absurd hmem (hother (by simp))
    | asks => exact absurd hmem (hother (by simp))
    | admits name x y w h warp mx my fails =>
      refine ⟨⟨name, rfl⟩, x, y, w, h, warp, mx, my, fails, rfl, ?_⟩
      rw [Runtime.sendAll_said] at hmem
      rcases fails with _ | ⟨n, e⟩
      · trivial
      · rcases n with _ | n
        · cases hmem
        · exact Nat.le_add_left 1 n
    | still | givesUp => cases hmem
    | passesOn | leaves => simp [ClientAct.said] at hmem
  · rintro ⟨⟨name, rfl⟩, x, y, w, h, warp, mx, my, fails, rfl, hspares⟩
    simp only [handleClient, Runtime.sendAll_said]
    rcases fails with _ | ⟨n, e⟩
    · exact List.mem_cons_self
    · obtain ⟨k, rfl⟩ := Nat.exists_eq_add_of_le' hspares
      exact List.mem_cons_self

namespace Service

variable {layout : ScreenLayout} {who : Sender → String × ScreenSize} {s : Service} {move : Move}
  {id : Sender}

theorem acknowledges_proceed {l : Line} {o : Occurrence} :
    .infoAck ∈ (l.proceed layout id o).2 ↔
      (∃ name, l.task = some (.queried name)) ∧ ∃ x y w h warp mx my, ∃ fails : WriteFailure,
        o = .received (.deviceInfo x y w h warp mx my) fails ∧ fails.Spares 1 := by
  unfold Line.proceed
  cases htask : l.task with
  | none => simp
  | some phase =>
    simp only [Option.some.injEq]
    exact acknowledges_iff

/-- Only the tasks of connections say something. -/
theorem step_silent (htask : ∀ id fails, move ≠ .task id fails) (hlose : ∀ id e, move ≠ .lose id e) :
    (s.step layout who move).2 = [] := by
  cases move with
  | task i fails => exact absurd rfl (htask i fails)
  | lose i e => exact absurd rfl (hlose i e)
  | write i fails =>
    simp only [step]
    split
    · split <;> rfl
    · rfl
    · rfl
  | input | stop | hangUp => rfl
  | connect | report | control | hear =>
    simp only [step]
    split <;> rfl

/-- **A connection is acknowledged when its task reads the geometry, and at no other time.** -/
theorem acknowledged_iff :
    (id, .infoAck) ∈ (s.step layout who move).2 ↔
      ∃ fails, move = .task id fails ∧ (s.lines id).Completes fails := by
  constructor
  · intro hmem
    cases move with
    | task i fails =>
      cases hnext : (s.lines i).next fails with
      | none =>
        simp only [step, hnext] at hmem
        cases hmem
      | some next =>
        obtain ⟨o, rest⟩ := next
        simp only [step, hnext] at hmem
        obtain ⟨msg, hmsg, heq⟩ := List.mem_map.mp hmem
        injection heq with hid hmsg'
        subst hid hmsg'
        obtain ⟨htask, x, y, w, h, warp, mx, my, f, ho, hspares⟩ := acknowledges_proceed.mp hmsg
        -- its write fails as the step says
        have hf : f = (s.lines i).failing fails := by
          rcases Line.next_eq_some hnext with ⟨-, ho', -⟩ | ⟨-, _, -, ho'⟩
          · rw [ho] at ho'
            cases ho'
          · rw [ho, Line.read] at ho'
            split at ho' <;> injection ho'
        subst ho hf
        exact ⟨fails, rfl, htask, hspares, x, y, w, h, warp, mx, my, rest, hnext⟩
    | lose i e =>
      simp only [step] at hmem
      split at hmem
      · obtain ⟨msg, hmsg, heq⟩ := List.mem_map.mp hmem
        injection heq with hid hmsg'
        subst hmsg'
        obtain ⟨-, _, _, _, _, _, _, _, _, ho, -⟩ := acknowledges_proceed.mp hmsg
        cases ho
      · cases hmem
    | _ =>
      rw [step_silent (fun _ _ h => by cases h) (fun _ _ h => by cases h)] at hmem
      cases hmem
  · rintro ⟨fails, rfl, htask, hspares, x, y, w, h, warp, mx, my, rest, hnext⟩
    simp only [step, hnext]
    refine List.mem_map.mpr ⟨.infoAck, acknowledges_proceed.mpr ?_, rfl⟩
    exact ⟨htask, x, y, w, h, warp, mx, my, _, rfl, hspares⟩

/-- Who is in the table stays there until the controller ends, registers another client of its name
    or takes a report that one has disconnected. -/
theorem registered_step (layout : ScreenLayout) (move : Move) (h : Registered who s id) :
    Registered who (s.step layout who move).1 id ∨ (∃ done, move = .stop done) ∨
      move = .control ∧ ∃ ev channel, s.channel = ev :: channel ∧
        (ev = .clientDisconnected (who id).1 ∨
          ∃ size tx, ev = .clientConnected (who id).1 size tx ∧ id ≠ tx) := by
  have hsame : ∀ {s' : Service}, s'.controller = s.controller → Registered who s' id := by
    intro s' hcontroller
    unfold Registered
    rw [hcontroller]
    exact h
  cases move with
  | stop done => exact .inr (.inl ⟨done, rfl⟩)
  | control =>
    obtain ⟨c, hc, hlookup⟩ := h
    cases hchannel : s.channel with
    | nil =>
      refine .inl ⟨c, ?_, hlookup⟩
      simp only [step, hc, hchannel]
    | cons ev channel =>
      by_cases hev : ev = .clientDisconnected (who id).1 ∨
          ∃ size tx, ev = .clientConnected (who id).1 size tx ∧ id ≠ tx
      · exact .inr (.inr ⟨rfl, ev, channel, rfl, hev⟩)
      · rw [not_or] at hev
        refine .inl ⟨(c.step ev).1, ?_, Controller.lookup_step hlookup hev.1 ?_⟩
        · simp only [step, hc, hchannel]
        · intro size tx heq
          by_contra hne
          exact hev.2 ⟨size, tx, heq, Ne.symm hne⟩
  | report i =>
    refine .inl (hsame ?_)
    simp only [step]
    split
    · rfl
    · rw [setLine_controller, send_controller]
  | input ev hev => exact .inl (hsame (send_controller s ev))
  | write i fails =>
    refine .inl (hsame ?_)
    simp only [step]
    split
    · split <;> rfl
    · split <;> rfl
    · rfl
  | connect i | lose i | hangUp i | task i | hear i =>
    refine .inl (hsame ?_)
    simp only [step]
    split <;> first | rfl | (split <;> rfl)

/-! ## No ghosts -/

theorem connected_iff : Connected who s id ↔ .infoAck ∈ (s.lines id).heard :=
  ClientMachine.connected_mem_run

/-- Every connection is as `Linked` says. -/
def AllLinked (layout : ScreenLayout) (who : Sender → String × ScreenSize) (s : Service) : Prop :=
  ∀ id, Linked layout (client who id) (s.lines id)

theorem AllLinked.step (h : AllLinked layout who s) (move : Move) :
    AllLinked layout who (s.step layout who move).1 :=
  fun id => Line.linked_step (h id) (step_line s move id)

/-- Whoever believes it is connected, and has not left, is in the controller's table. -/
def Served (who : Sender → String × ScreenSize) (s : Service) : Prop :=
  ∀ id, Connected who s id → (s.lines id).gone = false → Registered who s id

/-- A client that has not left is in an open connection. -/
theorem NoGhost.served_after (hlinked : AllLinked layout who s) (h : NoGhost layout who s move) :
    Served who (s.step layout who move).1 := by
  intro id hconn hgone
  have hack := connected_iff.mp hconn
  exact h.served id hconn (Line.open_of_acknowledged (hlinked.step move id) hgone hack)

/-- A step of the controller closes no connection, so it has to keep who is connected in the table. -/
theorem NoGhost.keeps (hlinked : AllLinked layout who s) (h : NoGhost layout who s move)
    (hmove : move = .control ∨ ∃ done, move = .stop done) (hconn : Connected who s id)
    (hgone : (s.lines id).gone = false) : Registered who (s.step layout who move).1 id := by
  obtain ⟨writer, hline, -⟩ := control_line layout who s hmove id
  refine h.served_after hlinked id (connected_iff.mpr ?_) ?_
  · rw [hline]
    exact connected_iff.mp hconn
  · rw [hline]
    exact hgone

/-- A step that keeps the ghosts out is orderly. -/
theorem NoGhost.orderly (hlinked : AllLinked layout who s) (h : NoGhost layout who s move) :
    Orderly layout who s move where
  early := by
    rintro id fails rfl hlate hcompletes
    have hack := h.refused id (acknowledged_iff.mpr ⟨fails, rfl, hcompletes⟩)
    rw [hlate] at hack
    cases hack
  left := by
    intro hquiet id htask
    by_cases hgone : ((s.step layout who move).1.lines id).gone = true
    · exact .inl hgone
    · rw [Bool.not_eq_true] at hgone
      rcases Line.open_or_refused (hlinked.step move id) hgone htask with hopen | hrefused
      · exact absurd hopen (h.closed hquiet id)
      · exact .inr hrefused
  registered := by
    rintro id rest rfl hdown hgone
    have hstep : s.step layout who (.hear id) =
        (s.setLine id ((s.lines id).take (client who id) .infoAck rest), []) := by
      simp only [step, hdown, hgone, Bool.false_eq_true, if_false]
      rfl
    have hline : ((s.step layout who (.hear id)).1.lines id) =
        (s.lines id).take (client who id) .infoAck rest := by
      rw [hstep, setLine_lines, if_pos rfl]
    have hack : .infoAck ∈ ((s.step layout who (.hear id)).1.lines id).heard := by
      rw [hline]
      exact List.mem_append_right _ (List.mem_singleton_self _)
    have hgone' : ((s.step layout who (.hear id)).1.lines id).gone = false := by
      rw [hline]
      rfl
    obtain ⟨c, hc, hmem⟩ := h.served_after hlinked id (connected_iff.mpr hack) hgone'
    rw [hstep] at hc
    exact ⟨c, hc, hmem⟩
  stops := by
    rintro done id rfl hconn
    by_cases hgone : (s.lines id).gone = true
    · exact hgone
    · rw [Bool.not_eq_true] at hgone
      obtain ⟨c, hc, -⟩ := h.keeps hlinked (.inr ⟨done, rfl⟩) hconn hgone
      cases hc
  disconnects := by
    rintro name channel rfl hc hchannel id rfl hconn
    by_cases hgone : (s.lines id).gone = true
    · exact hgone
    · rw [Bool.not_eq_true] at hgone
      obtain ⟨c, hc⟩ := Option.isSome_iff_exists.mp hc
      obtain ⟨c', hc', hlookup⟩ := h.keeps hlinked (.inl rfl) hconn hgone
      simp only [step, hc, hchannel, Option.some.injEq] at hc'
      subst hc'
      rw [Controller.lookup_step_disconnected] at hlookup
      cases hlookup
  replaces := by
    rintro name size tx channel rfl hc hchannel id rfl hne hconn
    by_cases hgone : (s.lines id).gone = true
    · exact hgone
    · rw [Bool.not_eq_true] at hgone
      obtain ⟨c, hc⟩ := Option.isSome_iff_exists.mp hc
      obtain ⟨c', hc', hlookup⟩ := h.keeps hlinked (.inl rfl) hconn hgone
      simp only [step, hc, hchannel, Option.some.injEq] at hc'
      subst hc'
      rw [Controller.lookup_step_connected] at hlookup
      exact absurd (Option.some.inj hlookup).symm hne

/-- An orderly step keeps the ghosts out, where everybody was served before. -/
theorem Orderly.noGhost (hlinked : AllLinked layout who s) (hserved : Served who s)
    (h : Orderly layout who s move) : NoGhost layout who s move where
  refused := by
    intro id hack
    obtain ⟨fails, rfl, hcompletes⟩ := acknowledged_iff.mp hack
    by_cases hlate : (s.lines id).late = true
    · exact absurd hcompletes (h.early id fails rfl hlate)
    · exact Bool.not_eq_true _ ▸ hlate
  closed := by
    rintro hquiet id hopen
    have hgone := hopen.2
    obtain ⟨phase, htask, -⟩ := hopen.1
    have htask' : ((s.step layout who move).1.lines id).task ≠ none := by
      rw [htask]
      exact Option.some_ne_none phase
    rcases h.left hquiet id htask' with hgone' | ⟨hname, hheard⟩
    · rw [hgone] at hgone'
      cases hgone'
    · exact Line.not_open_of_refused (hlinked.step move id) (hquiet.2 id).1 hname hheard hopen
  served := by
    intro id hconn hopen
    have hack := connected_iff.mp hconn
    obtain ⟨hgone, hack | ⟨rfl, rest, hdown⟩⟩ :=
      Line.acknowledged_step (step_line s move id) hopen.2 hack
    · -- it has believed so before
      have hbefore : Connected who s id := connected_iff.mpr hack
      have hreg := hserved id hbefore hgone
      rcases registered_step layout move hreg with hreg' | ⟨done, rfl⟩ |
        ⟨rfl, _, channel, hchannel, hev⟩
      · exact hreg'
      · rw [h.stops done id rfl hbefore] at hgone
        cases hgone
      · obtain ⟨c, hc, -⟩ := hreg
        rcases hev with rfl | ⟨size, tx, rfl, hne⟩
        · rw [h.disconnects _ channel rfl (hc ▸ rfl) hchannel id rfl hbefore] at hgone
          cases hgone
        · rw [h.replaces _ size tx channel rfl (hc ▸ rfl) hchannel id rfl hne hbefore] at hgone
          cases hgone
    · have hreg := h.registered id rest rfl hdown hgone
      rcases registered_step layout (.hear id) hreg with hreg' | ⟨done, hmove⟩ | ⟨hmove, -⟩
      · exact hreg'
      · cases hmove
      · cases hmove

/-- At first nothing is connected. -/
theorem allLinked_new (home : String) : AllLinked layout who (new layout home) :=
  fun _ => .shaking .idle rfl rfl

theorem served_new (home : String) : Served who (new layout home) := by
  intro id hconn
  cases connected_iff.mp hconn

/-- **Exactly when no ghost is left.**  For any layout, any clients and any interleaving of their
    connections and handshakes, of the server's processes and of the end of its controller: no
    handshake that begins after the end is acknowledged, no connection is open once the server side
    has come to rest after it, and whoever believes it is connected over an open connection is in the
    table of a live controller, with its own queue — if and only if every step is orderly. -/
theorem no_ghost_exactly (layout : ScreenLayout) (home : String)
    (who : Sender → String × ScreenSize) (moves : List Move) :
    Mealy.EveryStep (step layout who) (new layout home) moves
        (fun _ s move => NoGhost layout who s move) ↔
      Mealy.EveryStep (step layout who) (new layout home) moves
        fun _ s move => Orderly layout who s move := by
  constructor
  · intro h
    have hlinked : ∀ js, AllLinked layout who (Mealy.run (step layout who) (new layout home) js).1 :=
      Mealy.run_induction (step layout who) (P := fun _ s _ => AllLinked layout who s)
        (allLinked_new home) fun _ _ _ move h => h.step move
    exact fun js move hpre => (h js move hpre).orderly (hlinked js)
  · intro h
    have hbefore : Mealy.EveryStep (step layout who) (new layout home) moves
        fun _ s _ => AllLinked layout who s ∧ Served who s := by
      refine h.invariant _ (P := fun _ s => AllLinked layout who s ∧ Served who s) ?_ ?_
      · exact ⟨allLinked_new home, served_new home⟩
      · rintro - s move ⟨hlinked, hserved⟩ horderly
        exact ⟨hlinked.step move, (horderly.noGhost hlinked hserved).served_after hlinked⟩
    intro js move hpre
    obtain ⟨hlinked, hserved⟩ := hbefore js move hpre
    exact (h js move hpre).noGhost hlinked hserved

/-- The server is stopped.  A client connects all the same, is greeted, asked for its geometry and
    acknowledged. -/
theorem ghost_acknowledges :
    ¬ ∀ (layout : ScreenLayout) (home : String) (who : Sender → String × ScreenSize)
      (moves : List Move), Mealy.EveryStep (step layout who) (new layout home) moves
        fun _ s move => NoGhost layout who s move := by
  intro hall
  have hghost := hall twoScreens "srv" (fun _ => ("lap", ⟨1280, 800⟩))
    [.stop 0, .connect 1, .task 1 none, .hear 1, .task 1 none, .hear 1, .task 1 none]
    [.stop 0, .connect 1, .task 1 none, .hear 1, .task 1 none, .hear 1] (.task 1 none)
    (List.prefix_refl _)
  have hlate := hghost.refused 1 (by decide)
  revert hlate
  decide

end Service

end SelfKvm
