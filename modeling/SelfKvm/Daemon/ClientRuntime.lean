/-
  The client's runtime (`kvm-daemon/src/client.rs`, `ClientRuntime::run` and `serve`).

  The runtime dials the server, secures the connection if it is told to, and then serves it: it
  receives one message after the other, lets the `ClientMachine` answer, and carries the answers
  out, until the connection is closed, a read or a write fails, or the machine gives up.  On the way
  it tells the GUI its status.

  1. `Performs` compares a run with the run of the machine on the messages taken: what is injected,
     sent and told is what the machine says, in order, and a farewell comes last and at the end
     (`client_runs_machine`).
  2. Not every end is told.  A dial or a TLS handshake that fails, and an answer that does not go
     through, end the runtime without a word (`Silences`); `parting_told` says that nothing else
     does.
  3. Underneath is a byte stream.  `serve_stream`: over any part of a written stream, cut in any
     way, the runtime does what the complete frames call for, and then reports the end, unless an
     answer has not gone through before.
-/
import SelfKvm.Base.Mealy
import SelfKvm.Core.Gate
import SelfKvm.Net.Transport

namespace SelfKvm

/-! ## The code -/

structure ClientConfig where
  serverAddr : String
  /-- The screen's name. -/
  name : String
  screen : ScreenSize
  tls : Bool

inductive ClientStatus where
  | connecting
  | connected
  | entered
  | left
  | disconnected (why : String)
  deriving DecidableEq, Repr

/-- How a reason is printed. -/
def DisconnectReason.debug : DisconnectReason → String
  | .serverClosed => "ServerClosed"
  | .incompatibleVersion major minor =>
    "IncompatibleVersion \x7b major: " ++ toString major.toInt ++ ", minor: "
      ++ toString minor.toInt ++ " \x7d"
  | .nameInUse => "NameInUse"
  | .unknownToServer => "UnknownToServer"
  | .protocolViolation => "ProtocolViolation"

def ProtoError.text : ProtoError → String
  | .unexpectedEof needed had =>
    "unexpected end of buffer: needed " ++ toString needed ++ " more byte(s), had " ++ toString had
  | .unknownCode code => "unknown message code " ++ toString code
  | .tooLong declared max =>
    "declared length " ++ toString declared ++ " exceeds maximum " ++ toString max
  | .invalidUtf8 => "invalid utf-8 in string field"

/-- The text of an error; that of an I/O error is the system's. -/
def NetError.text (ioText : IoError → String) : NetError → String
  | .closed => "connection closed by peer"
  | .frameTooLarge len =>
    "frame too large: " ++ toString len ++ " bytes (max " ++ toString maxFrameLen ++ ")"
  | .proto e => "protocol decode error: " ++ e.text
  | .io e => "io error: " ++ ioText e

/-- What the runtime does. -/
inductive ClientEffect where
  /-- Set the clipboard to the text these bytes spell, read lossily. -/
  | setClipboard (data : List UInt8)
  | inject (cmd : InputCommand)
  | send (msg : Message)
  | status (s : ClientStatus)
  deriving DecidableEq, Repr

/-- Why `run` returns an error. -/
inductive ClientFailure where
  | connect (addr : String)
  | tlsConnect
  | tlsUnsupported
  | net (e : NetError)
  deriving DecidableEq, Repr

/-- Where the runtime is. -/
inductive ClientTask where
  | dialing
  /-- The connection is there, the TLS handshake is not complete. -/
  | securing
  | serving (machine : ClientMachine)
  | ended (result : Except ClientFailure Unit)
  deriving DecidableEq

/-- What the runtime meets. -/
inductive ClientHappening where
  | dialed (ok : Bool)
  | secured (ok : Bool)
  /-- What `recv` gives; and why the answer does not go through, if it does not. -/
  | received (result : Except NetError Message) (fails : Option NetError)
  deriving DecidableEq

/-- Carry out the actions of the machine, as far as it goes; the second component is the result if
    that is the end. -/
def perform (fails : Option NetError) :
    List ClientAction → List ClientEffect × Option (Except ClientFailure Unit)
  | [] => ([], none)
  | .inject cmd :: acts =>
    -- a command that cannot be injected is only logged
    let (effs, result) := perform fails acts
    (.inject cmd :: effs, result)
  | .reply msg :: acts =>
    match fails with
    | some e => ([], some (.error (.net e)))
    | none =>
      let (effs, result) := perform fails acts
      (.send msg :: effs, result)
  | .connected :: acts =>
    let (effs, result) := perform fails acts
    (.status .connected :: effs, result)
  | .entered :: acts =>
    let (effs, result) := perform fails acts
    (.status .entered :: effs, result)
  | .left :: acts =>
    let (effs, result) := perform fails acts
    (.status .left :: effs, result)
  | .disconnect reason :: _ => ([.status (.disconnected reason.debug)], some (.ok ()))

/-- Clipboard data are set, whatever the machine makes of them. -/
def clip : Message → List ClientEffect
  | .clipboardData _ _ _ data => [.setClipboard data]
  | _ => []

/-- One turn of `serve`. -/
def serve (ioText : IoError → String) (machine : ClientMachine) (fails : Option NetError) :
    Except NetError Message → ClientTask × List ClientEffect
  | .error .closed => (.ended (.ok ()), [.status (.disconnected "server closed")])
  | .error e => (.ended (.error (.net e)), [.status (.disconnected (e.text ioText))])
  | .ok msg =>
    let (machine, acts) := machine.handle msg
    match perform fails acts with
    | (effs, none) => (.serving machine, clip msg ++ effs)
    | (effs, some result) => (.ended result, clip msg ++ effs)

section

variable (ioText : IoError → String) (tlsBuilt : Bool) (config : ClientConfig)

namespace ClientTask

/-- One step of `run`; `tlsBuilt` is the build's `tls` feature. -/
def step : ClientTask → ClientHappening → ClientTask × List ClientEffect
  | .dialing, .dialed false => (.ended (.error (.connect config.serverAddr)), [])
  | .dialing, .dialed true =>
    if config.tls then
      if tlsBuilt then
        (.securing, [])
      else
        (.ended (.error .tlsUnsupported),
          [.status (.disconnected
            "TLS requested but daemon built without the `tls` feature")])
    else
      (.serving (.new config.name config.screen), [])
  | .securing, .secured false => (.ended (.error .tlsConnect), [])
  | .securing, .secured true => (.serving (.new config.name config.screen), [])
  | .serving machine, .received result fails => serve ioText machine fails result
  | task, _ => (task, [])

end ClientTask

/-- A run from the beginning. -/
def clientRun (hs : List ClientHappening) : ClientTask × List ClientEffect :=
  let (task, effs) := Mealy.run (ClientTask.step ioText tlsBuilt config) .dialing hs
  (task, .status .connecting :: effs)

end

/-- The loop of `serve`, over the stream its connection reads, for so many turns as there are
    `fails`: these say why the answer of a turn does not go through, if it does not. -/
def serveStream (ioText : IoError → String) :
    List (Option NetError) → FramedReader → ClientTask → ClientTask × List ClientEffect
  | fail :: fails, r, .serving machine =>
    let (result, r) := r.recv
    let (task, effs) := serve ioText machine fail result
    let (task, rest) := serveStream ioText fails r task
    (task, effs ++ rest)
  | _, _, task => (task, [])

/-! ## What a message comes to -/

/-- The messages a client answers. -/
def Message.asks : Message → Bool
  | .hello _ _ => true
  | .queryInfo => true
  | .keepAlive => true
  | _ => false

/-- On these messages a client gives up. -/
def Message.partsWays : Message → Bool
  | .close => true
  | .errIncompatible _ _ => true
  | .errBusy => true
  | .errUnknown => true
  | .errBad => true
  | _ => false

/-- What becomes of an action when nothing fails. -/
def ClientAction.effect : ClientAction → ClientEffect
  | .inject cmd => .inject cmd
  | .reply msg => .send msg
  | .connected => .status .connected
  | .entered => .status .entered
  | .left => .status .left
  | .disconnect reason => .status (.disconnected reason.debug)

/-- The machine with its actions carried out. -/
def ClientMachine.acted (c : ClientMachine) (msg : Message) : ClientMachine × List ClientEffect :=
  ((c.handle msg).1, clip msg ++ (c.handle msg).2.map ClientAction.effect)

theorem injectIfActive_or (c : ClientMachine) (cmd : InputCommand) :
    c.injectIfActive cmd = [.inject cmd] ∨ c.injectIfActive cmd = [] := by
  rw [ClientMachine.injectIfActive_eq]
  split
  · exact .inl rfl
  · exact .inr rfl

/-- **All there is to a turn**: an answer fails, or everything is carried out; and after that the
    client has given up or goes on. -/
theorem perform_handle (c : ClientMachine) (msg : Message) (fails : Option NetError) :
    perform fails (c.handle msg).2 =
      if msg.asks && fails.isSome then
        ([], fails.map fun e => .error (.net e))
      else
        ((c.handle msg).2.map ClientAction.effect,
          if msg.partsWays then some (.ok ()) else none) := by
  have hinject : ∀ cmd, perform fails (c.injectIfActive cmd) =
      ((c.injectIfActive cmd).map ClientAction.effect, none) := by
    intro cmd
    rcases injectIfActive_or c cmd with h | h
    · rw [h]
      rfl
    · rw [h]
      rfl
  cases msg with
  | mouseMove x y => exact hinject (.mouseMoveAbs x.toInt32 y.toInt32)
  | mouseRelMove dx dy => exact hinject (.mouseMoveRel dx.toInt32 dy.toInt32)
  | mouseDown button => exact hinject (.mouseButton button true)
  | mouseUp button => exact hinject (.mouseButton button false)
  | mouseWheel x y => exact hinject (.mouseWheel x y)
  | keyDown id mask button => exact hinject (.key id mask button .down)
  | keyUp id mask button => exact hinject (.key id mask button .up)
  | keyRepeat id mask count button => exact hinject (.key id mask button (.autoRepeat count))
  | hello | queryInfo | keepAlive => cases fails <;> rfl
  | _ => rfl

/-- The only action that says farewell is on a message of that kind. -/
theorem mem_acted_disconnected {c : ClientMachine} {msg : Message} {why : String}
    (h : .status (.disconnected why) ∈ (c.acted msg).2) : msg.partsWays = true := by
  have hinject : ∀ cmd, .status (.disconnected why) ∉
      (c.injectIfActive cmd).map ClientAction.effect := by
    intro cmd hmem
    rcases injectIfActive_or c cmd with h | h
    · rw [h] at hmem
      cases List.mem_singleton.mp hmem
    · rw [h] at hmem
      cases hmem
  cases msg with
  | mouseMove x y => exact absurd h (hinject (.mouseMoveAbs x.toInt32 y.toInt32))
  | mouseRelMove dx dy => exact absurd h (hinject (.mouseMoveRel dx.toInt32 dy.toInt32))
  | mouseDown button => exact absurd h (hinject (.mouseButton button true))
  | mouseUp button => exact absurd h (hinject (.mouseButton button false))
  | mouseWheel x y => exact absurd h (hinject (.mouseWheel x y))
  | keyDown id mask button => exact absurd h (hinject (.key id mask button .down))
  | keyUp id mask button => exact absurd h (hinject (.key id mask button .up))
  | keyRepeat id mask count button =>
    exact absurd h (hinject (.key id mask button (.autoRepeat count)))
  | close | errIncompatible | errBusy | errUnknown | errBad => rfl
  | _ => simp [ClientMachine.acted, ClientMachine.handle, clip, ClientAction.effect] at h

/-- And it is the last one. -/
theorem acted_parting {c : ClientMachine} {msg : Message} (h : msg.partsWays = true) :
    ∃ why, (c.acted msg).2 = [.status (.disconnected why)] := by
  cases msg with
  | close | errIncompatible | errBusy | errUnknown | errBad => exact ⟨_, rfl⟩
  | _ => cases h

/-! ## The runtime against the machine -/

section

variable (ioText : IoError → String) (tlsBuilt : Bool) (config : ClientConfig)

namespace ClientTask

/-- The message the machine gets to answer in a step. -/
def takes : ClientTask → ClientHappening → List Message
  | .serving _, .received (.ok msg) fails => if msg.asks && fails.isSome then [] else [msg]
  | _, _ => []

/-- The step ends the runtime, and nobody is told. -/
def Silences : ClientTask → ClientHappening → Prop
  | .dialing, .dialed ok => ok = false
  | .securing, .secured ok => ok = false
  | .serving _, .received (.ok msg) fails => msg.asks = true ∧ fails.isSome = true
  | _, _ => False

end ClientTask

/-- The messages taken so far. -/
def takenBy (hs : List ClientHappening) : List Message :=
  (Mealy.run (fun task h => ((ClientTask.step ioText tlsBuilt config task h).1, task.takes h))
    .dialing hs).2

/-- The machine of the configuration, before it has heard anything. -/
def ClientConfig.machine : ClientMachine := .new config.name config.screen

/-- How far a run has got: the messages taken, and what was done. -/
inductive Performs : ClientTask → List Message → List ClientEffect → Prop
  | dialing : Performs .dialing [] []
  | securing : Performs .securing [] []
  | serving (msgs : List Message) (hstay : ∀ msg ∈ msgs, msg.partsWays = false) :
      Performs (.serving (Mealy.run ClientMachine.acted config.machine msgs).1) msgs
        (Mealy.run ClientMachine.acted config.machine msgs).2
  /-- It has ended without a word. -/
  | silent (result : Except ClientFailure Unit) (msgs : List Message)
      (hstay : ∀ msg ∈ msgs, msg.partsWays = false) :
      Performs (.ended result) msgs (Mealy.run ClientMachine.acted config.machine msgs).2
  /-- The end was none of the machine's, and is told. -/
  | told (result : Except ClientFailure Unit) (msgs : List Message) (why : String)
      (hstay : ∀ msg ∈ msgs, msg.partsWays = false) :
      Performs (.ended result) msgs
        ((Mealy.run ClientMachine.acted config.machine msgs).2 ++ [.status (.disconnected why)])
  /-- The machine has given up. -/
  | parted (result : Except ClientFailure Unit) (msgs : List Message) (msg : Message)
      (hstay : ∀ msg ∈ msgs, msg.partsWays = false) (hparts : msg.partsWays = true) :
      Performs (.ended result) (msgs ++ [msg])
        (Mealy.run ClientMachine.acted config.machine (msgs ++ [msg])).2

variable {ioText tlsBuilt config}

/-- **One step.** -/
theorem Performs.step {task : ClientTask} {msgs : List Message} {effs : List ClientEffect}
    (hp : Performs config task msgs effs) (h : ClientHappening) :
    Performs config (ClientTask.step ioText tlsBuilt config task h).1 (msgs ++ task.takes h)
      (effs ++ (ClientTask.step ioText tlsBuilt config task h).2) := by
  have hsame : Performs config task (msgs ++ []) (effs ++ []) := by
    rwa [List.append_nil, List.append_nil]
  cases hp with
  | dialing =>
    cases h with
    | dialed ok =>
      cases ok with
      | false => exact .silent _ [] fun _ h => by cases h
      | true =>
        simp only [ClientTask.step]
        by_cases htls : config.tls = true
        · rw [if_pos htls]
          by_cases hbuilt : tlsBuilt = true
          · rw [if_pos hbuilt]
            exact .securing
          · rw [if_neg hbuilt]
            exact .told _ [] _ fun _ h => by cases h
        · rw [if_neg htls]
          exact .serving [] fun _ h => by cases h
    | _ => exact hsame
  | securing =>
    cases h with
    | secured ok =>
      cases ok with
      | false => exact .silent _ [] fun _ h => by cases h
      | true => exact .serving [] fun _ h => by cases h
    | _ => exact hsame
  | serving _ hstay =>
    cases h with
    | received result fails =>
      cases result with
      | error e =>
        show Performs _ _ (msgs ++ []) _
        rw [List.append_nil]
        cases e with
        | closed => exact .told _ msgs _ hstay
        | _ => exact .told _ msgs _ hstay
      | ok msg =>
        simp only [ClientTask.step, serve, ClientTask.takes]
        rw [perform_handle]
        by_cases hfails : (msg.asks && fails.isSome) = true
        · -- the answer does not go through
          obtain ⟨hasks, hsome⟩ := Bool.and_eq_true_iff.mp hfails
          obtain ⟨e, rfl⟩ := Option.isSome_iff_exists.mp hsome
          have hquiet : clip msg = [] := by
            cases msg <;> first | rfl | cases hasks
          simp only [hfails, hquiet, if_true, Option.map_some, List.append_nil]
          exact .silent _ msgs hstay
        · simp only [hfails]
          by_cases hparts : msg.partsWays = true
          · simp only [hparts, if_true]
            have hparted : Performs config (.ended (.ok ())) (msgs ++ [msg]) _ :=
              .parted _ msgs msg hstay hparts
            rwa [Mealy.run_concat] at hparted
          · simp only [hparts]
            have hstay' : ∀ m ∈ msgs ++ [msg], m.partsWays = false := by
              intro m hm
              rcases List.mem_append.mp hm with hm | hm
              · exact hstay m hm
              · rw [List.mem_singleton.mp hm]
                exact Bool.not_eq_true _ ▸ hparts
            have hserving : Performs config (.serving _) (msgs ++ [msg]) _ := .serving _ hstay'
            rwa [Mealy.run_concat] at hserving
    | _ => exact hsame
  | silent | told | parted =>
    cases h <;> exact hsame

/-- What is taken in a run that goes on for one step. -/
theorem takenBy_concat (hs : List ClientHappening) (h : ClientHappening) :
    takenBy ioText tlsBuilt config (hs ++ [h]) = takenBy ioText tlsBuilt config hs ++
      (Mealy.run (ClientTask.step ioText tlsBuilt config) .dialing hs).1.takes h := by
  have hstate : (Mealy.run (fun task h =>
        ((ClientTask.step ioText tlsBuilt config task h).1, task.takes h)) .dialing hs).1 =
      (Mealy.run (ClientTask.step ioText tlsBuilt config) .dialing hs).1 := by
    apply Mealy.run_state_congr
    exact fun _ _ => rfl
  show (Mealy.run _ _ _).2 = _
  rw [Mealy.run_concat, hstate]
  rfl

/-- The machine says no farewell on messages that are none. -/
theorem acted_run_quiet {c : ClientMachine} {msgs : List Message}
    (hstay : ∀ msg ∈ msgs, msg.partsWays = false) (why : String) :
    .status (.disconnected why) ∉ (Mealy.run ClientMachine.acted c msgs).2 := by
  induction msgs generalizing c with
  | nil => exact List.not_mem_nil
  | cons msg msgs ih =>
    rw [Mealy.run_cons, List.mem_append]
    rintro (h | h)
    · have hparts := mem_acted_disconnected h
      rw [hstay msg List.mem_cons_self] at hparts
      cases hparts
    · exact ih (fun m hm => hstay m (List.mem_cons_of_mem msg hm)) h

/-- Nothing is done after a farewell. -/
theorem Performs.farewell_last {task : ClientTask} {msgs : List Message} {effs : List ClientEffect}
    (hp : Performs config task msgs effs) (why : String) :
    .status (.disconnected why) ∉ effs.dropLast := by
  cases hp with
  | dialing => exact List.not_mem_nil
  | securing => exact List.not_mem_nil
  | serving _ hstay =>
    exact fun h => acted_run_quiet hstay why (List.dropLast_subset _ h)
  | silent _ _ hstay =>
    exact fun h => acted_run_quiet hstay why (List.dropLast_subset _ h)
  | told _ _ why' hstay =>
    rw [List.dropLast_concat]
    exact acted_run_quiet hstay why
  | parted _ msgs msg hstay hparts =>
    obtain ⟨why', hwhy⟩ :=
      acted_parting (c := (Mealy.run ClientMachine.acted config.machine msgs).1) hparts
    rw [Mealy.run_concat, hwhy, List.dropLast_concat]
    exact acted_run_quiet hstay why

/-- A farewell is said at the end only. -/
theorem Performs.farewell_ends {task : ClientTask} {msgs : List Message} {effs : List ClientEffect}
    (hp : Performs config task msgs effs) {why : String}
    (h : .status (.disconnected why) ∈ effs) : ∃ result, task = .ended result := by
  cases hp with
  | dialing | securing => cases h
  | serving _ hstay => exact absurd h (acted_run_quiet hstay why)
  | silent result | told result | parted result => exact ⟨result, rfl⟩

variable (ioText tlsBuilt config)

theorem run_performs (hs : List ClientHappening) :
    Performs config (Mealy.run (ClientTask.step ioText tlsBuilt config) .dialing hs).1
      (takenBy ioText tlsBuilt config hs)
      (Mealy.run (ClientTask.step ioText tlsBuilt config) .dialing hs).2 := by
  induction hs using List.reverseRecOn with
  | nil => exact .dialing
  | append_singleton hs h ih =>
    rw [takenBy_concat, Mealy.run_concat]
    exact ih.step h

/-- Nothing is done after a farewell. -/
theorem farewell_last (hs : List ClientHappening) (why : String) :
    .status (.disconnected why) ∉ (clientRun ioText tlsBuilt config hs).2.dropLast := by
  have hlast := (run_performs ioText tlsBuilt config hs).farewell_last
  simp only [clientRun]
  generalize (Mealy.run (ClientTask.step ioText tlsBuilt config) .dialing hs).2 = effs at hlast ⊢
  intro hmem
  cases effs with
  | nil => cases hmem
  | cons e effs =>
    rw [List.dropLast_cons_of_ne_nil (List.cons_ne_nil e effs)] at hmem
    rcases List.mem_cons.mp hmem with hmem | hmem
    · cases hmem
    · exact hlast why hmem

/-- **The runtime runs its machine.**  For any configuration and whatever the runtime meets, in any
    order: it reports that it is connecting, then carries out what the machine says on the messages
    taken, in order, and at its end says farewell itself if the machine has not.  No farewell comes
    before the last thing it does, or before its end.  While it serves, its machine is the one that
    has run on the messages taken, and it takes no message after one on which the machine gives
    up. -/
theorem client_runs_machine (hs : List ClientHappening) :
    (∃ farewell,
      (clientRun ioText tlsBuilt config hs).2 = .status .connecting ::
        (Mealy.run ClientMachine.acted config.machine (takenBy ioText tlsBuilt config hs)).2
          ++ farewell ∧
      (farewell = [] ∨ ∃ why result, farewell = [.status (.disconnected why)] ∧
        (clientRun ioText tlsBuilt config hs).1 = .ended result)) ∧
    (∀ why, .status (.disconnected why) ∉ (clientRun ioText tlsBuilt config hs).2.dropLast) ∧
    (∀ why, .status (.disconnected why) ∈ (clientRun ioText tlsBuilt config hs).2 →
      ∃ result, (clientRun ioText tlsBuilt config hs).1 = .ended result) ∧
    (∀ m, (clientRun ioText tlsBuilt config hs).1 = .serving m →
      m = (Mealy.run ClientMachine.acted config.machine (takenBy ioText tlsBuilt config hs)).1) ∧
    ∀ msg ∈ (takenBy ioText tlsBuilt config hs).dropLast, msg.partsWays = false := by
  have hp := run_performs ioText tlsBuilt config hs
  have hlast := farewell_last ioText tlsBuilt config hs
  simp only [clientRun] at hlast ⊢
  generalize (Mealy.run (ClientTask.step ioText tlsBuilt config) .dialing hs).1 = task,
    takenBy ioText tlsBuilt config hs = msgs,
    (Mealy.run (ClientTask.step ioText tlsBuilt config) .dialing hs).2 = effs at hp hlast
  have hends : ∀ why, .status (.disconnected why) ∈ .status .connecting :: effs →
      ∃ result, task = .ended result := by
    intro why h
    rcases List.mem_cons.mp h with h | h
    · cases h
    · exact hp.farewell_ends h
  have hdrop : ∀ {msgs : List Message}, (∀ msg ∈ msgs, msg.partsWays = false) →
      ∀ msg ∈ msgs.dropLast, msg.partsWays = false :=
    fun hstay msg hmsg => hstay msg (List.dropLast_subset _ hmsg)
  have hnot : ∀ {m : ClientMachine} {task : ClientTask} {P : Prop}, (∀ m, task ≠ .serving m) →
      task = .serving m → P := fun hne h => absurd h (hne _)
  cases hp with
  | dialing =>
    exact ⟨⟨[], rfl, .inl rfl⟩, hlast, hends, fun _ => hnot (by simp), fun _ h => by cases h⟩
  | securing =>
    exact ⟨⟨[], rfl, .inl rfl⟩, hlast, hends, fun _ => hnot (by simp), fun _ h => by cases h⟩
  | serving _ hstay =>
    refine ⟨⟨[], (List.append_nil _).symm, .inl rfl⟩, hlast, hends, ?_, hdrop hstay⟩
    intro m hm
    injection hm with hm
    exact hm.symm
  | silent result _ hstay =>
    exact ⟨⟨[], (List.append_nil _).symm, .inl rfl⟩, hlast, hends, fun _ => hnot (by simp),
      hdrop hstay⟩
  | told result _ why hstay =>
    exact ⟨⟨_, rfl, .inr ⟨why, result, rfl, rfl⟩⟩, hlast, hends, fun _ => hnot (by simp),
      hdrop hstay⟩
  | parted result msgs msg hstay =>
    refine ⟨⟨[], (List.append_nil _).symm, .inl rfl⟩, hlast, hends, fun _ => hnot (by simp), ?_⟩
    rw [List.dropLast_concat]
    exact hstay

/-! ## Who is told of the end -/

/-- A step ends the runtime with a word, exactly if it is none of the silent ones. -/
theorem step_told {task : ClientTask} (h : ClientHappening)
    (htask : ∀ result, task ≠ .ended result) :
    (task.Silences h → ∃ result, (task.step ioText tlsBuilt config h).1 = .ended result) ∧
    ((∃ why, .status (.disconnected why) ∈ (task.step ioText tlsBuilt config h).2) ↔
      (∃ result, (task.step ioText tlsBuilt config h).1 = .ended result) ∧ ¬ task.Silences h) := by
  have hstill : ∀ {task' : ClientTask}, (∀ result, task' ≠ .ended result) → ¬ task.Silences h →
      task.step ioText tlsBuilt config h = (task', []) →
      (task.Silences h → ∃ result, (task.step ioText tlsBuilt config h).1 = .ended result) ∧
      ((∃ why, .status (.disconnected why) ∈ (task.step ioText tlsBuilt config h).2) ↔
        (∃ result, (task.step ioText tlsBuilt config h).1 = .ended result) ∧
          ¬ task.Silences h) := by
    intro task' htask' hloud hstep
    refine ⟨fun hs => absurd hs hloud, ?_⟩
    rw [hstep]
    constructor
    · rintro ⟨why, hmem⟩
      cases hmem
    · rintro ⟨⟨result, hresult⟩, -⟩
      exact absurd hresult (htask' result)
  cases task with
  | ended result => exact absurd rfl (htask result)
  | dialing =>
    cases h with
    | dialed ok =>
      cases ok with
      | false => exact ⟨fun _ => ⟨_, rfl⟩, by simp [ClientTask.step, ClientTask.Silences]⟩
      | true =>
        simp only [ClientTask.step, ClientTask.Silences]
        by_cases htls : config.tls = true <;> by_cases hbuilt : tlsBuilt = true <;>
          simp [htls, hbuilt]
    | _ => exact hstill htask (fun h => h) rfl
  | securing =>
    cases h with
    | secured ok => cases ok <;> simp [ClientTask.step, ClientTask.Silences]
    | _ => exact hstill htask (fun h => h) rfl
  | serving machine =>
    cases h with
    | received result fails =>
      cases result with
      | error e => cases e <;> simp [ClientTask.step, ClientTask.Silences, serve]
      | ok msg =>
        simp only [ClientTask.step, serve, ClientTask.Silences, ← Bool.and_eq_true_iff]
        rw [perform_handle]
        by_cases hfails : (msg.asks && fails.isSome) = true
        · obtain ⟨hasks, hsome⟩ := Bool.and_eq_true_iff.mp hfails
          obtain ⟨e, rfl⟩ := Option.isSome_iff_exists.mp hsome
          have hquiet : clip msg = [] := by
            cases msg <;> first | rfl | cases hasks
          simp [hasks, hquiet]
        · by_cases hparts : msg.partsWays = true
          · obtain ⟨why, hwhy⟩ := acted_parting (c := machine) hparts
            have hmem : .status (.disconnected why) ∈ (machine.acted msg).2 := by
              rw [hwhy]
              exact List.mem_singleton_self _
            simp only [hfails, hparts, if_true]
            exact ⟨fun h => absurd h Bool.false_ne_true,
              fun _ => ⟨⟨_, rfl⟩, Bool.false_ne_true⟩, fun _ => ⟨why, hmem⟩⟩
          · simp only [hfails, hparts]
            refine ⟨fun h => absurd h Bool.false_ne_true, ?_, ?_⟩
            · rintro ⟨why, hmem⟩
              exact absurd (mem_acted_disconnected (c := machine) hmem) hparts
            · rintro ⟨⟨result, hresult⟩, -⟩
              cases hresult
    | _ => exact hstill htask (fun h => h) rfl

/-- What is told in a run, and what is kept from the GUI. -/
theorem run_told (hs : List ClientHappening) :
    let run := Mealy.run (ClientTask.step ioText tlsBuilt config) .dialing hs
    let loud := Mealy.EveryStep (ClientTask.step ioText tlsBuilt config) .dialing hs
      fun _ task h => ¬ task.Silences h
    ((∀ result, run.1 ≠ .ended result) → loud) ∧
    ((∃ why, .status (.disconnected why) ∈ run.2) ↔ (∃ result, run.1 = .ended result) ∧ loud) := by
  induction hs using List.reverseRecOn with
  | nil =>
    refine ⟨fun _ => Mealy.everyStep_nil _, ?_, ?_⟩
    · rintro ⟨why, hmem⟩
      cases hmem
    · rintro ⟨⟨result, hresult⟩, -⟩
      cases hresult
  | append_singleton hs h ih =>
    simp only [Mealy.run_concat, Mealy.everyStep_concat] at ih ⊢
    generalize (Mealy.run (ClientTask.step ioText tlsBuilt config) .dialing hs).1 = task,
      (Mealy.run (ClientTask.step ioText tlsBuilt config) .dialing hs).2 = effs at ih ⊢
    generalize Mealy.EveryStep (ClientTask.step ioText tlsBuilt config) .dialing hs
      (fun _ task h => ¬ task.Silences h) = loud at ih ⊢
    obtain ⟨hloud, htold⟩ := ih
    by_cases htask : ∃ result, task = .ended result
    · -- after the end nothing happens
      obtain ⟨result, rfl⟩ := htask
      have hstep :
          ClientTask.step ioText tlsBuilt config (.ended result) h = (.ended result, []) := by
        cases h <;> rfl
      have hquiet : ¬ (ClientTask.ended result).Silences h := by
        cases h <;> exact fun h => h
      rw [hstep, List.append_nil, htold]
      exact ⟨fun hne => absurd rfl (hne result), by simp [hquiet]⟩
    · simp only [not_exists] at htask
      have hnone : ∀ why, .status (.disconnected why) ∉ effs := by
        intro why hmem
        obtain ⟨⟨result, hresult⟩, -⟩ := htold.mp ⟨why, hmem⟩
        exact htask result hresult
      obtain ⟨hsilent, hiff⟩ := step_told ioText tlsBuilt config h htask
      constructor
      · intro hne
        refine ⟨hloud htask, fun hs => ?_⟩
        obtain ⟨result, hresult⟩ := hsilent hs
        exact hne result hresult
      · simp only [List.mem_append, hnone, false_or, hiff]
        constructor
        · rintro ⟨hended, hquiet⟩
          exact ⟨hended, hloud htask, hquiet⟩
        · rintro ⟨hended, -, hquiet⟩
          exact ⟨hended, hquiet⟩

/-- A farewell is said exactly if the runtime has ended, and not in silence. -/
theorem mem_farewell (hs : List ClientHappening) :
    (∃ why, .status (.disconnected why) ∈ (clientRun ioText tlsBuilt config hs).2) ↔
      (∃ result, (clientRun ioText tlsBuilt config hs).1 = .ended result) ∧
      Mealy.EveryStep (ClientTask.step ioText tlsBuilt config) .dialing hs
        fun _ task h => ¬ task.Silences h := by
  obtain ⟨-, htold⟩ := run_told ioText tlsBuilt config hs
  simp only [clientRun]
  rw [← htold]
  simp

/-- **Who is told of the end.**  For any configuration and whatever the runtime meets: the GUI is
    told that the client is disconnected exactly if the runtime has ended, and was not ended by a
    dial or a TLS handshake that failed, or by an answer that did not go through; and nothing is
    done after that. -/
theorem parting_told (hs : List ClientHappening) :
    ((∃ why, .status (.disconnected why) ∈ (clientRun ioText tlsBuilt config hs).2) ↔
      (∃ result, (clientRun ioText tlsBuilt config hs).1 = .ended result) ∧
      Mealy.EveryStep (ClientTask.step ioText tlsBuilt config) .dialing hs
        fun _ task h => ¬ task.Silences h) ∧
    ∀ why, .status (.disconnected why) ∉ (clientRun ioText tlsBuilt config hs).2.dropLast :=
  ⟨mem_farewell ioText tlsBuilt config hs, farewell_last ioText tlsBuilt config hs⟩

end

/-! ## Over the stream -/

/-- Why the turn that reads this message is the last, if it is: its answer does not go through, or
    the client gives up. -/
def endsTurn : Message × Option NetError → Option (Except ClientFailure Unit)
  | (msg, fail) =>
    if msg.asks && fail.isSome then
      fail.map fun e => .error (.net e)
    else if msg.partsWays then
      some (.ok ())
    else
      none

/-- The messages on which the machine says something, up to the last turn. -/
def heardBy : List (Message × Option NetError) → List Message
  | [] => []
  | turn :: turns =>
    match endsTurn turn with
    | none => turn.1 :: heardBy turns
    | some (.ok _) => [turn.1]
    | some (.error _) => []

/-- A turn that reads a message. -/
theorem serve_ok (ioText : IoError → String) (c : ClientMachine) (msg : Message)
    (fail : Option NetError) :
    serve ioText c fail (.ok msg) =
      match endsTurn (msg, fail) with
      | none => (.serving (c.acted msg).1, (c.acted msg).2)
      | some (.ok ()) => (.ended (.ok ()), (c.acted msg).2)
      | some (.error e) => (.ended (.error e), []) := by
  simp only [serve, endsTurn]
  rw [perform_handle]
  by_cases hfails : (msg.asks && fail.isSome) = true
  · obtain ⟨hasks, hsome⟩ := Bool.and_eq_true_iff.mp hfails
    obtain ⟨e, rfl⟩ := Option.isSome_iff_exists.mp hsome
    have hquiet : clip msg = [] := by
      cases msg <;> first | rfl | cases hasks
    simp only [hfails, hquiet, if_true, Option.map_some, List.append_nil]
  · simp only [hfails, Bool.false_eq_true, if_false]
    by_cases hparts : msg.partsWays = true
    · simp only [hparts, if_true]
      rfl
    · simp only [hparts, Bool.false_eq_true, if_false]
      rfl

/-- **The runtime over its stream.**  Write any framable messages, let any prefix of the stream
    arrive in any pieces, and let any answers not go through: the runtime does what its machine says
    on the messages whose frames are complete, up to the first on which the machine gives up or whose
    answer does not go through.  In the latter case it ends with that error and without a word; else
    it ends without an error, and reports that the server has closed unless the machine has said
    farewell.  A frame that is cut leaves no trace. -/
theorem serve_stream (ioText : IoError → String) {msgs : List Message}
    (hmsgs : ∀ m ∈ msgs, m.Frames) (k : Nat) {r : FramedReader}
    (h : Source.Delivers r.inner ((written msgs).take k)) (c : ClientMachine)
    {fails : List (Option NetError)} (hfails : framesBy k msgs < fails.length) :
    let turns := (msgs.take (framesBy k msgs)).zip fails
    serveStream ioText fails r (.serving c) =
      (.ended ((turns.findSome? endsTurn).getD (.ok ())),
        (Mealy.run ClientMachine.acted c (heardBy turns)).2 ++
          if (turns.findSome? endsTurn).isSome then
            []
          else
            [.status (.disconnected "server closed")]) := by
  induction msgs generalizing k r c fails with
  | nil =>
    obtain ⟨fail, fails, rfl⟩ := List.exists_cons_of_length_pos (Nat.zero_lt_of_lt hfails)
    rw [written_nil, List.take_nil] at h
    obtain ⟨r', hrecv, -⟩ :=
      FramedReader.recv_no_header (show ([] : List UInt8).length < 4 by decide) h
    simp only [serveStream, hrecv, serve]
    rfl
  | cons m msgs ih =>
    have hm : m.Frames := hmsgs m List.mem_cons_self
    have hms : ∀ m ∈ msgs, m.Frames := fun m' h' => hmsgs m' (List.mem_cons_of_mem m h')
    obtain ⟨fail, fails, rfl⟩ := List.exists_cons_of_length_pos (Nat.zero_lt_of_lt hfails)
    rw [framesBy_cons] at hfails ⊢
    by_cases hk : (frame m).length ≤ k
    · rw [if_pos hk] at hfails ⊢
      rw [written_cons, List.take_append, List.take_of_length_le hk] at h
      obtain ⟨r', hrecv, h'⟩ := FramedReader.recv_frame hm h
      rw [List.length_cons] at hfails
      have hserve := serve_ok ioText c m fail
      simp only [List.take_succ_cons, List.zip_cons_cons]
      -- the first frame is complete: its turn goes on, or is the last
      rcases hend : endsTurn (m, fail) with _ | ⟨e | ⟨⟩⟩
      all_goals
        rw [hend] at hserve
        simp only [serveStream, hrecv, hserve, List.findSome?_cons, heardBy, hend]
      · rw [ih hms _ h' _ (Nat.lt_of_succ_lt_succ hfails), Mealy.run_cons, List.append_assoc]
      · rfl
      · rw [Mealy.run_singleton]
        rfl
    · -- the first frame is not complete
      rw [if_neg hk]
      rw [written_cons, List.take_append_of_le_length (by omega)] at h
      obtain ⟨r', hrecv, -⟩ := FramedReader.recv_short hm (by omega) h
      simp only [serveStream, hrecv, serve]
      rfl

/-- A query, a farewell and half a frame: the query is answered, and the rest is not waited for. -/
theorem serve_stream_close :
    serveStream (fun _ => "") [none, none, none, none]
        ⟨[.ok [0, 0, 0], .ok [4, 81, 73, 78, 70, 0, 0, 0, 4, 67], .ok [66, 89, 69, 0, 0]], []⟩
        (.serving (.new "laptop" ⟨1920, 1080⟩)) =
      (.ended (.ok ()),
        [.send (.deviceInfo 0 0 1920 1080 0 960 540), .status (.disconnected "ServerClosed")]) := by
  have hmsgs : ∀ m ∈ [Message.queryInfo, .close, .keepAlive], m.Frames := by
    intro m hm
    simp only [List.mem_cons, List.not_mem_nil, or_false] at hm
    rcases hm with rfl | rfl | rfl
    · exact ⟨trivial, by decide⟩
    · exact ⟨trivial, by decide⟩
    · exact ⟨trivial, by decide⟩
  have hcut : (written [Message.queryInfo, .close, .keepAlive]).take 18
      = [0, 0, 0] ++ ([4, 81, 73, 78, 70, 0, 0, 0, 4, 67] ++ ([66, 89, 69, 0, 0] ++ [])) := by
    decide
  have h : Source.Delivers
      ([.ok [0, 0, 0], .ok [4, 81, 73, 78, 70, 0, 0, 0, 4, 67], .ok [66, 89, 69, 0, 0]] : Incoming)
      ((written [Message.queryInfo, .close, .keepAlive]).take 18) := by
    rw [hcut]
    exact .read (by decide) (.read (by decide) (.read (by decide) .done))
  have hfails : framesBy 18 [Message.queryInfo, .close, .keepAlive] <
      ([none, none, none, none] : List (Option NetError)).length := by
    decide
  exact serve_stream (fun _ => "") hmsgs 18 (r := ⟨_, []⟩) h (.new "laptop" ⟨1920, 1080⟩) hfails

end SelfKvm
