/-
  Starting and stopping from the GUI (`src-tauri/src/lib.rs`).

  Every command runs on its own.  It takes the lock of the state for a moment, lets it go, waits for
  a socket, takes it again; the runtimes it spawns are polled on other threads all the while, and
  aborting one only says that it is not polled again.  Here every such moment is a step
  (`App.step`), and the steps of all commands and runtimes are interleaved freely.

  This file holds the code, all that a step can do (`AppStep`), and what holds in every interleaving
  (`Sound`): who is registered, and which runtime is whose.
-/
import SelfKvm.App.Grid
import SelfKvm.Base.Mealy
import SelfKvm.Daemon.ClientRuntime

namespace SelfKvm

/-! ## The code -/

/-- What the frontend asks a server to be. -/
structure ServerSetup where
  bind : String
  port : UInt16
  localScreen : String
  screens : List ScreenDto
  tls : Bool

/-- What it asks a client to be. -/
structure ClientSetup where
  serverAddr : String
  name : String
  width : Int32
  height : Int32
  tls : Bool

/-- What a server is made from; its own screen is in the layout. -/
structure ServerConfig where
  bind : String
  port : UInt16
  localScreen : String
  layout : ScreenLayout
  tls : Bool

@[ext] structure SocketAddr where
  ip : String
  port : UInt16
  deriving DecidableEq, Repr

/-- What becomes of a command's bind: the address its socket listens on, if it gets one.  That is up
    to the system; it goes by the host, the port and the addresses the app listens on already. -/
abbrev Binder : Type := Nat → List SocketAddr → String → UInt16 → Option SocketAddr

/-- A server that has its socket. -/
structure ServerRuntime where
  config : ServerConfig
  localAddr : SocketAddr

/-- What the server is to run with, unless its own screen is missing; `display` is the size of this
    machine's display, if it can be told. -/
def ServerSetup.config (display : Option (Int32 × Int32)) (setup : ServerSetup) :
    Option ServerConfig :=
  let layout := buildLayout setup.screens
  if layout.contains setup.localScreen then
    let layout :=
      match display with
      | some (w, h) => layout.modify setup.localScreen fun node => { node with size := ⟨w, h⟩ }
      | none => layout
    some
      { bind := setup.bind, port := setup.port, localScreen := setup.localScreen, layout
        tls := setup.tls }
  else
    none

def ClientSetup.config (setup : ClientSetup) : ClientConfig :=
  { serverAddr := setup.serverAddr, name := setup.name
    screen := ⟨max setup.width 1, max setup.height 1⟩, tls := setup.tls }

/-- The commands of the frontend that change the state. -/
inductive Command where
  | startServer (setup : ServerSetup)
  | startClient (setup : ClientSetup)
  | stop

/-- What the app is doing, where it says so. -/
inductive Role where
  | server
  | client
  deriving DecidableEq, Repr

/-- What a runtime is to run. -/
inductive Job where
  | server (runtime : ServerRuntime)
  | client (config : ClientConfig)

def Job.role : Job → Role
  | .server _ => .server
  | .client _ => .client

/-- How far a command has got; the first three are `stop_inner`. -/
inductive AppCall where
  | idle
  | halting (cmd : Command)
  | unplugging (cmd : Command)
  | releasing (cmd : Command)
  | binding (config : ServerConfig)
  | capturing (runtime : ServerRuntime)
  | plugging (runtime : ServerRuntime)
  | spawning (job : Job)
  | registering (job : Job)
  | returned (ok : Bool)

/-- A runtime that was spawned. -/
structure AppTask where
  job : Job
  begun : Bool
  /-- A thread is at it just now. -/
  polling : Bool
  aborted : Bool
  finished : Bool

def AppTask.new (job : Job) : AppTask :=
  { job, begun := false, polling := false, aborted := false, finished := false }

/-- The state behind the lock, and all that was started from it. -/
structure App where
  /-- The registered runtime; a command and the runtime it spawns have the same number. -/
  task : Option Nat
  captureStarted : Bool
  mode : Option Role
  /-- The runtime that gets the captured input. -/
  sink : Option Nat
  grab : Bool
  calls : Nat → AppCall
  tasks : Nat → Option AppTask
  /-- The sockets that listen, each with the number of the command that bound it. -/
  listening : List (Nat × SocketAddr)

/-- What may happen next. -/
inductive AppMove where
  | invoke (id : Nat) (cmd : Command)
  /-- A command takes its next step; `ok` is whether the capture can be started. -/
  | proceed (id : Nat) (ok : Bool)
  /-- A runtime is polled for the first time; `ok` is whether the certificate of a server that is to
      use TLS can be made. -/
  | begin (id : Nat) (ok : Bool)
  | poll (id : Nat)
  /-- While it is polled, a server switches the grab. -/
  | grab (id : Nat) (on : Bool)
  /-- It is polled no longer; a client may be done. -/
  | rest (id : Nat) (done : Bool)

/-- What the world sees of a step. -/
inductive AppSeen where
  | captureStarted
  | listens (id : Nat) (addr : SocketAddr)

namespace App

def new : App :=
  { task := none, captureStarted := false, mode := none, sink := none, grab := false
    calls := fun _ => .idle, tasks := fun _ => none, listening := [] }

def setCall (s : App) (id : Nat) (call : AppCall) : App :=
  { s with calls := Function.update s.calls id call }

def setTask (s : App) (id : Nat) (t : AppTask) : App :=
  { s with tasks := Function.update s.tasks id (some t) }

/-- A socket goes with its owner. -/
def drop (s : App) (id : Nat) : App :=
  { s with listening := s.listening.filter fun l => l.1 ≠ id }

/-- Abort a runtime: it is not polled again, and one that has not begun is dropped with what it
    owns. -/
def abort (s : App) (id : Nat) : App :=
  match s.tasks id with
  | some t =>
    let s := s.setTask id { t with aborted := true }
    if t.begun then s else s.drop id
  | none => s

variable (display : Option (Int32 × Int32)) (bind : Binder)

/-- A command takes its next step. -/
def proceed (s : App) (id : Nat) (ok : Bool) : App × List AppSeen :=
  match s.calls id with
  | .halting cmd =>
    let s := match s.task with
      | some t => s.abort t
      | none => s
    ({ s with task := none, mode := none }.setCall id (.unplugging cmd), [])
  | .unplugging cmd => ({ s with sink := none }.setCall id (.releasing cmd), [])
  | .releasing cmd =>
    let s := { s with grab := false }
    match cmd with
    | .stop => (s.setCall id (.returned true), [])
    | .startClient setup => (s.setCall id (.spawning (.client setup.config)), [])
    | .startServer setup =>
      match setup.config display with
      | some config => (s.setCall id (.binding config), [])
      | none => (s.setCall id (.returned false), [])
  | .binding config =>
    match bind id (s.listening.map Prod.snd) config.bind config.port with
    | some addr =>
      ({ s with listening := (id, addr) :: s.listening }.setCall id (.capturing ⟨config, addr⟩),
        [.listens id addr])
    | none => (s.setCall id (.returned false), [])
  | .capturing runtime =>
    if s.captureStarted then
      (s.setCall id (.plugging runtime), [])
    else if ok then
      ({ s with captureStarted := true }.setCall id (.plugging runtime), [.captureStarted])
    else
      ((s.drop id).setCall id (.returned false), [])
  | .plugging runtime => ({ s with sink := some id }.setCall id (.spawning (.server runtime)), [])
  | .spawning job => ((s.setTask id (.new job)).setCall id (.registering job), [])
  | .registering job =>
    -- a handle that stood here is dropped, and its runtime runs on
    ({ s with task := some id, mode := some job.role }.setCall id (.returned true), [])
  | .idle => (s, [])
  | .returned _ => (s, [])

/-- One step of a command or of a runtime. -/
def step (s : App) : AppMove → App × List AppSeen
  | .invoke id cmd =>
    match s.calls id with
    | .idle => (s.setCall id (.halting cmd), [])
    | _ => (s, [])
  | .proceed id ok => s.proceed display bind id ok
  | .begin id ok =>
    match s.tasks id with
    | some t =>
      if t.begun || t.aborted || t.finished then
        (s, [])
      else
        match t.job with
        | .client _ => (s.setTask id { t with begun := true, polling := true }, [])
        | .server runtime =>
          if runtime.config.tls && !ok then
            ((s.setTask id { t with finished := true }).drop id, [])
          else
            -- the accept loop owns the socket from now on
            (s.setTask id { t with begun := true, polling := true }, [])
    | none => (s, [])
  | .poll id =>
    match s.tasks id with
    | some t =>
      if t.begun && !t.aborted && !t.finished then
        (s.setTask id { t with polling := true }, [])
      else
        (s, [])
    | none => (s, [])
  | .grab id on =>
    match s.tasks id with
    | some t => (if t.polling && t.job.role = .server then { s with grab := on } else s, [])
    | none => (s, [])
  | .rest id done =>
    match s.tasks id with
    | some t =>
      if t.polling then
        let finished := t.finished || (done && t.job.role = .client)
        (s.setTask id { t with polling := false, finished }, [])
      else
        (s, [])
    | none => (s, [])

end App

/-! ## What a step can do -/

/-- The command is under way. -/
def AppCall.busy : AppCall → Bool
  | .idle => false
  | .returned _ => false
  | _ => true

/-- It is a runtime that moves. -/
def AppMove.runs : AppMove → Bool
  | .begin _ _ => true
  | .poll _ => true
  | .grab _ _ => true
  | .rest _ _ => true
  | _ => false

/-- A runtime that is polled changes these ways. -/
structure AppTask.Polled (t t' : AppTask) : Prop where
  job : t'.job = t.job
  aborted : t'.aborted = t.aborted
  begun : t.begun = true → t'.begun = true
  polling : t'.polling = true → t'.begun = true
  finished : t.finished = true → t'.finished = true
  server : t.job.role = .server → t'.finished = t.finished
  /-- Only a runtime that nobody has aborted begins. -/
  fresh : t.begun = false → t'.begun = true → t.aborted = false ∧ t.finished = false

namespace App

/-- What a command does once it has let go of the grab. -/
inductive Resumes (display : Option (Int32 × Int32)) : Command → AppCall → Prop
  | stopped : Resumes display .stop (.returned true)
  | client (setup : ClientSetup) :
      Resumes display (.startClient setup) (.spawning (.client setup.config))
  | server {setup : ServerSetup} {config : ServerConfig} (h : setup.config display = some config) :
      Resumes display (.startServer setup) (.binding config)
  | refused {setup : ServerSetup} (h : setup.config display = none) :
      Resumes display (.startServer setup) (.returned false)

/-- A step does one of these. -/
inductive AppStep (display : Option (Int32 × Int32)) (bind : Binder) (s : App) :
    AppMove → App → List AppSeen → Prop
  | same {move : AppMove}
      (h : ∀ id ok, move = .proceed id ok → (s.calls id).busy = false) : AppStep display bind s move s []
  | invoke {id : Nat} (cmd : Command) (h : s.calls id = .idle) :
      AppStep display bind s (.invoke id cmd) (s.setCall id (.halting cmd)) []
  | haltNone {id : Nat} {cmd : Command} (ok : Bool) (h : s.calls id = .halting cmd)
      (htask : s.task = none) :
      AppStep display bind s (.proceed id ok)
        ({ s with task := none, mode := none }.setCall id (.unplugging cmd)) []
  | halt {id t : Nat} {cmd : Command} (ok : Bool) (h : s.calls id = .halting cmd)
      (htask : s.task = some t) :
      AppStep display bind s (.proceed id ok)
        ({ s.abort t with task := none, mode := none }.setCall id (.unplugging cmd)) []
  | unplug {id : Nat} {cmd : Command} (ok : Bool) (h : s.calls id = .unplugging cmd) :
      AppStep display bind s (.proceed id ok) ({ s with sink := none }.setCall id (.releasing cmd)) []
  | release {id : Nat} {cmd : Command} {call : AppCall} (ok : Bool)
      (h : s.calls id = .releasing cmd) (hcall : Resumes display cmd call) :
      AppStep display bind s (.proceed id ok) ({ s with grab := false }.setCall id call) []
  | bind {id : Nat} {config : ServerConfig} {addr : SocketAddr} (ok : Bool)
      (h : s.calls id = .binding config)
      (hbind : bind id (s.listening.map Prod.snd) config.bind config.port = some addr) :
      AppStep display bind s (.proceed id ok)
        ({ s with listening := (id, addr) :: s.listening }.setCall id (.capturing ⟨config, addr⟩))
        [.listens id addr]
  | unbound {id : Nat} {config : ServerConfig} (ok : Bool) (h : s.calls id = .binding config) :
      AppStep display bind s (.proceed id ok) (s.setCall id (.returned false)) []
  | captured {id : Nat} {runtime : ServerRuntime} (ok : Bool)
      (h : s.calls id = .capturing runtime) (hstarted : s.captureStarted = true) :
      AppStep display bind s (.proceed id ok) (s.setCall id (.plugging runtime)) []
  | capture {id : Nat} {runtime : ServerRuntime} (ok : Bool)
      (h : s.calls id = .capturing runtime) (hstarted : s.captureStarted = false) :
      AppStep display bind s (.proceed id ok)
        ({ s with captureStarted := true }.setCall id (.plugging runtime)) [.captureStarted]
  | blind {id : Nat} {runtime : ServerRuntime} (ok : Bool) (h : s.calls id = .capturing runtime) :
      AppStep display bind s (.proceed id ok) ((s.drop id).setCall id (.returned false)) []
  | plug {id : Nat} {runtime : ServerRuntime} (ok : Bool) (h : s.calls id = .plugging runtime) :
      AppStep display bind s (.proceed id ok)
        ({ s with sink := some id }.setCall id (.spawning (.server runtime))) []
  | spawn {id : Nat} {job : Job} (ok : Bool) (h : s.calls id = .spawning job) :
      AppStep display bind s (.proceed id ok)
        ((s.setTask id (.new job)).setCall id (.registering job)) []
  | register {id : Nat} {job : Job} (ok : Bool) (h : s.calls id = .registering job) :
      AppStep display bind s (.proceed id ok)
        ({ s with task := some id, mode := some job.role }.setCall id (.returned true)) []
  | fail {id : Nat} {t : AppTask} (ok : Bool) (h : s.tasks id = some t) (hbegun : t.begun = false) :
      AppStep display bind s (.begin id ok) ((s.setTask id { t with finished := true }).drop id) []
  | polled {id : Nat} {t t' : AppTask} {move : AppMove} (h : s.tasks id = some t)
      (hpolled : t.Polled t') (hmove : move.runs = true) :
      AppStep display bind s move (s.setTask id t') []
  | grab {id : Nat} {t : AppTask} (on : Bool) (h : s.tasks id = some t)
      (hpolling : t.polling = true) (hserver : t.job.role = .server) :
      AppStep display bind s (.grab id on) { s with grab := on } []

variable {display : Option (Int32 × Int32)} {bind : Binder}

/-- What a command can do next, call by call. -/
theorem proceed_cases (s : App) (id : Nat) (ok : Bool) :
    AppStep display bind s (.proceed id ok) (s.proceed display bind id ok).1
      (s.proceed display bind id ok).2 := by
  unfold proceed
  cases hcall : s.calls id with
  | idle => exact .same fun _ _ h => by cases h; rw [hcall]; rfl
  | halting cmd =>
    dsimp only
    cases htask : s.task with
    | none => exact .haltNone ok hcall htask
    | some t => exact .halt ok hcall htask
  | unplugging cmd => exact .unplug ok hcall
  | releasing cmd =>
    cases cmd with
    | stop => exact .release ok hcall .stopped
    | startClient setup => exact .release ok hcall (.client setup)
    | startServer setup =>
      dsimp only
      cases hconfig : setup.config display with
      | none => exact .release ok hcall (.refused hconfig)
      | some config => exact .release ok hcall (.server hconfig)
  | binding config =>
    dsimp only
    cases hbind : bind id (s.listening.map Prod.snd) config.bind config.port with
    | none => exact .unbound ok hcall
    | some addr => exact .bind ok hcall hbind
  | capturing runtime =>
    dsimp only
    by_cases hstarted : s.captureStarted = true
    · rw [if_pos hstarted]
      exact .captured ok hcall hstarted
    · rw [if_neg hstarted]
      by_cases hok : ok = true
      · rw [if_pos hok]
        exact .capture ok hcall (Bool.not_eq_true _ ▸ hstarted)
      · rw [if_neg hok]
        exact .blind ok hcall
  | plugging runtime => exact .plug ok hcall
  | spawning job => exact .spawn ok hcall
  | registering job => exact .register ok hcall
  | returned ok' => exact .same fun _ _ h => by cases h; rw [hcall]; rfl

/-- **There are no other steps.** -/
theorem step_cases (s : App) (move : AppMove) :
    AppStep display bind s move (s.step display bind move).1 (s.step display bind move).2 := by
  cases move with
  | invoke id cmd =>
    simp only [step]
    cases hcall : s.calls id with
    | idle => exact .invoke cmd hcall
    | _ => exact .same fun _ _ h => by cases h
  | proceed id ok => exact proceed_cases s id ok
  | begin id ok =>
    simp only [step]
    cases h : s.tasks id with
    | none => exact .same fun _ _ h => by cases h
    | some t =>
      obtain ⟨job, begun, polling, aborted, finished⟩ := t
      dsimp only
      by_cases hfresh : (begun || aborted || finished) = true
      · rw [if_pos hfresh]
        exact .same fun _ _ h => by cases h
      · rw [if_neg hfresh]
        simp only [Bool.or_eq_true, not_or, Bool.not_eq_true] at hfresh
        cases job with
        | client config =>
          exact .polled h ⟨rfl, rfl, fun _ => rfl, fun _ => rfl, fun h => h, fun _ => rfl,
            fun _ _ => ⟨hfresh.1.2, hfresh.2⟩⟩ rfl
        | server runtime =>
          dsimp only
          by_cases htls : (runtime.config.tls && !ok) = true
          · rw [if_pos htls]
            exact .fail ok h hfresh.1.1
          · rw [if_neg htls]
            exact .polled h ⟨rfl, rfl, fun _ => rfl, fun _ => rfl, fun h => h, fun _ => rfl,
              fun _ _ => ⟨hfresh.1.2, hfresh.2⟩⟩ rfl
  | poll id =>
    simp only [step]
    cases h : s.tasks id with
    | none => exact .same fun _ _ h => by cases h
    | some t =>
      dsimp only
      by_cases hready : (t.begun && !t.aborted && !t.finished) = true
      · rw [if_pos hready]
        simp only [Bool.and_eq_true] at hready
        refine .polled h
          ⟨rfl, rfl, fun h => h, fun _ => hready.1.1, fun h => h, fun _ => rfl, ?_⟩ rfl
        exact fun hno hyes => absurd (hno.symm.trans hyes) Bool.false_ne_true
      · rw [if_neg hready]
        exact .same fun _ _ h => by cases h
  | grab id on =>
    simp only [step]
    cases h : s.tasks id with
    | none => exact .same fun _ _ h => by cases h
    | some t =>
      dsimp only
      by_cases hready : (t.polling && t.job.role = .server) = true
      · rw [if_pos hready]
        simp only [Bool.and_eq_true, decide_eq_true_eq] at hready
        exact .grab on h hready.1 hready.2
      · rw [if_neg hready]
        exact .same fun _ _ h => by cases h
  | rest id done =>
    simp only [step]
    cases h : s.tasks id with
    | none => exact .same fun _ _ h => by cases h
    | some t =>
      dsimp only
      by_cases hpolling : t.polling = true
      · rw [if_pos hpolling]
        refine .polled h ⟨rfl, rfl, fun h => h, fun h => (by cases h), ?_, ?_,
          fun hno hyes => absurd (hno.symm.trans hyes) Bool.false_ne_true⟩ rfl
        · intro hfinished
          simp [hfinished]
        · intro hserver
          simp [hserver]
      · rw [if_neg hpolling]
        exact .same fun _ _ h => by cases h

end App

/-! ## What always holds -/

/-- The command has not spawned its runtime. -/
def AppCall.early : AppCall → Bool
  | .registering _ => false
  | .returned true => false
  | _ => true

namespace App

variable {display : Option (Int32 × Int32)} {bind : Binder} {s s' : App} {id : Nat}
  {move : AppMove}

@[simp] theorem setCall_task (s : App) (id : Nat) (call : AppCall) :
    (s.setCall id call).task = s.task := rfl

/-- Moving a command on moves that one only. -/
theorem setCall_calls (s : App) (id : Nat) (call : AppCall) (j : Nat) :
    (s.setCall id call).calls j = if j = id then call else s.calls j := by
  show Function.update s.calls id call j = _
  rw [Function.update_apply]

/-- Changing a runtime changes that one only. -/
theorem setTask_tasks (s : App) (id : Nat) (t : AppTask) (j : Nat) :
    (s.setTask id t).tasks j = if j = id then some t else s.tasks j := by
  show Function.update s.tasks id (some t) j = _
  rw [Function.update_apply]

/-- Aborting changes one runtime, and its socket. -/
theorem abort_tasks (s : App) (id j : Nat) :
    (s.abort id).tasks j =
      if j = id then (s.tasks id).map fun t => { t with aborted := true } else s.tasks j := by
  unfold abort
  cases h : s.tasks id with
  | none =>
    by_cases hj : j = id
    · rw [if_pos hj, hj]
      exact h
    · rw [if_neg hj]
  | some t =>
    dsimp only
    have hset : ∀ s' : App, s'.tasks = (s.setTask id { t with aborted := true }).tasks →
        s'.tasks j = if j = id then (some t).map fun t => { t with aborted := true } else
          s.tasks j := by
      intro s' hs'
      rw [hs', setTask_tasks]
      rfl
    split
    · exact hset _ rfl
    · exact hset _ rfl

/-- It changes nothing else. -/
theorem abort_same (s : App) (id : Nat) :
    (s.abort id).calls = s.calls ∧ (s.abort id).sink = s.sink ∧ (s.abort id).grab = s.grab := by
  unfold abort
  split
  · split
    · exact ⟨rfl, rfl, rfl⟩
    · exact ⟨rfl, rfl, rfl⟩
  · exact ⟨rfl, rfl, rfl⟩

/-- The state and the commands agree on what was spawned and what is registered. -/
structure Sound (s : App) : Prop where
  registered : ∀ id, s.task = some id → ∃ t, s.tasks id = some t ∧ t.aborted = false ∧
    s.calls id = .returned true ∧ s.mode = some t.job.role
  unmoded : s.task = none → s.mode = none
  spawned : ∀ id t, s.tasks id = some t →
    s.calls id = .registering t.job ∨ s.calls id = .returned true
  pending : ∀ id job, s.calls id = .registering job →
    ∃ t, s.tasks id = some t ∧ t.job = job ∧ t.aborted = false
  polling : ∀ id t, s.tasks id = some t → t.polling = true → t.begun = true

/-- At first there is nothing to agree on. -/
theorem sound_new : Sound new where
  registered := fun _ h => by cases h
  unmoded := fun _ => rfl
  spawned := fun _ _ h => by cases h
  pending := fun _ _ h => by cases h
  polling := fun _ _ h => by cases h

/-- A command that has not come to spawning has no runtime. -/
theorem Sound.early (hs : Sound s) (h : (s.calls id).early = true) : s.tasks id = none := by
  cases htask : s.tasks id with
  | none => rfl
  | some t =>
    rcases hs.spawned id t htask with hcall | hcall
    · rw [hcall] at h
      cases h
    · rw [hcall] at h
      cases h

/-- What a step is to the runtimes: it leaves them alone, or it is a command on its way, or it
    aborts, spawns or registers one, or one of them runs. -/
inductive RunStep (s s' : App) : AppMove → Prop
  | still {move : AppMove}
      (hidle : ∀ id ok, move = .proceed id ok → (s.calls id).busy = false)
      (hcalls : s'.calls = s.calls) (htasks : s'.tasks = s.tasks) (htask : s'.task = s.task)
      (hmode : s'.mode = s.mode) : RunStep s s' move
  | goes {move : AppMove} {id : Nat} {call : AppCall} (hearly : (s.calls id).early = true)
      (hcall : ∀ job, call ≠ .registering job) (hmove : ∀ j ok, move = .proceed j ok → j = id)
      (hcalls : ∀ j, s'.calls j = if j = id then call else s.calls j)
      (htasks : s'.tasks = s.tasks) (htask : s'.task = s.task) (hmode : s'.mode = s.mode) :
      RunStep s s' move
  | halts {id t : Nat} {cmd : Command} {ok : Bool} (h : s.calls id = .halting cmd)
      (hregistered : s.task = some t)
      (hcalls : ∀ j, s'.calls j = if j = id then .unplugging cmd else s.calls j)
      (htasks : ∀ j, s'.tasks j =
        if j = t then (s.tasks t).map fun t => { t with aborted := true } else s.tasks j)
      (htask : s'.task = none) (hmode : s'.mode = none) : RunStep s s' (.proceed id ok)
  | spawns {id : Nat} {job : Job} {ok : Bool} (h : s.calls id = .spawning job)
      (hcalls : ∀ j, s'.calls j = if j = id then .registering job else s.calls j)
      (htasks : ∀ j, s'.tasks j = if j = id then some (.new job) else s.tasks j)
      (htask : s'.task = s.task) (hmode : s'.mode = s.mode) : RunStep s s' (.proceed id ok)
  | registers {id : Nat} {job : Job} {ok : Bool} (h : s.calls id = .registering job)
      (hcalls : ∀ j, s'.calls j = if j = id then .returned true else s.calls j)
      (htasks : s'.tasks = s.tasks) (htask : s'.task = some id) (hmode : s'.mode = some job.role) :
      RunStep s s' (.proceed id ok)
  | runs {move : AppMove} {id : Nat} {t u : AppTask} (h : s.tasks id = some t)
      (hjob : u.job = t.job) (haborted : u.aborted = t.aborted)
      (hbegun : t.begun = true → u.begun = true)
      (hfinished : t.finished = true → u.finished = true)
      (hpolling : (t.polling = true → t.begun = true) → u.polling = true → u.begun = true)
      (hmove : move.runs = true) (hcalls : s'.calls = s.calls)
      (htasks : ∀ j, s'.tasks j = if j = id then some u else s.tasks j)
      (htask : s'.task = s.task) (hmode : s'.mode = s.mode) : RunStep s s' move

/-- **What a step is to the runtimes**, be it whose it is. -/
theorem AppStep.runStep {outs : List AppSeen} (hs : Sound s)
    (h : AppStep display bind s move s' outs) : RunStep s s' move := by
  have hearly : ∀ {id call}, s.calls id = call → call.early = true →
      (s.calls id).early = true := fun h hcall => h ▸ hcall
  have hself : ∀ {id j : Nat} {ok ok' : Bool}, AppMove.proceed id ok = .proceed j ok' → j = id :=
    fun h => by
      cases h
      rfl
  cases h with
  | same hidle => exact .still hidle rfl rfl rfl rfl
  | @invoke id cmd h =>
    exact .goes (hearly h rfl) (fun _ h => by cases h) (fun _ _ h => by cases h)
      (setCall_calls s id _) rfl rfl rfl
  | @haltNone id cmd ok h htask =>
    exact .goes (hearly h rfl) (fun _ h => by cases h) (fun _ _ => hself) (setCall_calls _ id _) rfl
      htask.symm (hs.unmoded htask).symm
  | @halt id t cmd ok h htask =>
    refine .halts h htask (fun j => ?_) (abort_tasks s t) rfl rfl
    rw [setCall_calls, ← (abort_same s t).1]
  | @release id cmd call ok h hcall =>
    refine .goes (hearly h rfl) ?_ (fun _ _ => hself) (setCall_calls _ id _) rfl rfl rfl
    cases hcall <;> exact fun _ h => by cases h
  | @unplug id _ ok h | @bind id _ _ ok h | @unbound id _ ok h | @captured id _ ok h
  | @capture id _ ok h | @blind id _ ok h | @plug id _ ok h =>
    exact .goes (hearly h rfl) (fun _ h => by cases h) (fun _ _ => hself) (setCall_calls _ id _) rfl
      rfl rfl
  | @spawn id job ok h => exact .spawns h (setCall_calls _ id _) (setTask_tasks s id _) rfl rfl
  | @register id job ok h => exact .registers h (setCall_calls _ id _) rfl rfl rfl
  | @fail id t ok h =>
    exact .runs (u := { t with finished := true }) h rfl rfl (fun h => h) (fun _ => rfl)
      (fun h => h) rfl rfl (setTask_tasks s id _) rfl rfl
  | @polled id t t' _ h hpolled hmove =>
    exact .runs h hpolled.job hpolled.aborted hpolled.begun hpolled.finished
      (fun _ => hpolled.polling) hmove rfl (setTask_tasks s id t') rfl rfl
  | grab on h =>
    exact .still (fun _ _ h => by cases h) rfl rfl rfl rfl

/-- A command that is to abort, or to register a runtime, is not the one of a runtime that is
    registered. -/
theorem Sound.registered_ne {t : Nat} (hs : Sound s) (htask : s.task = some t) {call : AppCall}
    (h : s.calls id = call) (hcall : call ≠ .returned true) : id ≠ t := by
  obtain ⟨-, -, -, hreturned, -⟩ := hs.registered t htask
  rintro rfl
  exact hcall (h.symm.trans hreturned)

/-- A command on its way touches no runtime: it has none yet. -/
theorem Sound.goes {call : AppCall} (hs : Sound s) (hearly : (s.calls id).early = true)
    (hcall : ∀ job, call ≠ .registering job)
    (hcalls : ∀ j, s'.calls j = if j = id then call else s.calls j) (htasks : s'.tasks = s.tasks)
    (htask : s'.task = s.task) (hmode : s'.mode = s.mode) : Sound s' := by
  have hnone := hs.early hearly
  -- whoever has a runtime is another command
  have hother : ∀ j t, s.tasks j = some t → s'.calls j = s.calls j := by
    intro j t hj
    rw [hcalls, if_neg]
    rintro rfl
    rw [hnone] at hj
    cases hj
  constructor
  · intro j hj
    obtain ⟨t, ht, haborted, hreturned, hm⟩ := hs.registered j (htask ▸ hj)
    exact ⟨t, htasks ▸ ht, haborted, (hother j t ht).trans hreturned, hmode ▸ hm⟩
  · intro hnotask
    rw [hmode]
    exact hs.unmoded (htask ▸ hnotask)
  · intro j t hj
    rw [htasks] at hj
    rw [hother j t hj]
    exact hs.spawned j t hj
  · intro j job hj
    rw [hcalls] at hj
    rw [htasks]
    by_cases hid : j = id
    · rw [if_pos hid] at hj
      exact absurd hj (hcall job)
    · rw [if_neg hid] at hj
      exact hs.pending j job hj
  · intro j t hj
    rw [htasks] at hj
    exact hs.polling j t hj

/-- The registered runtime is aborted and unregistered at once, so that nothing registered is ever
    aborted. -/
theorem Sound.halts {t : Nat} {cmd : Command} (hs : Sound s) (h : s.calls id = .halting cmd)
    (hregistered : s.task = some t)
    (hcalls : ∀ j, s'.calls j = if j = id then .unplugging cmd else s.calls j)
    (htasks : ∀ j, s'.tasks j =
      if j = t then (s.tasks t).map fun t => { t with aborted := true } else s.tasks j)
    (htask : s'.task = none) (hmode : s'.mode = none) : Sound s' := by
  obtain ⟨u, hu, -, hreturned, -⟩ := hs.registered t hregistered
  -- but for the mark of the abort, every runtime is as it was
  have hback : ∀ j v', s'.tasks j = some v' → ∃ v, s.tasks j = some v ∧ v'.job = v.job ∧
      v'.polling = v.polling ∧ v'.begun = v.begun := by
    intro j v' hj
    rw [htasks] at hj
    by_cases hjt : j = t
    · rw [if_pos hjt, hu, Option.map_some] at hj
      injection hj with hj
      exact ⟨u, hjt ▸ hu, by rw [← hj], by rw [← hj], by rw [← hj]⟩
    · rw [if_neg hjt] at hj
      exact ⟨v', hj, rfl, rfl, rfl⟩
  constructor
  · intro j hj
    rw [htask] at hj
    cases hj
  · exact fun _ => hmode
  · intro j v' hj
    obtain ⟨v, hv, hjob, -⟩ := hback j v' hj
    rw [hcalls, if_neg, hjob]
    · exact hs.spawned j v hv
    · rintro rfl
      rcases hs.spawned j v hv with hc | hc
      · cases h.symm.trans hc
      · cases h.symm.trans hc
  · intro j job hj
    rw [hcalls] at hj
    by_cases hjid : j = id
    · rw [if_pos hjid] at hj
      cases hj
    · rw [if_neg hjid] at hj
      obtain ⟨v, hv, hvjob, hva⟩ := hs.pending j job hj
      have hjt := hs.registered_ne hregistered hj fun h => by cases h
      exact ⟨v, by rw [htasks, if_neg hjt, hv], hvjob, hva⟩
  · intro j v' hj
    obtain ⟨v, hv, -, hpolling, hbegun⟩ := hback j v' hj
    rw [hpolling, hbegun]
    exact hs.polling j v hv

/-- A runtime is spawned by the command of its number, which has had none before. -/
theorem Sound.spawns {job : Job} (hs : Sound s) (h : s.calls id = .spawning job)
    (hcalls : ∀ j, s'.calls j = if j = id then .registering job else s.calls j)
    (htasks : ∀ j, s'.tasks j = if j = id then some (.new job) else s.tasks j)
    (htask : s'.task = s.task) (hmode : s'.mode = s.mode) : Sound s' := by
  have hnone := @Sound.early s id hs (h ▸ rfl)
  -- the runtimes that were there are others
  have hne : ∀ j t, s.tasks j = some t → j ≠ id := by
    rintro j t hj rfl
    rw [hnone] at hj
    cases hj
  constructor
  · intro j hj
    obtain ⟨t, ht, haborted, hreturned, hm⟩ := hs.registered j (htask ▸ hj)
    have hid := hne j t ht
    exact ⟨t, by rw [htasks, if_neg hid, ht], haborted, by rw [hcalls, if_neg hid, hreturned],
      hmode ▸ hm⟩
  · intro hnotask
    rw [hmode]
    exact hs.unmoded (htask ▸ hnotask)
  · intro j t hj
    rw [htasks] at hj
    rw [hcalls]
    by_cases hid : j = id
    · rw [if_pos hid] at hj ⊢
      injection hj with hj
      rw [← hj]
      exact .inl rfl
    · rw [if_neg hid] at hj ⊢
      exact hs.spawned j t hj
  · intro j job' hj
    rw [hcalls] at hj
    rw [htasks]
    by_cases hid : j = id
    · rw [if_pos hid] at hj ⊢
      injection hj with hj
      exact ⟨_, rfl, hj, rfl⟩
    · rw [if_neg hid] at hj ⊢
      exact hs.pending j job' hj
  · intro j t hj
    rw [htasks] at hj
    by_cases hid : j = id
    · rw [if_pos hid] at hj
      injection hj with hj
      rw [← hj]
      exact fun h => by cases h
    · rw [if_neg hid] at hj
      exact hs.polling j t hj

/-- What is registered is what the command has spawned; nobody could abort it in between. -/
theorem Sound.registers {job : Job} (hs : Sound s) (h : s.calls id = .registering job)
    (hcalls : ∀ j, s'.calls j = if j = id then .returned true else s.calls j)
    (htasks : s'.tasks = s.tasks) (htask : s'.task = some id) (hmode : s'.mode = some job.role) :
    Sound s' := by
  obtain ⟨t, ht, hjob, haborted⟩ := hs.pending id job h
  constructor
  · intro j hj
    obtain rfl : id = j := Option.some.inj (htask.symm.trans hj)
    exact ⟨t, htasks ▸ ht, haborted, by rw [hcalls, if_pos rfl], by rw [hmode, hjob]⟩
  · intro hnotask
    rw [htask] at hnotask
    cases hnotask
  · intro j u hj
    rw [htasks] at hj
    rw [hcalls]
    by_cases hid : j = id
    · rw [if_pos hid]
      exact .inr rfl
    · rw [if_neg hid]
      exact hs.spawned j u hj
  · intro j job' hj
    rw [hcalls] at hj
    rw [htasks]
    by_cases hid : j = id
    · rw [if_pos hid] at hj
      cases hj
    · rw [if_neg hid] at hj
      exact hs.pending j job' hj
  · rw [htasks]
    exact hs.polling

/-- A runtime that runs keeps its job, and does not abort itself. -/
theorem Sound.runs {t u : AppTask} (hs : Sound s) (h : s.tasks id = some t)
    (hjob : u.job = t.job) (haborted : u.aborted = t.aborted)
    (hpolling : u.polling = true → u.begun = true) (hcalls : s'.calls = s.calls)
    (htasks : ∀ j, s'.tasks j = if j = id then some u else s.tasks j)
    (htask : s'.task = s.task) (hmode : s'.mode = s.mode) : Sound s' := by
  have hfind : ∀ j v, s.tasks j = some v →
      ∃ v', s'.tasks j = some v' ∧ v'.job = v.job ∧ v'.aborted = v.aborted := by
    intro j v hj
    by_cases hid : j = id
    · subst hid
      obtain rfl : t = v := Option.some.inj (h.symm.trans hj)
      exact ⟨u, by rw [htasks, if_pos rfl], hjob, haborted⟩
    · exact ⟨v, by rw [htasks, if_neg hid, hj], rfl, rfl⟩
  have hback : ∀ j v', s'.tasks j = some v' → ∃ v, s.tasks j = some v ∧ v'.job = v.job := by
    intro j v' hj
    rw [htasks] at hj
    by_cases hid : j = id
    · subst hid
      rw [if_pos rfl] at hj
      injection hj with hj
      exact ⟨t, h, by rw [← hj, hjob]⟩
    · rw [if_neg hid] at hj
      exact ⟨v', hj, rfl⟩
  constructor
  · intro j hj
    obtain ⟨v, hv, hva, hreturned, hm⟩ := hs.registered j (htask ▸ hj)
    obtain ⟨v', hv', hvjob, hva'⟩ := hfind j v hv
    exact ⟨v', hv', hva'.trans hva, hcalls ▸ hreturned, by rw [hmode, hm, hvjob]⟩
  · intro hnotask
    rw [hmode]
    exact hs.unmoded (htask ▸ hnotask)
  · intro j v' hj
    obtain ⟨v, hv, hvjob⟩ := hback j v' hj
    rw [hcalls, hvjob]
    exact hs.spawned j v hv
  · intro j job hj
    rw [hcalls] at hj
    obtain ⟨v, hv, hvjob, hva⟩ := hs.pending j job hj
    obtain ⟨v', hv', hvjob', hva'⟩ := hfind j v hv
    exact ⟨v', hv', hvjob'.trans hvjob, hva'.trans hva⟩
  · intro j v' hj
    rw [htasks] at hj
    by_cases hid : j = id
    · rw [if_pos hid] at hj
      injection hj with hj
      exact hj ▸ hpolling
    · rw [if_neg hid] at hj
      exact hs.polling j v' hj

/-- **One step** keeps the state and the commands in agreement. -/
theorem Sound.step (hs : Sound s) (h : RunStep s s' move) : Sound s' := by
  cases h with
  | still _ hcalls htasks htask hmode =>
    obtain ⟨h₁, h₂, h₃, h₄, h₅⟩ := hs
    constructor
    · rwa [hcalls, htasks, htask, hmode]
    · rwa [htask, hmode]
    · rwa [hcalls, htasks]
    · rwa [hcalls, htasks]
    · rwa [htasks]
  | goes hearly hcall _ hcalls htasks htask hmode =>
    exact hs.goes hearly hcall hcalls htasks htask hmode
  | halts h hregistered hcalls htasks htask hmode =>
    exact hs.halts h hregistered hcalls htasks htask hmode
  | spawns h hcalls htasks htask hmode => exact hs.spawns h hcalls htasks htask hmode
  | registers h hcalls htasks htask hmode => exact hs.registers h hcalls htasks htask hmode
  | runs h hjob haborted _ _ hpolling _ hcalls htasks htask hmode =>
    exact hs.runs h hjob haborted (hpolling (hs.polling _ _ h)) hcalls htasks htask hmode

/-- **In every interleaving they agree.** -/
theorem run_sound (display : Option (Int32 × Int32)) (bind : Binder) (moves : List AppMove) :
    Sound (Mealy.run (step display bind) new moves).1 := by
  refine Mealy.run_induction (P := fun _ s _ => Sound s) (step display bind) sound_new ?_ moves
  intro _ s _ move hs
  exact hs.step (AppStep.runStep hs (step_cases s move))

/-- The next step of a run. -/
theorem run_runStep (display : Option (Int32 × Int32)) (bind : Binder) (moves : List AppMove)
    (move : AppMove) :
    RunStep (Mealy.run (step display bind) new moves).1
      (step display bind (Mealy.run (step display bind) new moves).1 move).1 move :=
  AppStep.runStep (run_sound display bind moves) (step_cases _ move)

end App

end SelfKvm
