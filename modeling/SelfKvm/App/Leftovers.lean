/-
  What a server leaves behind (`src-tauri/src/lib.rs`, `start_server`, `stop_inner`).

  Stopping a server aborts its task.  That ends neither the grab that the task may still switch on in
  the poll it is in, nor its listening socket, which nobody closes.

  1. `grab_exactly`: the grab is on with nobody to end it exactly if a runtime switches it on after
     it was aborted.
  2. `restart_refused`: a server that has begun to run holds its address for good.  What a bind gives
     is up to the system; the theorem asks only for what it promises (`Binds`).
-/
import SelfKvm.App.Sessions

namespace SelfKvm.App

variable {display : Option (Int32 × Int32)} {bind : Binder} {s s' : App} {id : Nat}
  {move : AppMove}

/-! ## Who ends the grab -/

/-- Somebody is there to end the grab: a server that runs, or a command that is about to. -/
def Ending (s : App) : Prop :=
  (∃ id t, s.tasks id = some t ∧ t.job.role = .server ∧ t.begun = true ∧ t.aborted = false) ∨
  ∃ id cmd, s.calls id = .unplugging cmd ∨ s.calls id = .releasing cmd

/-- A step that leaves running servers and the commands that are about to end the grab alone. -/
theorem Ending.congr (he : Ending s)
    (htasks : ∀ id t, s.tasks id = some t → t.job.role = .server → t.begun = true →
      t.aborted = false → ∃ t', s'.tasks id = some t' ∧ t'.job = t.job ∧ t'.begun = true ∧
        t'.aborted = false)
    (hcalls : ∀ id cmd, s.calls id = .unplugging cmd ∨ s.calls id = .releasing cmd →
      s'.calls id = s.calls id) : Ending s' := by
  rcases he with ⟨id, t, ht, hserver, hbegun, haborted⟩ | ⟨id, cmd, hcall⟩
  · obtain ⟨t', ht', hjob, hbegun', haborted'⟩ := htasks id t ht hserver hbegun haborted
    exact .inl ⟨id, t', ht', hjob ▸ hserver, hbegun', haborted'⟩
  · refine .inr ⟨id, cmd, ?_⟩
    rwa [hcalls id cmd hcall]

/-- **Only a runtime that was aborted can leave the grab on.** -/
theorem Ending.step {outs : List AppSeen} (hs : Sound s) (h : AppStep display bind s move s' outs)
    (he : s.grab = true → Ending s)
    (hgrab : ∀ id t, move = .grab id true → s.tasks id = some t → t.polling = true →
      t.job.role = .server → t.aborted = true → Ending s) (hon : s'.grab = true) : Ending s' := by
  have hsame : ∀ id t, s.tasks id = some t → t.job.role = .server → t.begun = true →
      t.aborted = false → ∃ t', s.tasks id = some t' ∧ t'.job = t.job ∧ t'.begun = true ∧
        t'.aborted = false := fun _ t ht _ hbegun haborted => ⟨t, ht, rfl, hbegun, haborted⟩
  -- a command that is not about to end the grab goes on
  have hother : ∀ {id call call'}, s.calls id = call →
      (∀ cmd, call ≠ .unplugging cmd ∧ call ≠ .releasing cmd) →
      (∀ k, s'.calls k = if k = id then call' else s.calls k) →
      ∀ k cmd, s.calls k = .unplugging cmd ∨ s.calls k = .releasing cmd →
        s'.calls k = s.calls k := by
    rintro id _ call' rfl hne hcalls k cmd hk
    rw [hcalls, if_neg]
    rintro rfl
    exact hk.elim (hne cmd).1 (hne cmd).2
  cases h with
  | same => exact he hon
  | @invoke id cmd h =>
    exact (he hon).congr hsame (hother h (fun _ => ⟨fun h => (by cases h), fun h => by cases h⟩)
      (setCall_calls s id _))
  | @haltNone id cmd ok h =>
    exact .inr ⟨id, cmd, .inl (by rw [setCall_calls, if_pos rfl])⟩
  | @halt id t cmd ok h =>
    exact .inr ⟨id, cmd, .inl (by rw [setCall_calls, if_pos rfl])⟩
  | @unplug id cmd ok h =>
    exact .inr ⟨id, cmd, .inr (by rw [setCall_calls, if_pos rfl])⟩
  | release => cases hon
  | @bind id _ _ ok h | @unbound id _ ok h | @captured id _ ok h | @capture id _ ok h
  | @blind id _ ok h | @plug id _ ok h =>
    exact (he hon).congr hsame (hother h (fun _ => ⟨fun h => (by cases h), fun h => by cases h⟩)
      (setCall_calls _ id _))
  | @spawn id job ok h =>
    have hnone := @Sound.early s id hs (h ▸ rfl)
    refine (he hon).congr ?_ (hother h (fun _ => ⟨fun h => (by cases h), fun h => by cases h⟩)
      (setCall_calls _ id _))
    intro k t ht _ hbegun haborted
    refine ⟨t, ?_, rfl, hbegun, haborted⟩
    show (s.setTask id (.new job)).tasks k = some t
    rw [setTask_tasks, if_neg, ht]
    rintro rfl
    rw [hnone] at ht
    cases ht
  | @register id job ok h =>
    exact (he hon).congr hsame (hother h (fun _ => ⟨fun h => (by cases h), fun h => by cases h⟩)
      (setCall_calls _ id _))
  | @fail id t ok h hfresh =>
    refine (he hon).congr ?_ fun _ _ _ => rfl
    intro k u hu _ hbegun haborted
    refine ⟨u, ?_, rfl, hbegun, haborted⟩
    show (s.setTask id { t with finished := true }).tasks k = some u
    rw [setTask_tasks, if_neg, hu]
    rintro rfl
    obtain rfl : t = u := Option.some.inj (h.symm.trans hu)
    rw [hfresh] at hbegun
    cases hbegun
  | @polled id t t' _ h hpolled =>
    refine (he hon).congr ?_ fun _ _ _ => rfl
    intro k u hu _ hbegun haborted
    rw [setTask_tasks]
    by_cases hk : k = id
    · subst hk
      obtain rfl : t = u := Option.some.inj (h.symm.trans hu)
      exact ⟨t', if_pos rfl, hpolled.job, hpolled.begun hbegun, hpolled.aborted.trans haborted⟩
    · exact ⟨u, by rw [if_neg hk, hu], rfl, hbegun, haborted⟩
  | @grab id t on h hpolling hserver =>
    have hon' : on = true := hon
    subst hon'
    cases haborted : t.aborted with
    | false => exact .inl ⟨id, t, h, hserver, hs.polling id t h hpolling, haborted⟩
    | true => exact hgrab id t rfl h hpolling hserver haborted

/-- **Who ends the grab, exactly.**  However commands and runtimes are interleaved: whenever the
    grab is on, a server runs that was not aborted, or a command is about to end the grab, if and
    only if no server that was aborted while a thread was at it switches the grab on when that is
    not so. -/
theorem grab_exactly (display : Option (Int32 × Int32)) (bind : Binder) (moves : List AppMove) :
    (∀ js, js <+: moves → (Mealy.run (step display bind) new js).1.grab = true →
      Ending (Mealy.run (step display bind) new js).1) ↔
    Mealy.EveryStep (step display bind) new moves fun _ s move =>
      ∀ id t, move = .grab id true → s.tasks id = some t → t.polling = true →
        t.job.role = .server → t.aborted = true → Ending s := by
  constructor
  · rintro hall js move hpre id t rfl ht hpolling hserver haborted
    have hafter := hall (js ++ [.grab id true]) hpre
    rw [Mealy.run_concat] at hafter
    generalize (Mealy.run (step display bind) new js).1 = s at ht hafter ⊢
    have hstep : (s.step display bind (.grab id true)).1 = { s with grab := true } := by
      simp [step, ht, hpolling, hserver]
    rw [hstep] at hafter
    exact hafter rfl
  · intro hevery js hpre
    have hjs := hevery.of_prefix _ hpre
    clear hevery hpre
    induction js using List.reverseRecOn with
    | nil => exact fun h => by cases h
    | append_singleton js move ih =>
      obtain ⟨hbefore, hlast⟩ := (Mealy.everyStep_concat _).mp hjs
      rw [Mealy.run_concat]
      exact Ending.step (run_sound display bind js) (step_cases _ move) (ih hbefore) hlast

/-! ## An address is taken once -/

/-- What the network library and the system promise of a bind; `resolve` has all the addresses that
    a host may resolve to. -/
structure Binds (resolve : String → List String) (bind : Binder) : Prop where
  /-- The socket gets an address of the host, -/
  resolved : ∀ {id taken host port addr}, bind id taken host port = some addr →
    addr.ip ∈ resolve host
  /-- and the port asked for; for port 0 the system finds one. -/
  port : ∀ {id taken host port addr}, bind id taken host port = some addr → port ≠ 0 →
    addr.port = port
  /-- It is not listened on by another socket. -/
  free : ∀ {id taken host port addr}, bind id taken host port = some addr → addr ∉ taken

/-- The entry of a server's socket. -/
def entry (id : Nat) (runtime : ServerRuntime) : Nat × SocketAddr :=
  (id, runtime.localAddr)

/-- Whoever has a socket, or is about to hand one on, has it in the list. -/
structure Bound (s : App) : Prop where
  held : ∀ id t runtime, s.tasks id = some t → t.job = .server runtime →
    t.begun = true ∨ t.aborted = false ∧ t.finished = false → entry id runtime ∈ s.listening
  coming : ∀ id runtime,
    s.calls id = .capturing runtime ∨ s.calls id = .plugging runtime ∨
      s.calls id = .spawning (.server runtime) → entry id runtime ∈ s.listening

/-- At first there are no sockets. -/
theorem bound_new : Bound new where
  held := fun _ _ _ h => by cases h
  coming := by
    rintro id runtime (h | h | h) <;> cases h

/-- A socket is dropped with its owner only. -/
theorem mem_drop {e : Nat × SocketAddr} (h : e ∈ s.listening) (hne : e.1 ≠ id) :
    e ∈ (s.drop id).listening := by
  show e ∈ s.listening.filter _
  rw [List.mem_filter]
  exact ⟨h, by simpa using hne⟩

/-- Aborting takes away no socket but that of a runtime that has not begun. -/
theorem mem_abort {e : Nat × SocketAddr} (h : e ∈ s.listening)
    (hne : e.1 = id → ∃ t, s.tasks id = some t ∧ t.begun = true) :
    e ∈ (s.abort id).listening := by
  unfold abort
  cases ht : s.tasks id with
  | none => exact h
  | some t =>
    dsimp only
    by_cases hbegun : t.begun = true
    · rw [if_pos hbegun]
      exact h
    · rw [if_neg hbegun]
      refine mem_drop h ?_
      intro heq
      obtain ⟨u, hu, hubegun⟩ := hne heq
      obtain rfl : t = u := Option.some.inj (ht.symm.trans hu)
      exact hbegun hubegun

/-- A command goes on, and no socket is lost. -/
theorem Bound.goes {call : AppCall} (hb : Bound s)
    (hcalls : ∀ k, s'.calls k = if k = id then call else s.calls k) (htasks : s'.tasks = s.tasks)
    (hkept : ∀ e ∈ s.listening, e ∈ s'.listening)
    (hcoming : ∀ runtime, call = .capturing runtime ∨ call = .plugging runtime ∨
      call = .spawning (.server runtime) → entry id runtime ∈ s'.listening) : Bound s' := by
  constructor
  · intro k t runtime hk hjob hlive
    rw [htasks] at hk
    exact hkept _ (hb.held k t runtime hk hjob hlive)
  · intro k runtime hk
    rw [hcalls] at hk
    by_cases hid : k = id
    · rw [if_pos hid] at hk
      exact hid ▸ hcoming runtime hk
    · rw [if_neg hid] at hk
      exact hkept _ (hb.coming k runtime hk)

/-- **One step** keeps every socket with its owner. -/
theorem Bound.step {outs : List AppSeen} (hb : Bound s) (hs : Sound s)
    (h : AppStep display bind s move s' outs) : Bound s' := by
  have hkeep : ∀ e ∈ s.listening, e ∈ s.listening := fun _ h => h
  cases h with
  | same => exact hb
  | @invoke id cmd h =>
    exact hb.goes (setCall_calls s id _) rfl hkeep (by rintro runtime (h | h | h) <;> cases h)
  | @haltNone id cmd ok h =>
    exact hb.goes (setCall_calls _ id _) rfl hkeep (by rintro runtime (h | h | h) <;> cases h)
  | @halt id t cmd ok h htask =>
    obtain ⟨hcalls, -, -⟩ := abort_same s t
    obtain ⟨u, hu, -, hreturned, -⟩ := hs.registered t htask
    constructor
    · intro k v runtime hk hjob hlive
      have hk' : (s.abort t).tasks k = some v := hk
      show _ ∈ (s.abort t).listening
      rw [abort_tasks] at hk'
      by_cases hkt : k = t
      · rw [if_pos hkt, hu, Option.map_some] at hk'
        injection hk' with hk'
        subst hk'
        rcases hlive with hbegun | ⟨haborted, -⟩
        · refine mem_abort (hb.held k u runtime (hkt ▸ hu) hjob (.inl hbegun)) ?_
          exact fun _ => ⟨u, hu, hbegun⟩
        · cases haborted
      · rw [if_neg hkt] at hk'
        exact mem_abort (hb.held k v runtime hk' hjob hlive) fun heq => absurd heq hkt
    · intro k runtime hk
      show _ ∈ (s.abort t).listening
      rw [setCall_calls] at hk
      by_cases hid : k = id
      · rw [if_pos hid] at hk
        rcases hk with hk | hk | hk <;> cases hk
      · rw [if_neg hid] at hk
        have hk' : s.calls k = .capturing runtime ∨ s.calls k = .plugging runtime ∨
            s.calls k = .spawning (.server runtime) := hcalls ▸ hk
        refine mem_abort (hb.coming k runtime hk') fun heq => ?_
        have hkt : k = t := heq
        rw [hkt, hreturned] at hk'
        rcases hk' with hk' | hk' | hk' <;> cases hk'
  | @unplug id cmd ok h =>
    exact hb.goes (setCall_calls _ id _) rfl hkeep (by rintro runtime (h | h | h) <;> cases h)
  | @release id cmd call ok h hcall =>
    refine hb.goes (setCall_calls _ id _) rfl hkeep ?_
    cases hcall <;> rintro runtime (h | h | h) <;> cases h
  | @bind id _ addr ok h =>
    refine hb.goes (setCall_calls _ id _) rfl (fun e he => List.mem_cons_of_mem _ he) ?_
    rintro runtime' (h | h | h)
    · injection h with h
      subst h
      exact List.mem_cons_self
    · cases h
    · cases h
  | @unbound id runtime ok h =>
    exact hb.goes (setCall_calls _ id _) rfl hkeep (by rintro runtime (h | h | h) <;> cases h)
  | @captured id runtime ok h | @capture id runtime ok h =>
    refine hb.goes (setCall_calls _ id _) rfl hkeep ?_
    rintro runtime' (h' | h' | h')
    · cases h'
    · injection h' with h'
      subst h'
      exact hb.coming id runtime (.inl h)
    · cases h'
  | @blind id runtime ok h =>
    have hnone := @Sound.early s id hs (h ▸ rfl)
    constructor
    · intro k t runtime' hk hjob hlive
      refine mem_drop (hb.held k t runtime' hk hjob hlive) ?_
      rintro rfl
      cases hnone.symm.trans hk
    · intro k runtime' hk
      rw [setCall_calls] at hk
      by_cases hid : k = id
      · rw [if_pos hid] at hk
        rcases hk with hk | hk | hk <;> cases hk
      · rw [if_neg hid] at hk
        exact mem_drop (hb.coming k runtime' hk) hid
  | @plug id runtime ok h =>
    refine hb.goes (setCall_calls _ id _) rfl hkeep ?_
    rintro runtime' (h' | h' | h')
    · cases h'
    · cases h'
    · injection h' with h'
      injection h' with h'
      subst h'
      exact hb.coming id runtime (.inr (.inl h))
  | @spawn id job ok h =>
    constructor
    · intro k t runtime hk hjob hlive
      have hk' : (s.setTask id (.new job)).tasks k = some t := hk
      rw [setTask_tasks] at hk'
      by_cases hid : k = id
      · rw [if_pos hid] at hk'
        injection hk' with hk'
        subst hk'
        have hjob' : job = .server runtime := hjob
        exact hb.coming k runtime (.inr (.inr (by rw [hid, h, hjob'])))
      · rw [if_neg hid] at hk'
        exact hb.held k t runtime hk' hjob hlive
    · intro k runtime hk
      rw [setCall_calls] at hk
      by_cases hid : k = id
      · rw [if_pos hid] at hk
        rcases hk with hk | hk | hk <;> cases hk
      · rw [if_neg hid] at hk
        exact hb.coming k runtime hk
  | @register id job ok h =>
    exact hb.goes (setCall_calls _ id _) rfl hkeep (by rintro runtime (h | h | h) <;> cases h)
  | @fail id t ok h hfresh =>
    constructor
    · intro k u runtime hk hjob hlive
      have hk' : (s.setTask id { t with finished := true }).tasks k = some u := hk
      rw [setTask_tasks] at hk'
      by_cases hid : k = id
      · rw [if_pos hid] at hk'
        injection hk' with hk'
        subst hk'
        rcases hlive with hbegun | ⟨-, hfinished⟩
        · cases hfresh.symm.trans hbegun
        · cases hfinished
      · rw [if_neg hid] at hk'
        exact mem_drop (hb.held k u runtime hk' hjob hlive) hid
    · intro k runtime hk
      refine mem_drop (hb.coming k runtime hk) ?_
      rintro rfl
      have hk' : s.calls k = .capturing runtime ∨ s.calls k = .plugging runtime ∨
          s.calls k = .spawning (.server runtime) := hk
      rcases hs.spawned k t h with hcall | hcall
      · rw [hcall] at hk'
        rcases hk' with hk' | hk' | hk' <;> cases hk'
      · rw [hcall] at hk'
        rcases hk' with hk' | hk' | hk' <;> cases hk'
  | @polled id t t' _ h hpolled =>
    refine ⟨?_, hb.coming⟩
    intro k u runtime hk hjob hlive
    rw [setTask_tasks] at hk
    by_cases hid : k = id
    · rw [if_pos hid] at hk
      injection hk with hk
      subst hk
      refine hb.held k t runtime (hid ▸ h) (hpolled.job.symm.trans hjob) ?_
      cases hbegun : t.begun with
      | true => exact .inl rfl
      | false =>
        right
        rcases hlive with hbegun' | ⟨haborted, hfinished⟩
        · exact hpolled.fresh hbegun hbegun'
        · refine ⟨hpolled.aborted.symm.trans haborted, ?_⟩
          cases hf : t.finished with
          | false => rfl
          | true => exact (hpolled.finished hf).symm.trans hfinished
    · rw [if_neg hid] at hk
      exact hb.held k u runtime hk hjob hlive
  | grab => exact ⟨hb.held, hb.coming⟩

/-- In every interleaving. -/
theorem run_bound (display : Option (Int32 × Int32)) (bind : Binder) (moves : List AppMove) :
    Bound (Mealy.run (step display bind) new moves).1 := by
  induction moves using List.reverseRecOn with
  | nil => exact bound_new
  | append_singleton moves move ih =>
    rw [Mealy.run_concat]
    exact ih.step (run_sound display bind moves) (step_cases _ move)

/-- A server that has begun to run. -/
def Runs (s : App) (id : Nat) (runtime : ServerRuntime) : Prop :=
  ∃ t, s.tasks id = some t ∧ t.job = .server runtime ∧ t.begun = true

/-- A server that runs goes on running, aborted or not: its accept loop has its own task. -/
theorem Runs.step {runtime : ServerRuntime} (hr : Runs s id runtime) (hs : Sound s)
    (h : RunStep s s' move) : Runs s' id runtime := by
  obtain ⟨t, ht, hjob, hbegun⟩ := hr
  cases h with
  | still _ _ htasks | goes _ _ _ _ htasks | registers _ _ htasks =>
    exact ⟨t, htasks ▸ ht, hjob, hbegun⟩
  | @halts _ k _ _ _ _ _ htasks =>
    by_cases hk : id = k
    · refine ⟨{ t with aborted := true }, ?_, hjob, hbegun⟩
      rw [htasks, if_pos hk, ← hk, ht]
      rfl
    · exact ⟨t, by rw [htasks, if_neg hk, ht], hjob, hbegun⟩
  | @spawns k _ _ h _ htasks =>
    have hnone := @Sound.early s k hs (h ▸ rfl)
    have hk : id ≠ k := by
      rintro rfl
      cases hnone.symm.trans ht
    exact ⟨t, by rw [htasks, if_neg hk, ht], hjob, hbegun⟩
  | @runs _ k u v h hjob' _ hbegun' _ _ _ _ htasks =>
    by_cases hk : id = k
    · subst hk
      obtain rfl : u = t := Option.some.inj (h.symm.trans ht)
      exact ⟨v, by rw [htasks, if_pos rfl], hjob'.trans hjob, hbegun' hbegun⟩
    · exact ⟨t, by rw [htasks, if_neg hk, ht], hjob, hbegun⟩

/-- What shows of a step that binds a socket. -/
theorem AppStep.listens {outs : List AppSeen} {j : Nat} {addr : SocketAddr}
    (h : AppStep display bind s move s' outs) (hseen : .listens j addr ∈ outs) :
    ∃ host port, bind j (s.listening.map Prod.snd) host port = some addr := by
  cases h with
  | bind ok h hbind =>
    injection List.mem_singleton.mp hseen with hid haddr
    subst hid haddr
    exact ⟨_, _, hbind⟩
  | capture =>
    cases List.mem_singleton.mp hseen
  | _ => cases hseen

/-- The socket of a server that has begun to run is in the list, whatever comes after. -/
theorem Runs.taken {runtime : ServerRuntime} (hr : Runs s id runtime) (hb : Bound s) :
    runtime.localAddr ∈ s.listening.map Prod.snd := by
  obtain ⟨t, ht, hjob, hbegun⟩ := hr
  exact List.mem_map_of_mem (hb.held id t runtime ht hjob (.inl hbegun))

/-- Once it runs, it runs for good. -/
theorem run_runs (moves more : List AppMove) {runtime : ServerRuntime}
    (hr : Runs (Mealy.run (step display bind) new moves).1 id runtime) :
    Runs (Mealy.run (step display bind) new (moves ++ more)).1 id runtime := by
  induction more using List.reverseRecOn with
  | nil => rwa [List.append_nil]
  | append_singleton more move ih =>
    rw [← List.append_assoc, Mealy.run_concat]
    exact ih.step (run_sound display bind _) (run_runStep display bind _ move)

/-- **An address is taken once.**  As soon as a server has begun to run, no command's bind yields the
    address its socket listens on, whatever is stopped and started: the socket belongs to the accept
    loop, which nobody stops.  So a start is refused that asks for the server's port at a host with
    no other address. -/
theorem restart_refused (display : Option (Int32 × Int32)) {resolve : String → List String}
    {bind : Binder} (hbind : Binds resolve bind) (moves more : List AppMove) {id : Nat}
    {runtime : ServerRuntime}
    (hr : Runs (Mealy.run (step display bind) new moves).1 id runtime) :
    (∀ j, .listens j runtime.localAddr ∉
      (Mealy.run (step display bind) (Mealy.run (step display bind) new moves).1 more).2) ∧
    ∀ j ok config, (Mealy.run (step display bind) new (moves ++ more)).1.calls j = .binding config →
      (∀ ip ∈ resolve config.bind, ip = runtime.localAddr.ip) →
      config.port = runtime.localAddr.port → config.port ≠ 0 →
      ((Mealy.run (step display bind) new (moves ++ more)).1.step display bind
        (.proceed j ok)).1.calls j = .returned false := by
  constructor
  · intro j
    induction more using List.reverseRecOn with
    | nil => exact List.not_mem_nil
    | append_singleton more move ih =>
      rw [Mealy.run_concat, List.mem_append]
      rintro (hmem | hmem)
      · exact ih hmem
      · have hstate : (Mealy.run (step display bind) (Mealy.run (step display bind) new moves).1
            more).1 = (Mealy.run (step display bind) new (moves ++ more)).1 := by
          rw [Mealy.run_append]
        rw [hstate] at hmem
        obtain ⟨host, port, hgiven⟩ := (step_cases _ move).listens hmem
        exact hbind.free hgiven ((run_runs moves more hr).taken (run_bound display bind _))
  · intro j ok config hcall hhost hport hne
    have htaken := (run_runs moves more hr).taken (run_bound display bind _)
    generalize (Mealy.run (step display bind) new (moves ++ more)).1 = s at hcall htaken ⊢
    simp only [step, proceed, hcall]
    cases hgiven : bind j (s.listening.map Prod.snd) config.bind config.port with
    | none => simp only [setCall_calls, if_true]
    | some addr =>
      -- whatever the system found would be the server's own address
      have hsame : addr = runtime.localAddr :=
        SocketAddr.ext (hhost _ (hbind.resolved hgiven)) ((hbind.port hgiven hne).trans hport)
      exact absurd (hsame ▸ htaken) (hbind.free hgiven)

/-- A system with hosts that are addresses, and without a port to spare. -/
def numericHosts : Binder := fun _ taken host port =>
  if port ≠ 0 ∧ ⟨host, port⟩ ∉ taken then some ⟨host, port⟩ else none

/-- It keeps what `Binds` promises. -/
theorem binds_numericHosts : Binds (fun host => [host]) numericHosts where
  resolved h := by
    obtain ⟨-, rfl⟩ := Option.ite_some_none_eq_some.mp h
    exact List.mem_singleton_self _
  port h _ := by
    obtain ⟨-, rfl⟩ := Option.ite_some_none_eq_some.mp h
    rfl
  free h := by
    obtain ⟨hfree, rfl⟩ := Option.ite_some_none_eq_some.mp h
    exact hfree.2

/-- Stopped and started again: the second start is refused its address. -/
theorem restart_refused_twice :
    let setup : ServerSetup := ⟨"0.0.0.0", 24800, "desk", [⟨"desk", 1920, 1080, 0, 0⟩], false⟩
    ((Mealy.run (step none numericHosts) new
        (([.invoke 0 (.startServer setup)] ++ List.replicate 8 (.proceed 0 true) ++
            [.begin 0 true]) ++
          ([.invoke 1 .stop] ++ List.replicate 3 (.proceed 1 true) ++
            [.invoke 2 (.startServer setup)] ++ List.replicate 3 (.proceed 2 true)))).1.step none
      numericHosts (.proceed 2 true)).1.calls 2 = .returned false := by
  intro setup
  exact (@restart_refused none _ _ binds_numericHosts _ _ 0
    ⟨⟨"0.0.0.0", 24800, "desk", buildLayout setup.screens, false⟩, ⟨"0.0.0.0", 24800⟩⟩
    ⟨⟨.server _, true, true, false, false⟩, rfl, rfl, rfl⟩).2 2 true
    ⟨"0.0.0.0", 24800, "desk", buildLayout setup.screens, false⟩ rfl
    (fun ip hip => List.mem_singleton.mp hip) rfl (by decide)

end SelfKvm.App
