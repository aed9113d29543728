/-
  What a client gets to hear (`kvm-daemon/src/server.rs`, `handle_client`, `dispatch`;
  `kvm-daemon/src/client.rs`).

  On its way to a client a message passes through four hands: the controller puts it into the
  outbound queue, the writer of the connection takes it from there, the network carries it, the
  client reads it.  Before the first of them the task of the connection writes its part of the
  handshake on the same stream, and the client answers on the other.  All of these run at their own
  pace (`Service.step`), a client may hang up at any time, the controller may be stopped.

  1. `Carries` says how far a connection has got: the words of the task are a prefix of `greeting`,
     and behind a complete greeting comes a prefix of what was put into the queue.
  2. `carried_in_order` is what follows for the client: it hears a prefix of the greeting followed by
     what the controller handed over, nothing is missing while its writer runs, and the greeting has
     opened its gate before the first command.
-/
import SelfKvm.Core.Gate
import SelfKvm.Daemon.ClientRuntime
import SelfKvm.Daemon.Ghosts
import SelfKvm.Daemon.Outgoing

namespace SelfKvm

/-! ## What is said, and what is handed over -/

/-- All that a task says to a client of this name. -/
def greeting (layout : ScreenLayout) (name : String) : List Message :=
  if layout.contains name then
    [.hello protocolMajor protocolMinor, .queryInfo, .infoAck, .resetOptions, .setOptions []]
  else
    [.hello protocolMajor protocolMinor, .errUnknown]

/-- A name of the layout is asked for its geometry, and acknowledged. -/
theorem greeting_known {layout : ScreenLayout} {name : String} (h : layout.contains name = true) :
    greeting layout name =
      [.hello protocolMajor protocolMinor, .queryInfo, .infoAck, .resetOptions, .setOptions []] :=
  if_pos h

/-- Any other is told that it is unknown. -/
theorem greeting_unknown {layout : ScreenLayout} {name : String} (h : layout.contains name = false) :
    greeting layout name = [.hello protocolMajor protocolMinor, .errUnknown] :=
  if_neg (by rw [h]; exact Bool.false_ne_true)

/-- The message an effect has for the queue of `id`. -/
def Effect.toQueue (id : Sender) : Effect → Option Message
  | .deliver tx msg => if tx = id then some msg else none
  | _ => none

namespace WriterTask

/-- Messages for a queue that nobody takes from are lost. -/
def takes : WriterTask → List Message → List Message
  | .absent, _ => []
  | .running _, msgs => msgs
  | .finished, _ => []

def push : WriterTask → List Message → WriterTask
  | .absent, _ => .absent
  | .running queue, msgs => .running (queue ++ msgs)
  | .finished, _ => .finished

end WriterTask

namespace Service

/-- What the controller puts into the queue of `id` in a step. -/
def handed (id : Sender) (s : Service) (move : Move) : List Message :=
  match move, s.controller, s.channel with
  | .control, some c, ev :: _ => (s.lines id).writer.takes ((c.step ev).2.filterMap (Effect.toQueue id))
  | .stop done, some c, ev :: _ =>
    (s.lines id).writer.takes (((c.step ev).2.take done).filterMap (Effect.toQueue id))
  | _, _, _ => []

/-- A step that shows what is put into the queue of `id`. -/
def watched (layout : ScreenLayout) (who : Sender → String × ScreenSize) (id : Sender) (s : Service)
    (move : Move) : Service × List Message :=
  ((s.step layout who move).1, s.handed id move)

end Service

namespace ClientMachine

/-- What a client has answered to the messages it has heard. -/
def answers (c : ClientMachine) (heard : List Message) : List Message :=
  (Mealy.run handle c heard).2.filterMap ClientAction.said

/-- Answers come in the order of what is answered. -/
theorem answers_concat (c : ClientMachine) (heard : List Message) (msg : Message) :
    c.answers (heard ++ [msg]) =
      c.answers heard ++ ((Mealy.run handle c heard).1.handle msg).2.filterMap ClientAction.said := by
  unfold answers
  rw [Mealy.run_concat, List.filterMap_append]

end ClientMachine

/-! ## How far a connection has got -/

/-- The words of the task and the messages behind them, by the phase of the task; `handed` is what
    was put into the queue. -/
inductive Carries (layout : ScreenLayout) (c : ClientMachine) : List Message → Line → Prop
  | fresh {l : Line} (htask : l.task = none ∨ l.task = some .accepted) (hheard : l.heard = [])
      (hdown : l.down = []) (hup : l.up = []) (hpending : l.pending = [])
      (hwriter : l.writer = .absent) : Carries layout c [] l
  | greeted {l : Line} (htask : l.task = some .greeted)
      (hsaid : l.heard ++ l.down = [.hello protocolMajor protocolMinor])
      (hup : l.up = c.answers l.heard) (hpending : l.pending = []) (hwriter : l.writer = .absent) :
      Carries layout c [] l
  | queried {l : Line} (htask : l.task = some (.queried c.name))
      (hname : layout.contains c.name = true)
      (hsaid : l.heard ++ l.down = [.hello protocolMajor protocolMinor, .queryInfo])
      (hup : .helloBack protocolMajor protocolMinor c.name :: l.up = c.answers l.heard)
      (hpending : l.pending = []) (hwriter : l.writer = .absent) : Carries layout c [] l
  /-- The handshake has ended without success. -/
  | failed {l : Line} (result : Except ClientError Unit) (htask : l.task = some (.ended result))
      (hsaid : l.heard ++ l.down <+: greeting layout c.name) (hpending : l.pending = [])
      (hwriter : l.writer = .absent) : Carries layout c [] l
  /-- The handshake is complete, the controller does not know yet. -/
  | complete {l : Line} (size : Int32 × Int32) (id : Sender)
      (htask : l.task = some (.serving c.name)) (hname : layout.contains c.name = true)
      (hsaid : l.heard ++ l.down = greeting layout c.name) (hasked : 2 ≤ l.heard.length)
      (hpending : l.pending = [.clientConnected c.name size id]) (hwriter : l.writer = .absent) :
      Carries layout c [] l
  | served {l : Line} {handed : List Message} (written : List Message)
      (hname : layout.contains c.name = true)
      (hsaid : l.heard ++ l.down = greeting layout c.name ++ written) (hasked : 2 ≤ l.heard.length)
      (htask : l.task = some (.serving c.name) ∧
          (∀ ev ∈ l.pending, ∃ msg, ev = .fromClient c.name msg) ∨
        ∃ result, l.task = some (.ended result) ∧ ∀ ev ∈ l.pending, ev = .clientDisconnected c.name)
      (hwriter : (∃ queue, l.writer = .running queue ∧ handed = written ++ queue) ∨
        l.writer = .finished ∧ written <+: handed) : Carries layout c handed l

section

variable {layout : ScreenLayout} {c : ClientMachine} {handed : List Message} {l : Line}

/-- A connection that has a writer is served. -/
theorem Carries.of_running {queue : List Message} (h : Carries layout c handed l)
    (hqueue : l.writer = .running queue) :
    ∃ written, layout.contains c.name = true ∧
      l.heard ++ l.down = greeting layout c.name ++ written ∧ 2 ≤ l.heard.length ∧
      handed = written ++ queue ∧
      (l.task = some (.serving c.name) ∧ (∀ ev ∈ l.pending, ∃ msg, ev = .fromClient c.name msg) ∨
        ∃ result, l.task = some (.ended result) ∧
          ∀ ev ∈ l.pending, ev = .clientDisconnected c.name) := by
  cases h with
  | served written hname hsaid hasked htask hwriter =>
    rcases hwriter with ⟨queue', hqueue', rfl⟩ | ⟨hfinished, -⟩
    · rw [hqueue] at hqueue'
      injection hqueue' with hqueue'
      exact ⟨written, hname, hsaid, hasked, by rw [hqueue'], htask⟩
    · rw [hqueue] at hfinished
      cases hfinished
  | fresh _ _ _ _ _ hwriter | greeted _ _ _ _ hwriter | queried _ _ _ _ _ hwriter
  | failed _ _ _ _ hwriter | complete _ _ _ _ _ _ _ hwriter =>
    rw [hqueue] at hwriter
    cases hwriter

/-- Before it is accepted a connection has carried nothing. -/
theorem Carries.idle_of_none (h : Carries layout c handed l) (htask : l.task = none) :
    l.heard = [] := by
  cases h with
  | fresh _ hheard => exact hheard
  | greeted htask' | queried htask' | failed _ htask' | complete _ _ htask' =>
    rw [htask] at htask'
    cases htask'
  | served _ _ _ _ htask' =>
    rw [htask] at htask'
    rcases htask' with ⟨htask', -⟩ | ⟨_, htask', -⟩ <;> cases htask'

/-- What was said is part of the greeting and of what was handed over. -/
theorem Carries.said_prefix (h : Carries layout c handed l) :
    l.heard ++ l.down <+: greeting layout c.name ++ handed := by
  cases h with
  | fresh _ hheard hdown =>
    rw [hheard, hdown]
    exact List.nil_prefix
  | greeted _ hsaid =>
    rw [hsaid]
    unfold greeting
    split <;> exact ⟨_, rfl⟩
  | queried _ hname hsaid =>
    rw [hsaid, greeting_known hname]
    exact ⟨_, rfl⟩
  | failed _ _ hsaid => exact hsaid.trans (List.prefix_append _ _)
  | complete _ _ _ _ hsaid =>
    rw [hsaid]
    exact List.prefix_append _ _
  | served written _ hsaid _ _ hwriter =>
    rw [hsaid]
    apply (List.prefix_append_right_inj _).mpr
    rcases hwriter with ⟨queue, -, rfl⟩ | ⟨-, hfront⟩
    · exact List.prefix_append written queue
    · exact hfront

end

namespace Line

variable {layout : ScreenLayout} {id : Sender} {c : ClientMachine} {handed : List Message} {l : Line}

/-- A connection that was not accepted carries nothing. -/
theorem carries_idle : Carries layout c [] idle :=
  .fresh (.inl rfl) rfl rfl rfl rfl rfl

/-- A prefix of the greeting is on its way before the connection is served. -/
theorem greeted_heard {heard down : List Message} {msg : Message} {up : List Message}
    (hsaid : heard ++ down = [.hello protocolMajor protocolMinor])
    (hup : msg :: up = c.answers heard) :
    heard = [.hello protocolMajor protocolMinor] ∧ down = [] ∧ up = [] ∧
      msg = .helloBack protocolMajor protocolMinor c.name := by
  rcases List.append_eq_singleton_iff.mp hsaid with ⟨rfl, -⟩ | ⟨rfl, rfl⟩
  · cases hup
  · injection hup with hmsg hup
    exact ⟨rfl, rfl, hup, hmsg⟩

/-- A client that was asked for its geometry has heard both questions when it answers the second. -/
theorem queried_heard {heard down : List Message} {msg : Message} {up : List Message}
    (hsaid : heard ++ down = [.hello protocolMajor protocolMinor, .queryInfo])
    (hup : .helloBack protocolMajor protocolMinor c.name :: msg :: up = c.answers heard) :
    heard = [.hello protocolMajor protocolMinor, .queryInfo] ∧ down = [] ∧ up = [] ∧
      ∃ x y w h warp mx my, msg = .deviceInfo x y w h warp mx my := by
  -- it has answered twice, so it has heard two messages, and no more were said
  match heard, hsaid, hup with
  | [], _, hup => cases hup
  | [m], hsaid, hup =>
    injection hsaid with hm
    subst hm
    cases hup
  | [m, m'], hsaid, hup =>
    injection hsaid with hm hsaid
    injection hsaid with hm' hdown
    subst hm hm'
    injection hup with _ hup
    injection hup with hmsg hup
    exact ⟨rfl, hdown, hup, _, _, _, _, _, _, _, hmsg⟩
  | m :: m' :: m'' :: rest, hsaid, _ =>
    injection hsaid with _ hsaid
    injection hsaid with _ hsaid
    cases hsaid

/-- The words of one answer, as many as get through. -/
theorem said_sendAll (msgs : List Message) (fails : WriteFailure) (next : Phase)
    (reports : List ServerEvent) :
    (∃ result n, (sendAll msgs fails next reports).1 = .ended result ∧
      (sendAll msgs fails next reports).2.filterMap ClientAct.said = msgs.take n ∧
      (sendAll msgs fails next reports).2.filterMap ClientAct.told = []) ∨
    ((sendAll msgs fails next reports).1 = next ∧
      (sendAll msgs fails next reports).2.filterMap ClientAct.said = msgs ∧
      (sendAll msgs fails next reports).2.filterMap ClientAct.told = reports) := by
  have hsaid : ∀ ms : List Message, (ms.map ClientAct.reply).filterMap ClientAct.said = ms := by
    intro ms
    rw [List.filterMap_map]
    exact List.filterMap_some
  by_cases h : fails.Spares msgs.length
  · right
    rw [Runtime.sendAll_spares h]
    refine ⟨rfl, ?_, ?_⟩
    · rw [List.filterMap_append, hsaid, List.filterMap_map]
      exact (congrArg (msgs ++ ·) (List.filterMap_eq_nil_iff.mpr fun _ _ => rfl)).trans
        (List.append_nil _)
    · rw [List.filterMap_append, Runtime.told_replies, Runtime.told_reports, List.nil_append]
  · left
    obtain ⟨n, e, -, hfails⟩ := Runtime.sendAll_fails next reports h
    rw [hfails]
    exact ⟨_, n, rfl, hsaid _, Runtime.told_replies _⟩

/-- The task answers: either all of it goes out, or the connection has failed. -/
theorem carries_sendAll {said msgs : List Message} {fails : WriteFailure} {next : Phase}
    {reports : List ServerEvent} {l' : Line} (hsaid : l.heard ++ l.down = said)
    (hfront : said ++ msgs <+: greeting layout c.name) (hwriter : l.writer = .absent)
    (htask : l'.task = some (sendAll msgs fails next reports).1)
    (hpending : l'.pending = (sendAll msgs fails next reports).2.filterMap ClientAct.told)
    (hheard : l'.heard = l.heard) (hwriter' : l'.writer = l.writer)
    (hdown : l'.down = l.down ++ (sendAll msgs fails next reports).2.filterMap ClientAct.said)
    (hnext : l'.task = some next → l'.pending = reports → l'.heard ++ l'.down = said ++ msgs →
      Carries layout c [] l') : Carries layout c [] l' := by
  rcases said_sendAll msgs fails next reports with ⟨result, n, h₁, h₂, h₃⟩ | ⟨h₁, h₂, h₃⟩
  · rw [h₁] at htask
    rw [h₂] at hdown
    rw [h₃] at hpending
    refine .failed result htask ?_ hpending (hwriter'.trans hwriter)
    rw [hheard, hdown, ← List.append_assoc, hsaid]
    exact ((List.prefix_append_right_inj said).mpr (List.take_prefix n msgs)).trans hfront
  · rw [h₁] at htask
    rw [h₂] at hdown
    rw [h₃] at hpending
    refine hnext htask hpending ?_
    rw [hheard, hdown, ← List.append_assoc, hsaid]

/-- A connection that is accepted begins anew. -/
theorem carries_accepted (h : Carries layout c handed l) (htask : l.task = none) :
    Carries layout c handed { Line.idle with task := some .accepted } := by
  cases h with
  | fresh => exact .fresh (.inr rfl) rfl rfl rfl rfl rfl
  | greeted htask' | queried htask' | failed _ htask' | complete _ _ htask' =>
    rw [htask] at htask'
    cases htask'
  | served _ _ _ _ htask' =>
    rw [htask] at htask'
    rcases htask' with ⟨htask', -⟩ | ⟨result, htask', -⟩ <;> cases htask'

/-- What a task goes on with: it begins, it has read a message, or its reader has failed. -/
theorem next_cases {fails : WriteFailure} {o : Occurrence} {rest : List Message}
    (h : l.next fails = some (o, rest)) :
    l.task = some .accepted ∧ o = .start (l.failing fails) ∧ rest = l.up ∨
      l.reads = true ∧ ((∃ msg, l.up = msg :: rest ∧ o = .received msg (l.failing fails)) ∨
        ∃ e, o = .readFailed e) := by
  rcases next_eq_some h with hstart | ⟨hreads, msg, hup, rfl⟩
  · exact .inl hstart
  · refine .inr ⟨hreads, ?_⟩
    unfold read
    split
    · exact .inr ⟨_, rfl⟩
    · exact .inl ⟨msg, hup, rfl⟩

/-- A task that goes on has reported what it had to report. -/
theorem pending_of_next {fails : WriteFailure} {next : Occurrence × List Message}
    (h : l.next fails = some next) : l.pending = [] := by
  by_contra hpending
  unfold Line.next at h
  rw [if_pos hpending] at h
  cases h

/-- The read of the task fails, whatever it has taken from the stream. -/
theorem carries_lose (e : NetError) (up : List Message) (late : Bool) (h : Carries layout c handed l)
    (hpending : l.pending = []) (hreads : l.reads = true) :
    Carries layout c handed ({ l with up, late }.proceed layout id (.readFailed e)).1 := by
  have hdown : ∀ {said : List Message}, l.heard ++ l.down = said → l.heard ++ (l.down ++ []) = said := by
    intro said hsaid
    rw [List.append_nil, hsaid]
  cases h with
  | fresh htask =>
    rcases htask with htask | htask
    · rw [reads, htask] at hreads
      cases hreads
    · rw [reads, htask] at hreads
      cases hreads
  | greeted htask hsaid hup hpending hwriter =>
    simp only [proceed, htask, handleClient]
    refine .failed _ rfl ?_ rfl hwriter
    show l.heard ++ (l.down ++ []) <+: _
    rw [hdown hsaid, greeting]
    split <;> exact ⟨_, rfl⟩
  | queried htask hname hsaid hup hpending hwriter =>
    simp only [proceed, htask, handleClient]
    refine .failed _ rfl ?_ rfl hwriter
    show l.heard ++ (l.down ++ []) <+: _
    rw [hdown hsaid, greeting_known hname]
    exact ⟨_, rfl⟩
  | failed result htask =>
    rw [reads, htask] at hreads
    cases hreads
  | complete size tx htask hname hsaid hasked hp hwriter =>
    rw [hpending] at hp
    cases hp
  | served written hname hsaid hasked htask hwriter =>
    rcases htask with ⟨htask, -⟩ | ⟨result, htask, -⟩
    · simp only [proceed, htask, handleClient]
      exact .served written hname (hdown hsaid) hasked
        (.inr ⟨_, rfl, fun ev hev => List.mem_singleton.mp hev⟩)
        hwriter
    · rw [reads, htask] at hreads
      cases hreads

/-- The task goes on. -/
theorem carries_proceed {fails : WriteFailure} {o : Occurrence} {rest : List Message} (late : Bool)
    (h : Carries layout c handed l) (hnext : l.next fails = some (o, rest)) :
    Carries layout c handed ({ l with up := rest, late }.proceed layout id o).1 := by
  have hcases : l.task = some .accepted ∧ o = .start (l.failing fails) ∧ rest = l.up ∨
      l.reads = true ∧ ((∃ msg, l.up = msg :: rest ∧ o = .received msg (l.failing fails)) ∨
        ∃ e, o = .readFailed e) := next_cases hnext
  by_cases hfailed : ∃ e, o = .readFailed e
  · obtain ⟨e, rfl⟩ := hfailed
    rcases hcases with ⟨-, ho, -⟩ | ⟨hreads, -⟩
    · cases ho
    · exact carries_lose e rest late h (pending_of_next hnext) hreads
  replace hcases := hcases.imp_right fun hread => And.intro hread.1 (hread.2.resolve_right hfailed)
  clear hfailed
  have hreads : ∀ {result}, l.task = some (.ended result) → l.reads ≠ true := by
    intro result htask hreads
    rw [reads, htask] at hreads
    cases hreads
  cases h with
  | fresh htask hheard hdown hup hpending hwriter =>
    rcases hcases with ⟨haccepted, rfl, rfl⟩ | ⟨-, msg, hmsg, -⟩
    · simp only [proceed, haccepted, handleClient]
      refine carries_sendAll (l := l) (show l.heard ++ l.down = [] by rw [hheard, hdown]; rfl) ?_
        hwriter rfl rfl
        rfl rfl rfl ?_
      · unfold greeting
        split <;> exact ⟨_, rfl⟩
      · intro htask' hpending' hsaid
        refine .greeted htask' hsaid ?_ hpending' hwriter
        show l.up = c.answers l.heard
        rw [hup, hheard]
        rfl
    · rw [hup] at hmsg
      cases hmsg
  | greeted htask hsaid hup hpending hwriter =>
    rcases hcases with ⟨haccepted, -, -⟩ | ⟨-, msg, hmsg, rfl⟩
    · rw [htask] at haccepted
      cases haccepted
    · obtain ⟨hheard, hdown, rfl, rfl⟩ := greeted_heard hsaid (hmsg.symm.trans hup)
      by_cases hname : layout.contains c.name = true
      · simp only [proceed, htask, handleClient, hname]
        refine carries_sendAll (l := l) hsaid ?_ hwriter rfl rfl rfl rfl rfl ?_
        · rw [greeting_known hname]
          exact ⟨_, rfl⟩
        · intro htask' hpending' hsaid'
          refine .queried htask' hname hsaid' ?_ hpending' hwriter
          show _ = c.answers l.heard
          rw [hheard]
          rfl
      · rw [Bool.not_eq_true] at hname
        simp only [proceed, htask, handleClient, hname, ne_eq, not_true_eq_false, if_false,
          Bool.not_false, if_true]
        refine .failed _ rfl ?_ (Runtime.sendAll_quiet _ _ _) hwriter
        show l.heard ++ (l.down ++ _) <+: _
        rw [← List.append_assoc, hsaid, greeting_unknown hname]
        rcases said_sendAll [.errUnknown] (l.failing fails) .greeted []
          with ⟨result, n, -, hsent, -⟩ | ⟨-, hsent, -⟩
        · rw [hsent]
          exact (List.prefix_append_right_inj [_]).mpr (List.take_prefix n [_])
        · rw [hsent]
          exact List.prefix_refl _
  | queried htask hname hsaid hup hpending hwriter =>
    rcases hcases with ⟨haccepted, -, -⟩ | ⟨-, msg, hmsg, rfl⟩
    · rw [htask] at haccepted
      cases haccepted
    · rw [hmsg] at hup
      obtain ⟨hheard, hdown, rfl, x, y, w, hh, warp, mx, my, rfl⟩ := queried_heard hsaid hup
      simp only [proceed, htask, handleClient]
      refine carries_sendAll (l := l) hsaid ?_ hwriter rfl rfl rfl rfl rfl ?_
      · rw [greeting_known hname]
        exact List.prefix_refl _
      · intro htask' hpending' hsaid'
        refine .complete _ id htask' hname ?_ ?_ hpending' hwriter
        · rw [hsaid', greeting_known hname]
          rfl
        · show 2 ≤ l.heard.length
          rw [hheard]
          exact Nat.le_refl 2
  | failed result htask =>
    rcases hcases with ⟨haccepted, -, -⟩ | ⟨hr, -⟩
    · rw [htask] at haccepted
      cases haccepted
    · exact absurd hr (hreads htask)
  | complete size tx htask hname hsaid hasked hpending hwriter =>
    unfold next at hnext
    rw [if_pos (by rw [hpending]; exact List.cons_ne_nil _ _)] at hnext
    cases hnext
  | served written hname hsaid hasked htask hwriter =>
    rcases htask with ⟨htask, hpending⟩ | ⟨result, htask, hpending⟩
    · rcases hcases with ⟨haccepted, -, -⟩ | ⟨-, msg, hmsg, rfl⟩
      · rw [htask] at haccepted
        cases haccepted
      · simp only [proceed, htask, handleClient]
        refine .served written hname ?_ hasked (.inl ⟨rfl, ?_⟩) hwriter
        · show l.heard ++ (l.down ++ []) = _
          rw [List.append_nil, hsaid]
        · intro ev hev
          exact ⟨msg, List.mem_singleton.mp hev⟩
    · rcases hcases with ⟨haccepted, -, -⟩ | ⟨hr, -⟩
      · rw [htask] at haccepted
        cases haccepted
      · exact absurd hr (hreads htask)

/-- A report is sent: the first one starts the writer, the last one stops it. -/
theorem carries_reported {ev : ServerEvent} {rest : List ServerEvent}
    (h : Carries layout c handed l) (hpending : l.pending = ev :: rest) :
    Carries layout c handed (l.reported ev rest) := by
  have hnone : l.pending ≠ [] := by
    rw [hpending]
    exact List.cons_ne_nil ev rest
  cases h with
  | fresh _ _ _ _ hp => exact absurd hp hnone
  | greeted _ _ _ hp => exact absurd hp hnone
  | queried _ _ _ _ hp => exact absurd hp hnone
  | failed _ _ _ hp => exact absurd hp hnone
  | complete size tx htask hname hsaid hasked hp hwriter =>
    rw [hpending] at hp
    injection hp with hev hrest
    subst hev hrest
    refine .served [] hname ?_ hasked (.inl ⟨htask, fun ev hev => (by cases hev)⟩) (.inl ⟨[], rfl, rfl⟩)
    rw [List.append_nil]
    exact hsaid
  | served written hname hsaid hasked htask hwriter =>
    rw [hpending] at htask
    rcases htask with ⟨htask, hevs⟩ | ⟨result, htask, hevs⟩
    · obtain ⟨msg, rfl⟩ := hevs ev List.mem_cons_self
      refine .served written hname hsaid hasked (.inl ⟨htask, ?_⟩) hwriter
      exact fun ev' hev' => hevs ev' (List.mem_cons_of_mem _ hev')
    · rw [hevs ev List.mem_cons_self]
      refine .served written hname hsaid hasked (.inr ⟨result, htask, ?_⟩) (.inr ⟨rfl, ?_⟩)
      · exact fun ev' hev' => hevs ev' (List.mem_cons_of_mem _ hev')
      · rcases hwriter with ⟨queue, -, rfl⟩ | ⟨-, hfront⟩
        · exact List.prefix_append written queue
        · exact hfront

/-- The writer writes. -/
theorem carries_wrote {msg : Message} {queue : List Message} (h : Carries layout c handed l)
    (hqueue : l.writer = .running (msg :: queue)) :
    Carries layout c handed { l with writer := .running queue, down := l.down ++ [msg] } := by
  obtain ⟨written, hname, hsaid, hasked, rfl, htask⟩ := h.of_running hqueue
  refine .served (written ++ [msg]) hname ?_ hasked htask (.inl ⟨queue, rfl, ?_⟩)
  · show l.heard ++ (l.down ++ [msg]) = _
    rw [← List.append_assoc, hsaid, List.append_assoc]
  · rw [List.append_assoc, List.singleton_append]

/-- The writer ends. -/
theorem carries_finished {queue : List Message} (h : Carries layout c handed l)
    (hqueue : l.writer = .running queue) : Carries layout c handed { l with writer := .finished } := by
  obtain ⟨written, hname, hsaid, hasked, rfl, htask⟩ := h.of_running hqueue
  exact .served written hname hsaid hasked htask (.inr ⟨rfl, List.prefix_append written queue⟩)

/-- Messages are put into the queue. -/
theorem carries_push (h : Carries layout c handed l) (msgs : List Message) :
    Carries layout c (handed ++ l.writer.takes msgs) { l with writer := l.writer.push msgs } := by
  cases hwriter : l.writer with
  | running queue =>
    obtain ⟨written, hname, hsaid, hasked, rfl, htask⟩ := h.of_running hwriter
    exact .served written hname hsaid hasked htask (.inl ⟨queue ++ msgs, rfl, List.append_assoc ..⟩)
  | _ =>
    show Carries layout c (handed ++ []) _
    rw [List.append_nil, WriterTask.push, ← hwriter]
    exact h

/-- The client takes a message, and answers it. -/
theorem carries_take {msg : Message} {rest : List Message} (h : Carries layout c handed l)
    (hdown : l.down = msg :: rest) : Carries layout c handed (l.take c msg rest) := by
  have hsaid' : (l.take c msg rest).heard ++ (l.take c msg rest).down = l.heard ++ l.down := by
    show l.heard ++ [msg] ++ rest = _
    rw [hdown, List.append_assoc, List.singleton_append]
  have hanswers : ∀ before : List Message, before ++ l.up = c.answers l.heard →
      before ++ (l.take c msg rest).up = c.answers (l.take c msg rest).heard := by
    intro before hup
    show before ++ (l.up ++ _) = c.answers (l.heard ++ [msg])
    rw [ClientMachine.answers_concat, ← hup, List.append_assoc]
  have hmore : 2 ≤ l.heard.length → 2 ≤ (l.take c msg rest).heard.length := by
    intro hasked
    show 2 ≤ (l.heard ++ [msg]).length
    rw [List.length_append]
    omega
  cases h with
  | fresh _ _ hempty =>
    rw [hempty] at hdown
    cases hdown
  | greeted htask hsaid hup hpending hwriter =>
    exact .greeted htask (hsaid'.trans hsaid) (hanswers [] hup) hpending hwriter
  | queried htask hname hsaid hup hpending hwriter =>
    exact .queried htask hname (hsaid'.trans hsaid) (hanswers [_] hup) hpending hwriter
  | failed result htask hsaid hpending hwriter =>
    exact .failed result htask (hsaid'.symm ▸ hsaid) hpending hwriter
  | complete size tx htask hname hsaid hasked hpending hwriter =>
    exact .complete size tx htask hname (hsaid'.trans hsaid) (hmore hasked) hpending hwriter
  | served written hname hsaid hasked htask hwriter =>
    exact .served written hname (hsaid'.trans hsaid) (hmore hasked) htask hwriter

/-- Somebody closes the connection. -/
theorem carries_closed (h : Carries layout c handed l) :
    Carries layout c handed { l with gone := true } := by
  cases h with
  | fresh h₁ h₂ h₃ h₄ h₅ h₆ => exact .fresh h₁ h₂ h₃ h₄ h₅ h₆
  | greeted h₁ h₂ h₃ h₄ h₅ => exact .greeted h₁ h₂ h₃ h₄ h₅
  | queried h₁ h₂ h₃ h₄ h₅ h₆ => exact .queried h₁ h₂ h₃ h₄ h₅ h₆
  | failed result h₁ h₂ h₃ h₄ => exact .failed result h₁ h₂ h₃ h₄
  | complete size tx h₁ h₂ h₃ h₄ h₅ h₆ => exact .complete size tx h₁ h₂ h₃ h₄ h₅ h₆
  | served written h₁ h₂ h₃ h₄ h₅ => exact .served written h₁ h₂ h₃ h₄ h₅

end Line

namespace Service

open Line

variable {layout : ScreenLayout} {who : Sender → String × ScreenSize} {s : Service} {id : Sender}
  {handed : List Message}

/-- Carrying out effects fills the queue of `id` with what they have for it. -/
theorem deliver_push (effs : List Effect) (lines : Sender → Line) (id : Sender) :
    effs.foldl deliver lines id =
      { lines id with writer := (lines id).writer.push (effs.filterMap (Effect.toQueue id)) } := by
  have hnil : ∀ w : WriterTask, w.push [] = w := by
    intro w
    cases w with
    | running queue => exact congrArg WriterTask.running (List.append_nil queue)
    | _ => rfl
  have hpush : ∀ (w : WriterTask) (ms ms' : List Message),
      (w.push ms).push ms' = w.push (ms ++ ms') := by
    intro w ms ms'
    cases w with
    | running queue => exact congrArg WriterTask.running (List.append_assoc ..)
    | _ => rfl
  induction effs generalizing lines with
  | nil =>
    rw [List.filterMap_nil, hnil]
    rfl
  | cons eff effs ih =>
    rw [List.foldl_cons, ih]
    have hone : deliver lines eff id =
        { lines id with writer := (lines id).writer.push ((Effect.toQueue id eff).toList) } := by
      cases eff with
      | deliver tx msg =>
        by_cases hid : id = tx
        · subst hid
          rw [deliver, Function.update_self, Line.enqueue, Effect.toQueue, if_pos rfl]
          cases hw : (lines id).writer with
          | running queue => rfl
          | _ =>
            show lines id = _
            rw [Option.toList_some, WriterTask.push, ← hw]
        · rw [deliver, Function.update_of_ne hid, Effect.toQueue, if_neg (Ne.symm hid),
            Option.toList_none, hnil]
      | _ => exact congrArg (fun w => { lines id with writer := w }) (hnil _).symm
    rw [hone, List.filterMap_cons]
    show Line.mk _ _ ((((lines id).writer.push _)).push _) _ _ _ _ _ = _
    rw [hpush]
    cases Effect.toQueue id eff <;> rfl

/-- What one connection sees of a step: where it is then, and what was handed over to it. -/
inductive Goes (layout : ScreenLayout) (c : ClientMachine) (id : Sender) (l : Line) :
    Move → List Message → Line → Prop
  | same {move : Move} : Goes layout c id l move [] l
  | accepted (htask : l.task = none) :
    Goes layout c id l (.connect id) [] { Line.idle with task := some .accepted }
  | proceeded {fails : WriteFailure} {o : Occurrence} {rest : List Message} (late : Bool)
    (hnext : l.next fails = some (o, rest)) :
    Goes layout c id l (.task id fails) [] ({ l with up := rest, late }.proceed layout id o).1
  | lost (e : NetError) (hpending : l.pending = []) (hgone : l.gone = true)
    (hreads : l.reads = true) :
    Goes layout c id l (.lose id e) [] (l.proceed layout id (.readFailed e)).1
  | reported {ev : ServerEvent} {rest : List ServerEvent} (hpending : l.pending = ev :: rest) :
    Goes layout c id l (.report id) [] (l.reported ev rest)
  | finished {fails : Bool} {queue : List Message} (hwriter : l.writer = .running queue) :
    Goes layout c id l (.write id fails) [] { l with writer := .finished }
  | wrote {fails : Bool} {msg : Message} {queue : List Message}
    (hwriter : l.writer = .running (msg :: queue)) :
    Goes layout c id l (.write id fails) []
      { l with writer := .running queue, down := l.down ++ [msg] }
  | pushed {move : Move} (msgs : List Message) :
    Goes layout c id l move (l.writer.takes msgs) { l with writer := l.writer.push msgs }
  | heard {msg : Message} {rest : List Message} (hgone : l.gone = false)
    (hdown : l.down = msg :: rest) : Goes layout c id l (.hear id) [] (l.take c msg rest)
  /-- The client has read a message that is too long. -/
  | refused {msg : Message} {rest : List Message} (hdown : l.down = msg :: rest)
    (hlong : msg.oversized = true) : Goes layout c id l (.hear id) [] { l with gone := true }
  | closed : Goes layout c id l (.hangUp id) [] { l with gone := true }

/-- A step of one connection leaves the others as they are. -/
theorem goes_setLine {s' : Service} {move : Move} {i : Sender} {l : Line} (hs : s'.lines = s.lines)
    (hset : i = id → Goes layout (client who id) id (s.lines id) move [] l) :
    Goes layout (client who id) id (s.lines id) move [] ((s'.setLine i l).lines id) := by
  rw [setLine_lines]
  by_cases hid : id = i
  · rw [if_pos hid]
    exact hset hid.symm
  · rw [if_neg hid, hs]
    exact .same

/-- **A connection sees nothing else of a step.** -/
theorem step_goes (layout : ScreenLayout) (who : Sender → String × ScreenSize) (s : Service)
    (id : Sender) (move : Move) :
    Goes layout (client who id) id (s.lines id) move (s.handed id move)
      ((s.step layout who move).1.lines id) := by
  cases move with
  | connect i =>
    simp only [step]
    by_cases htask : (s.lines i).task = none
    · rw [if_pos htask]
      refine goes_setLine rfl ?_
      rintro rfl
      exact .accepted htask
    · rw [if_neg htask]
      exact .same
  | task i fails =>
    simp only [step]
    cases hnext : (s.lines i).next fails with
    | none => exact .same
    | some next =>
      refine goes_setLine rfl ?_
      rintro rfl
      exact .proceeded _ hnext
  | lose i e =>
    simp only [step]
    by_cases hlose : (s.lines i).pending = [] ∧ (s.lines i).gone = true ∧ (s.lines i).reads = true
    · rw [if_pos hlose]
      refine goes_setLine rfl ?_
      rintro rfl
      exact .lost e hlose.1 hlose.2.1 hlose.2.2
    · rw [if_neg hlose]
      exact .same
  | report i =>
    simp only [step]
    cases hpending : (s.lines i).pending with
    | nil => exact .same
    | cons ev rest =>
      refine goes_setLine (send_lines s ev) ?_
      rintro rfl
      exact .reported hpending
  | write i fails =>
    simp only [step]
    cases hwriter : (s.lines i).writer with
    | absent => exact .same
    | finished => exact .same
    | running queue =>
      cases queue with
      | nil =>
        by_cases hheld : s.held i
        · simp only [hheld, if_true]
          exact .same
        · simp only [hheld]
          refine goes_setLine rfl ?_
          rintro rfl
          exact .finished hwriter
      | cons msg queue =>
        by_cases hfails : ((s.lines i).gone && fails) = true
        · simp only [hfails, if_true]
          refine goes_setLine rfl ?_
          rintro rfl
          exact .finished hwriter
        · simp only [hfails]
          refine goes_setLine rfl ?_
          rintro rfl
          exact .wrote hwriter
  | control =>
    simp only [step, Service.handed]
    cases hc : s.controller with
    | none => exact .same
    | some c =>
      cases hev : s.channel with
      | nil => exact .same
      | cons ev channel =>
        show Goes _ _ _ _ _ _ ((c.step ev).2.foldl deliver s.lines id)
        rw [deliver_push]
        exact .pushed _
  | input ev hev =>
    show Goes _ _ _ _ _ _ ((s.send ev).lines id)
    rw [send_lines]
    exact .same
  | stop done =>
    simp only [step, Service.handed]
    cases hc : s.controller with
    | none => exact .same
    | some c =>
      cases hev : s.channel with
      | nil => exact .same
      | cons ev channel =>
        show Goes _ _ _ _ _ _ (((c.step ev).2.take done).foldl deliver s.lines id)
        rw [deliver_push]
        exact .pushed _
  | hear i =>
    simp only [step]
    cases hdown : (s.lines i).down with
    | nil => exact .same
    | cons msg rest =>
      by_cases hgone : (s.lines i).gone = true
      · simp only [hgone, if_true]
        exact .same
      · simp only [hgone, hear]
        refine goes_setLine rfl ?_
        rintro rfl
        by_cases hlong : msg.oversized = true
        · rw [if_pos hlong]
          exact .refused hdown hlong
        · rw [if_neg hlong]
          exact .heard (Bool.eq_false_iff.mpr hgone) hdown
  | hangUp i =>
    simp only [step]
    by_cases htask : (s.lines i).task = none
    · rw [if_pos htask]
      exact .same
    · rw [if_neg htask]
      refine goes_setLine rfl ?_
      rintro rfl
      exact .closed

/-- **One step.**  A connection carries what it carried and what the step hands over. -/
theorem carries_step (h : Carries layout (client who id) handed (s.lines id)) (move : Move) :
    Carries layout (client who id) (handed ++ s.handed id move)
      ((s.step layout who move).1.lines id) := by
  have hgoes := step_goes layout who s id move
  generalize s.handed id move = more, (s.step layout who move).1.lines id = l' at hgoes ⊢
  have hsilent : ∀ {l' : Line}, Carries layout (client who id) handed l' →
      Carries layout (client who id) (handed ++ []) l' := by
    intro l' hl'
    rwa [List.append_nil]
  cases hgoes with
  | same => exact hsilent h
  | accepted htask => exact hsilent (carries_accepted h htask)
  | proceeded late hnext => exact hsilent (carries_proceed late h hnext)
  | lost e hpending _ hreads => exact hsilent (carries_lose e _ _ h hpending hreads)
  | reported hpending => exact hsilent (carries_reported h hpending)
  | finished hwriter => exact hsilent (carries_finished h hwriter)
  | wrote hwriter => exact hsilent (carries_wrote h hwriter)
  | pushed msgs => exact carries_push h msgs
  | heard _ hdown => exact hsilent (carries_take h hdown)
  | refused | closed => exact hsilent (carries_closed h)

/-- Whatever happens, every connection carries what was handed over to it. -/
theorem run_carries (layout : ScreenLayout) (home : String) (who : Sender → String × ScreenSize)
    (id : Sender) (moves : List Move) :
    Carries layout (client who id) (Mealy.run (watched layout who id) (new layout home) moves).2
      ((Mealy.run (watched layout who id) (new layout home) moves).1.lines id) := by
  apply Mealy.run_induction (watched layout who id)
    (P := fun _ s handed => Carries layout (client who id) handed (s.lines id))
  · exact carries_idle
  · exact fun _ _ _ move h => carries_step h move

end Service

/-! ## What follows for the client -/

/-- The greeting injects nothing, and opens the gate. -/
theorem injected_greeting {layout : ScreenLayout} {name : String} (size : ScreenSize)
    {heard handed : List Message} (h : heard <+: greeting layout name ++ handed)
    (hknown : handed ≠ [] → layout.contains name = true) :
    ClientMachine.injected (Mealy.run ClientMachine.handle (.new name size) heard).2 =
      ClientMachine.injected (Mealy.run ClientMachine.handle (.acknowledged name size)
        (heard.drop (greeting layout name).length)).2 := by
  have hquiet : ∀ msgs, msgs <+: greeting layout name →
      ClientMachine.injected (Mealy.run ClientMachine.handle (.new name size) msgs).2 = [] := by
    intro msgs hmsgs
    obtain ⟨rest, hrest⟩ := hmsgs
    have hall : ClientMachine.injected
        (Mealy.run ClientMachine.handle (.new name size) (greeting layout name)).2 = [] := by
      unfold greeting
      split <;> rfl
    rw [← hrest, Mealy.run_append, ClientMachine.injected_append, List.append_eq_nil_iff] at hall
    exact hall.1
  rcases List.prefix_or_prefix_of_prefix h (List.prefix_append _ handed) with hshort | ⟨taken, rfl⟩
  · rw [hquiet heard hshort, List.drop_of_length_le hshort.length_le]
    rfl
  · have htaken := (List.prefix_append_right_inj _).mp h
    rw [List.drop_left, Mealy.run_append, ClientMachine.injected_append,
      hquiet _ (List.prefix_refl _), List.nil_append]
    cases taken with
    | nil => rfl
    | cons msg taken =>
      have hne : handed ≠ [] := by
        rintro rfl
        cases List.prefix_nil.mp htaken
      rw [greeting_known (hknown hne)]
      rfl

namespace Service

/-- **Nothing is lost, doubled or out of order on the way to a client.**  For any layout, any
    clients and any interleaving of the controller, the tasks, the writers, the clients, their
    hang-ups and the end of the controller: every client has heard a prefix of the greeting followed
    by what the controller has put into its queue; while its writer runs, all that is missing is on
    the way; and it has injected what the messages behind the greeting make an acknowledged client
    inject. -/
theorem carried_in_order (layout : ScreenLayout) (home : String)
    (who : Sender → String × ScreenSize) (moves : List Move) (id : Sender) :
    let s := (Mealy.run (watched layout who id) (new layout home) moves).1
    let handed := (Mealy.run (watched layout who id) (new layout home) moves).2
    (s.lines id).heard <+: greeting layout (who id).1 ++ handed ∧
    (∀ queue, (s.lines id).writer = .running queue →
      (s.lines id).heard ++ (s.lines id).down ++ queue = greeting layout (who id).1 ++ handed) ∧
    ClientMachine.injected (Mealy.run ClientMachine.handle (client who id) (s.lines id).heard).2 =
      ClientMachine.injected (Mealy.run ClientMachine.handle (.acknowledged (who id).1 (who id).2)
        ((s.lines id).heard.drop (greeting layout (who id).1).length)).2 := by
  have hcarries := run_carries layout home who id moves
  generalize (Mealy.run (watched layout who id) (new layout home) moves).1 = s,
    (Mealy.run (watched layout who id) (new layout home) moves).2 = handed at hcarries
  have hheard : (s.lines id).heard <+: greeting layout (who id).1 ++ handed :=
    (List.prefix_append _ (s.lines id).down).trans hcarries.said_prefix
  refine ⟨hheard, ?_, ?_⟩
  · intro queue hqueue
    obtain ⟨written, -, hsaid, -, hhanded, -⟩ := hcarries.of_running hqueue
    rw [hsaid, hhanded, List.append_assoc]
    rfl
  · refine injected_greeting (who id).2 hheard ?_
    intro hne
    cases hcarries with
    | served _ hname => exact hname
    | _ => exact absurd rfl hne

end Service

end SelfKvm
