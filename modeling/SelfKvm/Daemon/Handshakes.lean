/-
  The handshake of a connection (`kvm-daemon/src/server.rs`, `handle_client`;
  `kvm-daemon/src/client.rs`).

  The task of a connection and its client talk to each other while all the others run
  (`Service.step`).  What has been said so far is `Carries` of `Daemon.Delivery`.

  1. `unbroken`: neither end ever breaks the connection off, as nothing that a client of the layout
     hears is a goodbye, and nothing that it answers is refused.  Only a text that is too long for a
     frame could do it, so there must be none (`TextsFit`).
  2. `handshake_completes`: six steps of the two ends complete it, whatever happens in between.
     `progress` counts them.  A text that is too long comes after the acknowledgement (`Left`).
-/
import SelfKvm.Daemon.Delivery

namespace SelfKvm

/-! ## Nobody breaks off the handshake -/

/-- A client hangs up over a goodbye, and over nothing else. -/
theorem ClientMachine.handle_disconnects (c : ClientMachine) (msg : Message) :
    (c.handle msg).2.any ClientAction.disconnects = msg.partsWays := by
  have hinject : ∀ cmd, (c.injectIfActive cmd).any ClientAction.disconnects = false := by
    intro cmd
    rw [injectIfActive_eq]
    split <;> rfl
  cases msg with
  | mouseMove x y => exact hinject (.mouseMoveAbs x.toInt32 y.toInt32)
  | mouseRelMove dx dy => exact hinject (.mouseMoveRel dx.toInt32 dy.toInt32)
  | mouseDown button => exact hinject (.mouseButton button true)
  | mouseUp button => exact hinject (.mouseButton button false)
  | mouseWheel x y => exact hinject (.mouseWheel x y)
  | keyDown id mask button => exact hinject (.key id mask button .down)
  | keyUp id mask button => exact hinject (.key id mask button .up)
  | keyRepeat id mask count button => exact hinject (.key id mask button (.autoRepeat count))
  | _ => rfl

/-- The machine sends nothing of the kind. -/
theorem ServerMachine.handle_sends {m : ServerMachine} {le : LocalEvent} {screen : String}
    {msg : Message} (h : .send screen msg ∈ (m.handle le).2) : msg.partsWays = false := by
  have hout := handle_outcome m le
  generalize (m.handle le).1 = m', (m.handle le).2 = acts at hout h
  cases hout with
  | motion m₁ _ _ hm ho =>
    rcases ho.mem_send h with ⟨-, -, rfl | ⟨p, rfl⟩⟩ | ⟨c, -, -, -, rfl⟩ <;> rfl
  | forward msg' hr hf =>
    rw [List.mem_singleton] at h
    injection h with _ hmsg
    have hinput := forwarded_isInput hf
    rw [hmsg]
    cases msg' <;> first | rfl | cases hinput
  | ignore => cases h

/-- Nor does the controller. -/
theorem Controller.step_said {c : Controller} {ev : ServerEvent} {msg : Message}
    (h : msg ∈ (c.step ev).2.filterMap Effect.said) : msg.partsWays = false := by
  cases ev with
  | «local» le =>
    obtain ⟨screen, hsend⟩ := mem_dispatch h
    exact ServerMachine.handle_sends hsend
  | clientConnected screen size outbound => cases h
  | clientDisconnected screen =>
    simp only [Controller.step, List.filterMap_append, List.mem_append] at h
    rcases h with h | h
    · obtain ⟨target, hsend⟩ := mem_dispatch h
      by_cases hactive : c.machine.active = screen
      · rw [if_pos hactive] at hsend
        exact absurd hsend goHome_sends_nothing
      · rw [if_neg hactive] at hsend
        cases hsend
    · cases h
  | fromClient screen msg' => cases msg' <;> cases h
  | keepAliveTick =>
    rw [(mem_broadcast.mp h).1]
    rfl
  | clipboardOut text =>
    rw [(mem_broadcast.mp h).1]
    rfl

/-! ## What fits into a frame -/

/-- A greeting is short, whatever the name. -/
theorem greeting_fits {layout : ScreenLayout} {name : String} {msg : Message}
    (h : msg ∈ greeting layout name) : msg.oversized = false := by
  rw [Message.oversized_eq]
  unfold greeting at h
  split at h
  all_goals
    simp only [List.mem_cons, List.not_mem_nil, or_false] at h
  · rcases h with rfl | rfl | rfl | rfl | rfl <;> rfl
  · rcases h with rfl | rfl <;> rfl

/-- What the controller says fits, unless it is a text that does not. -/
theorem Controller.step_fits {c : Controller} {ev : ServerEvent} {msg : Message}
    (htext : ∀ text, ev = .clipboardOut text → (utf8 text).length ≤ maxClipboardLen)
    (h : msg ∈ (c.step ev).2.filterMap Effect.said) : msg.oversized = false := by
  have hfits : (Speech.control c ev).Fits := by
    cases ev with
    | clipboardOut text => exact fun _ _ => htext text rfl
    | _ => trivial
  exact ((control_frames c ev).mpr hfits msg h).not_oversized

/-- A task reports what is about its client, and nothing else. -/
theorem told_isAmbient {layout : ScreenLayout} {id : Sender} {p : Phase} {o : Occurrence}
    {ev : ServerEvent} (h : ev ∈ (handleClient layout id p o).2.filterMap ClientAct.told) :
    ev.isAmbient = false := by
  have hnone : ∀ {msgs fails next}, ev ∉ (sendAll msgs fails next []).2.filterMap ClientAct.told := by
    intro msgs fails next hev
    rcases Line.said_sendAll msgs fails next [] with ⟨_, _, -, -, htold⟩ | ⟨-, -, htold⟩
    · rw [htold] at hev
      cases hev
    · rw [htold] at hev
      cases hev
  have hstep := Runtime.handleClient_handled layout id p o
  generalize handleClient layout id p o = r at hstep h
  cases hstep with
  | greets | asks => exact absurd h hnone
  | refuses => exact absurd h hnone
  | admits name x y w hh warp mx my fails =>
    rcases Line.said_sendAll [.infoAck, .resetOptions, .setOptions []] fails (.serving name)
      [.clientConnected name (w.toInt32, hh.toInt32) id] with ⟨_, _, -, -, htold⟩ | ⟨-, -, htold⟩
    · rw [htold] at h
      cases h
    · rw [htold] at h
      rw [List.mem_singleton.mp h]
      rfl
  | still | givesUp => cases h
  | passesOn | leaves =>
    rw [List.mem_singleton.mp h]
    rfl

namespace Line

variable {layout : ScreenLayout} {id : Sender} (l : Line)

theorem proceed_writer (o : Occurrence) : (l.proceed layout id o).1.writer = l.writer := by
  unfold proceed
  split <;> rfl

/-- A task that has begun does not come to have never begun. -/
theorem proceed_begun (htask : l.task ≠ none) (o : Occurrence) :
    (l.proceed layout id o).1.task ≠ none := by
  unfold proceed
  split
  · exact htask
  · exact Option.some_ne_none _

/-- What a task says fits. -/
theorem proceed_fits (hdown : ∀ msg ∈ l.down, msg.oversized = false) (o : Occurrence) :
    ∀ msg ∈ (l.proceed layout id o).1.down, msg.oversized = false := by
  intro msg hmsg
  unfold proceed at hmsg
  split at hmsg
  · exact hdown msg hmsg
  · rcases List.mem_append.mp hmsg with hmsg | hmsg
    · exact hdown msg hmsg
    · exact (handshake_frames _ _ _ _ hmsg).not_oversized

/-- What a task has to report is about its client. -/
theorem proceed_ambient (hpending : ∀ ev ∈ l.pending, ev.isAmbient = false) (o : Occurrence) :
    ∀ ev ∈ (l.proceed layout id o).1.pending, ev.isAmbient = false := by
  intro ev hev
  unfold proceed at hev
  split at hev
  · exact hpending ev hev
  · exact told_isAmbient hev

end Line

/-- A connection never has a text to report. -/
theorem LineStep.ambient {layout : ScreenLayout} {move : Move} {id : Sender} {c : ClientMachine}
    {l l' : Line} (h : LineStep layout move id c l l')
    (hpending : ∀ ev ∈ l.pending, ev.isAmbient = false) :
    ∀ ev ∈ l'.pending, ev.isAmbient = false := by
  cases h with
  | same | queued | wrote | heard | closed => exact hpending
  | accepted => exact fun _ hev => by cases hev
  | @proceeded _ o rest late => exact Line.proceed_ambient { l with up := rest, late } hpending o
  | lost e => exact Line.proceed_ambient l hpending _
  | reported hrest => exact fun ev hev => hpending ev (hrest ▸ List.mem_cons_of_mem _ hev)

namespace Service

open Line

variable {layout : ScreenLayout} {who : Sender → String × ScreenSize} {s : Service} {id : Sender}
  {handed : List Message}

/-- **A step puts nothing on the way that does not fit**, if nothing else is handed over. -/
theorem Goes.fits {move : Move} {c : ClientMachine} {l l' : Line} {more : List Message}
    (h : Goes layout c id l move more l')
    (hdown : ∀ msg ∈ l.down, msg.oversized = false)
    (hqueue : ∀ queue, l.writer = .running queue → ∀ msg ∈ queue, msg.oversized = false)
    (hmore : ∀ msg ∈ more, msg.oversized = false) :
    (∀ msg ∈ l'.down, msg.oversized = false) ∧
      ∀ queue, l'.writer = .running queue → ∀ msg ∈ queue, msg.oversized = false := by
  cases h with
  | same | closed | refused => exact ⟨hdown, hqueue⟩
  | accepted =>
    refine ⟨fun _ hmsg => ?_, fun _ hw => ?_⟩
    · cases hmsg
    · cases hw
  | @proceeded fails o rest late hnext =>
    exact ⟨proceed_fits { l with up := rest, late } hdown o, fun queue hw =>
      hqueue queue ((proceed_writer { l with up := rest, late } o).symm.trans hw)⟩
  | lost e =>
    exact ⟨proceed_fits l hdown _, fun queue hw => hqueue queue ((proceed_writer l _).symm.trans hw)⟩
  | @reported ev rest hpending =>
    refine ⟨hdown, fun queue hw => ?_⟩
    cases ev with
    | clientConnected =>
      -- its writer begins with an empty queue
      injection hw with hw
      rw [← hw]
      exact fun _ hmsg => by cases hmsg
    | clientDisconnected => cases hw
    | _ => exact hqueue queue hw
  | finished => exact ⟨hdown, fun _ hw => by cases hw⟩
  | @wrote fails msg queue hrunning =>
    have hall := hqueue _ hrunning
    refine ⟨fun m hm => ?_, fun queue' hw m hm => ?_⟩
    · rcases List.mem_append.mp hm with hm | hm
      · exact hdown m hm
      · exact hall m (List.mem_singleton.mp hm ▸ List.mem_cons_self)
    · injection hw with hw
      exact hall m (List.mem_cons_of_mem msg (hw ▸ hm))
  | pushed msgs =>
    refine ⟨hdown, fun queue' hw m hm => ?_⟩
    have hw : l.writer.push msgs = .running queue' := hw
    cases hlw : l.writer with
    | running queue =>
      rw [hlw] at hw hmore
      injection hw with hw
      rw [← hw] at hm
      rcases List.mem_append.mp hm with hm | hm
      · exact hqueue queue hlw m hm
      · exact hmore m hm
    | _ =>
      rw [hlw] at hw
      cases hw
  | heard hgone hheard =>
    exact ⟨fun m hm => hdown m (hheard ▸ List.mem_cons_of_mem _ hm), hqueue⟩

/-- No text is copied that is too long for a frame. -/
def TextsFit (moves : List Move) : Prop :=
  ∀ text, .input (.clipboardOut text) rfl ∈ moves → (utf8 text).length ≤ maxClipboardLen

/-- What is handed over is what the controller says. -/
theorem handed_said {move : Move} {msg : Message} (h : msg ∈ s.handed id move) :
    ∃ c ev, ev ∈ s.channel ∧ msg ∈ (Controller.step c ev).2.filterMap Effect.said := by
  have hqueue : ∀ {effs : List Effect}, msg ∈ effs.filterMap (Effect.toQueue id) →
      msg ∈ effs.filterMap Effect.said := by
    intro effs hmem
    obtain ⟨eff, heff, hmsg⟩ := List.mem_filterMap.mp hmem
    refine List.mem_filterMap.mpr ⟨eff, heff, ?_⟩
    cases eff with
    | deliver tx m =>
      by_cases htx : tx = id
      · rwa [Effect.toQueue, if_pos htx] at hmsg
      · rw [Effect.toQueue, if_neg htx] at hmsg
        cases hmsg
    | _ => cases hmsg
  have htakes : ∀ {w : WriterTask} {msgs : List Message}, msg ∈ w.takes msgs → msg ∈ msgs := by
    intro w msgs hmem
    cases w with
    | running queue => exact hmem
    | _ => cases hmem
  unfold handed at h
  split at h
  · rename_i c ev channel _ hchannel
    exact ⟨c, ev, hchannel ▸ List.mem_cons_self, hqueue (htakes h)⟩
  · rename_i done c ev channel _ hchannel
    obtain ⟨eff, heff, hmsg⟩ := List.mem_filterMap.mp (hqueue (htakes h))
    exact ⟨c, ev, hchannel ▸ List.mem_cons_self,
      List.mem_filterMap.mpr ⟨eff, List.mem_of_mem_take heff, hmsg⟩⟩
  · cases h

/-- It is no goodbye. -/
theorem handed_harmless {move : Move} {msg : Message} (h : msg ∈ s.handed id move) :
    msg.partsWays = false := by
  obtain ⟨c, ev, -, hmsg⟩ := handed_said h
  exact Controller.step_said hmsg

/-- Where an event in the channel comes from. -/
theorem mem_channel_step {move : Move} {ev : ServerEvent}
    (h : ev ∈ (s.step layout who move).1.channel) :
    ev ∈ s.channel ∨ (∃ hev, move = .input ev hev) ∨ ∃ i, ev ∈ (s.lines i).pending := by
  have hsend : ∀ {ev'}, ev ∈ (s.send ev').channel → ev ∈ s.channel ∨ ev = ev' := by
    intro ev' hev
    unfold send at hev
    split at hev
    · rcases List.mem_append.mp hev with hev | hev
      · exact .inl hev
      · exact .inr (List.mem_singleton.mp hev)
    · exact .inl hev
  cases move with
  | report i =>
    simp only [step] at h
    cases hpending : (s.lines i).pending with
    | nil =>
      rw [hpending] at h
      exact .inl h
    | cons ev' rest =>
      rw [hpending] at h
      rcases hsend h with h | rfl
      · exact .inl h
      · exact .inr (.inr ⟨i, hpending ▸ List.mem_cons_self⟩)
  | control =>
    simp only [step] at h
    split at h
    · rename_i c ev' channel _ hchannel
      exact .inl (hchannel ▸ List.mem_cons_of_mem ev' h)
    · exact .inl h
  | input ev' hev =>
    rcases hsend h with h | rfl
    · exact .inl h
    · exact .inr (.inl ⟨hev, rfl⟩)
  | stop done => cases h
  | connect i | task i fails | lose i e | hear i | hangUp i =>
    left
    simp only [step] at h
    split at h
    all_goals first | exact h | (split at h <;> exact h)
  | write i fails =>
    left
    simp only [step] at h
    split at h
    · split at h <;> exact h
    · split at h <;> exact h
    · exact h

/-- Whatever a connection has still to carry fits into a frame. -/
structure Fitting (id : Sender) (s : Service) : Prop where
  down : ∀ msg ∈ (s.lines id).down, msg.oversized = false
  queue : ∀ queue, (s.lines id).writer = .running queue → ∀ msg ∈ queue, msg.oversized = false
  channel : ∀ text, .clipboardOut text ∈ s.channel → (utf8 text).length ≤ maxClipboardLen
  /-- The tasks report no texts. -/
  pending : ∀ i, ∀ ev ∈ (s.lines i).pending, ev.isAmbient = false

/-- At first there is nothing on the way. -/
theorem fitting_new (layout : ScreenLayout) (home : String) (id : Sender) :
    Fitting id (new layout home) where
  down := fun _ h => by cases h
  queue := fun _ h => by cases h
  channel := fun _ h => by cases h
  pending := fun _ _ h => by cases h

/-- What is handed over fits. -/
theorem Fitting.handed_fits (h : Fitting id s) {move : Move} {msg : Message}
    (hmsg : msg ∈ s.handed id move) : msg.oversized = false := by
  obtain ⟨c, ev, hev, hsaid⟩ := handed_said hmsg
  refine Controller.step_fits ?_ hsaid
  rintro text rfl
  exact h.channel text hev

/-- **One step.**  No text that is too long, and everything keeps fitting. -/
theorem Fitting.step (h : Fitting id s) {move : Move}
    (htext : ∀ text, move = .input (.clipboardOut text) rfl → (utf8 text).length ≤ maxClipboardLen) :
    Fitting id (s.step layout who move).1 := by
  obtain ⟨hdown, hqueue⟩ :=
    (step_goes layout who s id move).fits h.down h.queue fun _ => h.handed_fits
  refine ⟨hdown, hqueue, fun text hev => ?_, fun i => ?_⟩
  · rcases mem_channel_step hev with hev | ⟨_, hmove⟩ | ⟨i, hev⟩
    · exact h.channel text hev
    · exact htext text hmove
    · -- a task does not copy
      cases h.pending i _ hev
  · have hline : LineStep layout move i (client who i) _ _ := step_line s move i
    exact hline.ambient (h.pending i)

/-- **While every copied text fits, everything on the way does.** -/
theorem run_fitting (layout : ScreenLayout) (home : String) (who : Sender → String × ScreenSize)
    (moves : List Move) (id : Sender) (htexts : TextsFit moves) :
    Fitting id (Mealy.run (step layout who) (new layout home) moves).1 := by
  induction moves using List.reverseRecOn with
  | nil => exact fitting_new layout home id
  | append_singleton moves move ih =>
    rw [Mealy.run_concat]
    refine (ih fun text htext => htexts text (List.mem_append_left _ htext)).step ?_
    rintro text rfl
    exact htexts text (List.mem_append_right _ (List.mem_singleton_self _))

/-! ## The two ends keep it up -/

/-- A connection that its two ends keep up: what it carries is harmless, and nobody has left. -/
structure Kept (layout : ScreenLayout) (who : Sender → String × ScreenSize) (id : Sender)
    (s : Service) : Prop where
  carries : ∃ handed, Carries layout (client who id) handed (s.lines id) ∧
    ∀ msg ∈ handed, msg.partsWays = false
  linked : Linked layout (client who id) (s.lines id)
  stays : (s.lines id).gone = false

/-- The client has left, but was acknowledged before. -/
structure Left (id : Sender) (s : Service) : Prop where
  gone : (s.lines id).gone = true
  begun : (s.lines id).task ≠ none
  acknowledged : .infoAck ∈ (s.lines id).heard

/-- What a client of the layout is about to hear is no goodbye. -/
theorem Kept.harmless (h : Kept layout who id s) (hname : layout.contains (who id).1 = true)
    {msg : Message} (hmsg : msg ∈ (s.lines id).down) : msg.partsWays = false := by
  obtain ⟨handed, hcarries, hhanded⟩ := h.carries
  have hmem := hcarries.said_prefix.subset (List.mem_append_right _ hmsg)
  rw [greeting_known (show layout.contains (client who id).name = true from hname)] at hmem
  rcases List.mem_append.mp hmem with hgreet | hrest
  · simp only [List.mem_cons, List.not_mem_nil, or_false] at hgreet
    rcases hgreet with rfl | rfl | rfl | rfl | rfl <;> rfl
  · exact hhanded msg hrest

/-- What a welcome client has answered fits. -/
theorem Kept.up_fits (h : Kept layout who id s) (hname : Welcome layout (who id).1) {msg : Message}
    (hmsg : msg ∈ (s.lines id).up) : msg.oversized = false := by
  have hlinked := h.linked
  have hstays := h.stays
  generalize s.lines id = l at hlinked hstays hmsg
  cases hlinked with
  | gone hgone =>
    rw [hstays] at hgone
    cases hgone
  | shaking hshaking =>
    generalize l.task = task, l.heard = heard, l.down = down, l.up = up at hshaking hmsg
    cases hshaking with
    | helloBack =>
      rw [List.mem_singleton.mp hmsg]
      exact hname.fits
    | deviceInfo =>
      rw [List.mem_singleton.mp hmsg, Message.oversized_eq]
      rfl
    | _ => cases hmsg
  | served name htask hwelcome hup => exact hup msg hmsg

/-- Whoever is about to read a message that is too long has taken the whole greeting. -/
theorem acknowledged_of_long {l : Line} {c : ClientMachine} {msg : Message} {rest : List Message}
    (h : Carries layout c handed l) (hname : layout.contains c.name = true)
    (hdown : l.down = msg :: rest) (hlong : msg.oversized = true) : .infoAck ∈ l.heard := by
  have hnext : l.heard ++ [msg] <+: greeting layout c.name ++ handed := by
    refine List.IsPrefix.trans ⟨rest, ?_⟩ h.said_prefix
    rw [hdown, List.append_assoc]
    rfl
  have hmem : ∀ {said}, l.heard ++ [msg] <+: said → msg ∈ said :=
    fun hsaid => hsaid.subset (List.mem_append_right _ (List.mem_singleton_self msg))
  have hnot : msg ∉ greeting layout c.name := by
    intro hgreet
    rw [greeting_fits hgreet] at hlong
    cases hlong
  rcases List.prefix_or_prefix_of_prefix hnext (List.prefix_append _ handed) with hshort | hfull
  · exact absurd (hmem hshort) hnot
  · rcases List.prefix_concat_iff.mp hfull with hwhole | hheard
    · exact absurd (hmem (hwhole ▸ List.prefix_refl _)) hnot
    · refine hheard.subset ?_
      rw [greeting_known hname]
      exact .tail _ (.tail _ (.head _))

/-- Unless somebody hangs up, a connection is there after a step, or its client has read a message
    that is too long. -/
theorem step_stays {move : Move} (hstays : (s.lines id).gone = false)
    (hharmless : ∀ msg ∈ (s.lines id).down, msg.partsWays = false) (hmove : move ≠ .hangUp id) :
    ((s.step layout who move).1.lines id).gone = false ∨
      (s.step layout who move).1.lines id = { s.lines id with gone := true } ∧
        ∃ msg rest, (s.lines id).down = msg :: rest ∧ msg.oversized = true := by
  have hgoes := step_goes layout who s id move
  generalize s.handed id move = more, (s.step layout who move).1.lines id = l' at hgoes ⊢
  cases hgoes with
  | accepted => exact .inl rfl
  | proceeded | lost => exact .inl ((proceed_gone _).trans hstays)
  | @heard msg rest hgone hdown =>
    left
    show ((Mealy.run ClientMachine.handle _ _).1.handle msg).2.any ClientAction.disconnects = false
    rw [ClientMachine.handle_disconnects]
    exact hharmless msg (hdown ▸ List.mem_cons_self)
  | refused hdown hlong => exact .inr ⟨rfl, _, _, hdown, hlong⟩
  | closed => exact absurd rfl hmove
  | _ => exact .inl hstays

/-- **One step.**  Unless somebody hangs up, the two ends keep a connection of the layout up, or a
    text that is too long has made the client leave. -/
theorem Kept.step (h : Kept layout who id s) (hname : layout.contains (who id).1 = true) {move : Move}
    (hmove : move ≠ .hangUp id) :
    Kept layout who id (s.step layout who move).1 ∨
      Left id (s.step layout who move).1 ∧
        ∃ msg ∈ (s.lines id).down, msg.oversized = true := by
  obtain ⟨handed, hcarries, hhanded⟩ := h.carries
  rcases step_stays h.stays (fun _ hmsg => h.harmless hname hmsg) hmove with
    hstays | ⟨hl, msg, rest, hdown, hlong⟩
  · left
    refine ⟨⟨handed ++ s.handed id move, carries_step hcarries move, ?_⟩,
      linked_step h.linked (step_line s move id), hstays⟩
    intro msg hmsg
    rcases List.mem_append.mp hmsg with hmsg | hmsg
    · exact hhanded msg hmsg
    · exact handed_harmless hmsg
  · refine .inr ⟨?_, msg, hdown ▸ List.mem_cons_self, hlong⟩
    have hack := acknowledged_of_long hcarries hname hdown hlong
    refine ⟨by rw [hl], ?_, by rwa [hl]⟩
    rw [hl]
    intro htask
    have htask : (s.lines id).task = none := htask
    -- before it is accepted a connection carries nothing
    have hidle := hcarries.idle_of_none htask
    rw [hidle] at hack
    cases hack

/-- **One step.**  A client that has left has been acknowledged for good. -/
theorem Left.step (h : Left id s) (move : Move) : Left id (s.step layout who move).1 := by
  obtain ⟨hgone, hbegun, hack⟩ := h
  have hline : LineStep layout move id (client who id) _ _ := step_line s move id
  generalize hl' : (s.step layout who move).1.lines id = l', hl : s.lines id = l
    at hline hgone hbegun hack
  suffices hsuf : l'.gone = true ∧ l'.task ≠ none ∧ .infoAck ∈ l'.heard by
    rw [← hl'] at hsuf
    exact ⟨hsuf.1, hsuf.2.1, hsuf.2.2⟩
  cases hline with
  | same | reported | queued | wrote => exact ⟨hgone, hbegun, hack⟩
  | closed => exact ⟨rfl, hbegun, hack⟩
  | accepted htask => exact absurd htask hbegun
  | @proceeded _ o rest late =>
    exact ⟨(proceed_gone o).trans hgone, proceed_begun { l with up := rest, late } hbegun o,
      by rwa [proceed_heard]⟩
  | lost e => exact ⟨(proceed_gone _).trans hgone, proceed_begun l hbegun _, by rwa [proceed_heard]⟩
  | heard _ hgone' =>
    rw [hgone] at hgone'
    cases hgone'

/-- At first nobody has broken anything off. -/
theorem kept_new (layout : ScreenLayout) (home : String) (who : Sender → String × ScreenSize)
    (id : Sender) : Kept layout who id (new layout home) where
  carries := ⟨[], carries_idle, fun _ hmsg => by cases hmsg⟩
  linked := .shaking .idle rfl rfl
  stays := rfl

/-- **The connection is kept** in every interleaving. -/
theorem run_kept (layout : ScreenLayout) (home : String) (who : Sender → String × ScreenSize)
    (moves : List Move) (id : Sender) (hname : layout.contains (who id).1 = true)
    (hstays : .hangUp id ∉ moves) (htexts : TextsFit moves) :
    Kept layout who id (Mealy.run (step layout who) (new layout home) moves).1 := by
  induction moves using List.reverseRecOn with
  | nil => exact kept_new layout home who id
  | append_singleton moves move ih =>
    have htexts' : TextsFit moves := fun text htext => htexts text (List.mem_append_left _ htext)
    have hmove : move ≠ .hangUp id := by
      rintro rfl
      exact hstays (List.mem_append_right _ (List.mem_singleton_self _))
    rw [Mealy.run_concat]
    have hkept := ih (fun h => hstays (List.mem_append_left _ h)) htexts'
    rcases hkept.step hname hmove with hkept | ⟨-, msg, hdown, hlong⟩
    · exact hkept
    · rw [(run_fitting layout home who moves id htexts').down msg hdown] at hlong
      cases hlong

/-- The phases a task goes through with a client of the layout. -/
theorem Kept.phase (h : Kept layout who id s) (hname : Welcome layout (who id).1) :
    (s.lines id).task ∈ [none, some .accepted, some .greeted, some (.queried (who id).1),
      some (.serving (who id).1)] := by
  obtain ⟨handed, hcarries, -⟩ := h.carries
  have hlinked := h.linked
  have hstays := h.stays
  generalize s.lines id = l at hcarries hlinked hstays ⊢
  have hended : ∀ result, l.task ≠ some (.ended result) := by
    intro result htask
    cases hlinked with
    | gone hgone =>
      rw [hstays] at hgone
      cases hgone
    | shaking hshaking =>
      rw [htask] at hshaking
      generalize l.heard = heard, l.down = down, l.up = up at hshaking
      cases hshaking with
      | refused _ _ hunwelcome => exact hunwelcome hname
    | served name hserving =>
      rw [htask] at hserving
      cases hserving
  cases hcarries with
  | fresh htask =>
    rcases htask with htask | htask
    · rw [htask]; exact .head _
    · rw [htask]; exact .tail _ (.head _)
  | greeted htask => rw [htask]; exact .tail _ (.tail _ (.head _))
  | queried htask => rw [htask]; exact .tail _ (.tail _ (.tail _ (.head _)))
  | failed result htask => exact absurd htask (hended result)
  | complete _ _ htask => rw [htask]; exact .tail _ (.tail _ (.tail _ (.tail _ (.head _))))
  | served _ _ _ _ htask =>
    rcases htask with ⟨htask, -⟩ | ⟨result, htask, -⟩
    · rw [htask]; exact .tail _ (.tail _ (.tail _ (.tail _ (.head _))))
    · exact absurd htask (hended result)

/-- **Neither end breaks a connection off.**  For any layout, any clients and any interleaving of
    everything else: the connection of a client that the server takes, and which nobody hangs up,
    stays open as long as every copied text fits into a frame; its task never gives up, and serves
    the client under its own name or not yet. -/
theorem unbroken (layout : ScreenLayout) (home : String) (who : Sender → String × ScreenSize)
    (moves : List Move) (id : Sender) (hname : Welcome layout (who id).1)
    (hstays : .hangUp id ∉ moves) (htexts : TextsFit moves) :
    let s := (Mealy.run (step layout who) (new layout home) moves).1
    (s.lines id).gone = false ∧
      (s.lines id).task ∈ [none, some .accepted, some .greeted, some (.queried (who id).1),
        some (.serving (who id).1)] := by
  have hkept := run_kept layout home who moves id hname.known hstays htexts
  exact ⟨hkept.stays, hkept.phase hname⟩

theorem welcome_lap : Welcome twoScreens "lap" := ⟨by decide, by decide⟩

/-- The laptop is accepted and greeted, a text is copied, and a stranger hangs up. -/
theorem unbroken_by_stranger :
    ((Mealy.run (step twoScreens fun _ => ("lap", ⟨1280, 800⟩)) (new twoScreens "srv")
      [.connect 1, .connect 2, .task 1 none, .input (.clipboardOut "hi") rfl, .hangUp 2,
        .hear 1]).1.lines 1).gone = false :=
  (unbroken twoScreens "srv" (fun _ => ("lap", ⟨1280, 800⟩))
    [.connect 1, .connect 2, .task 1 none, .input (.clipboardOut "hi") rfl, .hangUp 2, .hear 1] 1
    welcome_lap (by simp) (by
      intro text htext
      simp only [List.mem_cons, reduceCtorEq, List.not_mem_nil, false_or, or_false] at htext
      injection htext with htext
      injection htext with htext
      rw [htext]
      decide)).1

/-! ## The handshake comes to its end -/

end Service

/-- How many of the seven steps of a handshake are done: the connection is accepted, the task speaks
    three times, and each time the client takes what it said. -/
def Line.progress (l : Line) : Nat :=
  match l.task with
  | none => 0
  | some .accepted => 1
  | some .greeted => 2 + l.heard.length
  | some (.queried _) => 3 + l.heard.length
  | some (.serving _) => if 3 ≤ l.heard.length then 7 else 6
  | some (.ended _) => 0

namespace Line

variable {layout : ScreenLayout} {move : Move} {id : Sender} {c : ClientMachine}
  {handed : List Message} {l l' : Line}

theorem progress_none (h : l.task = none) : l.progress = 0 := by
  unfold progress
  rw [h]

theorem progress_accepted (h : l.task = some .accepted) : l.progress = 1 := by
  unfold progress
  rw [h]

theorem progress_greeted (h : l.task = some .greeted) : l.progress = 2 + l.heard.length := by
  unfold progress
  rw [h]

theorem progress_queried {name : String} (h : l.task = some (.queried name)) :
    l.progress = 3 + l.heard.length := by
  unfold progress
  rw [h]

theorem progress_serving {name : String} (h : l.task = some (.serving name)) :
    l.progress = if 3 ≤ l.heard.length then 7 else 6 := by
  unfold progress
  rw [h]

theorem progress_ended {result : Except ClientError Unit} (h : l.task = some (.ended result)) :
    l.progress = 0 := by
  unfold progress
  rw [h]

theorem progress_congr (htask : l'.task = l.task) (hheard : l'.heard = l.heard) :
    l'.progress = l.progress := by
  unfold progress
  rw [htask, hheard]

/-- Hearing more is progress. -/
theorem progress_take (c : ClientMachine) (l : Line) (msg : Message) (rest : List Message) :
    l.progress ≤ (l.take c msg rest).progress := by
  have hlen : (l.take c msg rest).heard.length = l.heard.length + 1 := List.length_append
  unfold progress
  rw [show (l.take c msg rest).task = l.task from rfl, hlen]
  split
  · exact Nat.le_refl _
  · exact Nat.le_refl _
  · omega
  · omega
  · split <;> split <;> omega
  · exact Nat.le_refl _

/-- A task that has something to read, or to begin with, gets one step further, short of being
    served. -/
theorem progress_proceed {fails : WriteFailure} {o : Occurrence} {rest : List Message} (late : Bool)
    (h : Carries layout c handed l) (hname : layout.contains c.name = true)
    (hstays : l.gone = false) (hup : ∀ msg ∈ l.up, msg.oversized = false)
    (hnext : l.next fails = some (o, rest)) :
    l.progress ≤ ({ l with up := rest, late }.proceed layout id o).1.progress ∧
      min 6 (l.progress + 1) ≤ ({ l with up := rest, late }.proceed layout id o).1.progress := by
  have hcases := next_eq_some hnext
  have hfailing : l.failing fails = none := if_neg (by rw [hstays]; exact Bool.false_ne_true)
  -- a connection that is served is past the handshake
  have hserving : ∀ {k : Line}, l.task = some (.serving c.name) → k.task = some (.serving c.name) →
      k.heard = l.heard → l.progress ≤ k.progress ∧ min 6 (l.progress + 1) ≤ k.progress := by
    intro k htask htask' hheard
    rw [progress_congr (htask'.trans htask.symm) hheard]
    have hsix : 6 ≤ l.progress := by
      rw [progress_serving htask]
      split <;> omega
    omega
  have hended : ∀ {result}, l.task = some (.ended result) → l.task ≠ some .accepted ∧ l.reads ≠ true := by
    intro result htask
    constructor
    · rw [htask]
      exact fun h => by cases h
    · rw [reads, htask]
      exact Bool.false_ne_true
  -- every task but a new one reads what its client has answered
  have hold : l.task ≠ some .accepted → ∃ msg, l.up = msg :: rest ∧ o = .received msg none := by
    intro hne
    rcases hcases with ⟨htask, -, -⟩ | ⟨-, msg, hmsg, rfl⟩
    · exact absurd htask hne
    · refine ⟨msg, hmsg, ?_⟩
      rw [read_fits (hup msg (hmsg ▸ List.mem_cons_self)), hfailing]
  cases h with
  | fresh htask hheard hdown hempty =>
    rcases hcases with ⟨htask, rfl, rfl⟩ | ⟨-, msg, hmsg, -⟩
    · simp only [proceed, htask, handleClient, hfailing, sendAll]
      simp only [progress, htask, hheard]
      omega
    · rw [hempty] at hmsg
      cases hmsg
  | greeted htask hsaid hanswered =>
    obtain ⟨msg, hmsg, rfl⟩ := hold (by rw [htask]; exact fun h => by cases h)
    obtain ⟨hheard, -, rfl, rfl⟩ := greeted_heard hsaid (hmsg.symm.trans hanswered)
    have hdone : ({ l with up := [], late }.proceed layout id
        (.received (.helloBack protocolMajor protocolMinor c.name) none)).1.task =
          some (.queried c.name) ∧
        ({ l with up := [], late }.proceed layout id
        (.received (.helloBack protocolMajor protocolMinor c.name) none)).1.heard = l.heard := by
      simp [proceed, htask, handleClient, hname, sendAll]
    rw [progress_queried hdone.1, hdone.2, progress_greeted htask, hheard]
    decide
  | queried htask _ hsaid hanswered =>
    obtain ⟨msg, hmsg, rfl⟩ := hold (by rw [htask]; exact fun h => by cases h)
    rw [hmsg] at hanswered
    obtain ⟨hheard, -, rfl, x, y, w, hh, warp, mx, my, rfl⟩ := queried_heard hsaid hanswered
    simp only [proceed, htask, handleClient, sendAll]
    simp only [progress, htask, hheard]
    decide
  | failed result htask =>
    rcases hcases with ⟨haccepted, -⟩ | ⟨hr, -⟩
    · exact absurd haccepted (hended htask).1
    · exact absurd hr (hended htask).2
  | complete _ _ htask =>
    obtain ⟨msg, -, rfl⟩ := hold (by rw [htask]; exact fun h => by cases h)
    simp only [proceed, htask, handleClient]
    exact hserving htask rfl rfl
  | served _ _ _ _ htask =>
    rcases htask with ⟨htask, -⟩ | ⟨result, htask, -⟩
    · obtain ⟨msg, -, rfl⟩ := hold (by rw [htask]; exact fun h => by cases h)
      simp only [proceed, htask, handleClient]
      exact hserving htask rfl rfl
    · rcases hcases with ⟨haccepted, -⟩ | ⟨hr, -⟩
      · exact absurd haccepted (hended htask).1
      · exact absurd hr (hended htask).2

/-- After an odd number of steps it is the task's turn, and it can go on. -/
theorem next_of_progress (fails : WriteFailure) (h : Carries layout c handed l)
    (hturn : l.progress = 1 ∨ l.progress = 3 ∨ l.progress = 5) :
    ∃ o rest, l.next fails = some (o, rest) := by
  have hread : ∀ {msg rest}, l.pending = [] → l.task ≠ some .accepted → l.reads = true →
      l.up = msg :: rest → ∃ o rest, l.next fails = some (o, rest) := by
    intro msg rest hpending htask hreads hup
    refine ⟨l.read fails msg, rest, ?_⟩
    unfold next
    rw [if_neg (by rw [hpending]; exact fun h => h rfl), if_neg htask, if_pos hreads, hup]
  cases h with
  | fresh htask hheard hdown hup hpending =>
    rcases htask with htask | htask
    · rw [progress_none htask] at hturn
      omega
    · refine ⟨.start (l.failing fails), l.up, ?_⟩
      unfold next
      rw [if_neg (by rw [hpending]; exact fun h => h rfl), if_pos htask]
  | greeted htask hsaid hup hpending =>
    rcases List.append_eq_singleton_iff.mp hsaid with ⟨hheard, -⟩ | ⟨hheard, -⟩
    · rw [progress_greeted htask, hheard] at hturn
      simp at hturn
    · rw [hheard] at hup
      exact hread hpending (by rw [htask]; exact fun h => by cases h) (by rw [reads, htask]) hup
  | queried htask _ hsaid hup hpending =>
    rw [progress_queried htask] at hturn
    -- it has heard something, and an odd number of steps leaves only both
    have hheard : l.heard = [.hello protocolMajor protocolMinor, .queryInfo] := by
      have hpre : l.heard <+: [.hello protocolMajor protocolMinor, .queryInfo] :=
        hsaid ▸ List.prefix_append l.heard l.down
      refine hpre.eq_of_length ?_
      have hle := hpre.length_le
      have hne : l.heard ≠ [] := by
        intro hnil
        rw [hnil] at hup
        cases hup
      have hpos := List.length_pos_iff.mpr hne
      simp only [List.length_cons, List.length_nil] at hle ⊢
      omega
    rw [hheard] at hup
    injection hup with _ hup
    exact hread hpending (by rw [htask]; exact fun h => by cases h) (by rw [reads, htask]) hup
  | failed result htask =>
    rw [progress_ended htask] at hturn
    omega
  | complete _ _ htask =>
    rw [progress_serving htask] at hturn
    split at hturn <;> omega
  | served _ _ _ _ htask =>
    rcases htask with ⟨htask, -⟩ | ⟨result, htask, -⟩
    · rw [progress_serving htask] at hturn
      split at hturn <;> omega
    · rw [progress_ended htask] at hturn
      omega

/-- After an even number it is the client's, and there is something for it to take. -/
theorem down_of_progress (h : Carries layout c handed l)
    (hturn : l.progress = 2 ∨ l.progress = 4 ∨ l.progress = 6) :
    ∃ msg rest, l.down = msg :: rest ∧ l.progress + 1 ≤ (l.take c msg rest).progress := by
  -- what was said and not heard is on the way
  have hrest : ∀ {said : List Message}, l.heard ++ l.down = said → l.heard.length < said.length →
      ∃ msg rest, l.down = msg :: rest := by
    intro said hsaid hlt
    cases hdown : l.down with
    | nil =>
      rw [hdown, List.append_nil] at hsaid
      rw [hsaid] at hlt
      exact absurd hlt (Nat.lt_irrefl _)
    | cons msg rest => exact ⟨msg, rest, rfl⟩
  have hlen : ∀ msg rest, (l.take c msg rest).heard.length = l.heard.length + 1 :=
    fun _ _ => List.length_append
  have hgo : ∀ {said : List Message}, l.heard ++ l.down = said → l.heard.length < said.length →
      (∀ msg rest, l.progress + 1 ≤ (l.take c msg rest).progress) →
      ∃ msg rest, l.down = msg :: rest ∧ l.progress + 1 ≤ (l.take c msg rest).progress := by
    intro said hsaid hlt hstep
    obtain ⟨msg, rest, hdown⟩ := hrest hsaid hlt
    exact ⟨msg, rest, hdown, hstep msg rest⟩
  have hserving : ∀ written : List Message, l.task = some (.serving c.name) →
      layout.contains c.name = true → l.heard ++ l.down = greeting layout c.name ++ written →
      2 ≤ l.heard.length →
      ∃ msg rest, l.down = msg :: rest ∧ l.progress + 1 ≤ (l.take c msg rest).progress := by
    intro written htask hname hsaid hasked
    have hshort : l.heard.length < 3 := by
      by_contra hge
      rw [progress_serving htask, if_pos (show 3 ≤ l.heard.length by omega)] at hturn
      omega
    rw [greeting_known hname] at hsaid
    refine hgo hsaid (by rw [List.length_append]; simp only [List.length_cons]; omega) ?_
    intro msg rest
    rw [progress_serving htask, progress_serving (l := l.take c msg rest) htask, hlen,
      if_neg (by omega), if_pos (by omega)]
  cases h with
  | fresh htask =>
    rcases htask with htask | htask
    · rw [progress_none htask] at hturn
      omega
    · rw [progress_accepted htask] at hturn
      omega
  | greeted htask hsaid =>
    have hshort : l.heard.length < 1 := by
      have hlen' := congrArg List.length hsaid
      rw [progress_greeted htask] at hturn
      simp only [List.length_append, List.length_cons, List.length_nil] at hlen' hturn
      omega
    refine hgo hsaid hshort fun msg rest => ?_
    rw [progress_greeted htask, progress_greeted (l := l.take c msg rest) htask, hlen]
    omega
  | queried htask _ hsaid =>
    have hshort : l.heard.length < 2 := by
      have hlen' := congrArg List.length hsaid
      rw [progress_queried htask] at hturn
      simp only [List.length_append, List.length_cons, List.length_nil] at hlen' hturn
      omega
    refine hgo hsaid hshort fun msg rest => ?_
    rw [progress_queried htask, progress_queried (l := l.take c msg rest) htask, hlen]
    omega
  | failed result htask =>
    rw [progress_ended htask] at hturn
    omega
  | complete _ _ htask hname hsaid hasked =>
    exact hserving [] htask hname (hsaid.trans (List.append_nil _).symm) hasked
  | served written hname hsaid hasked htask =>
    rcases htask with ⟨htask, -⟩ | ⟨result, htask, -⟩
    · exact hserving written htask hname hsaid hasked
    · rw [progress_ended htask] at hturn
      omega

end Line

namespace Service

open Line

variable {layout : ScreenLayout} {who : Sender → String × ScreenSize} {s : Service} {id : Sender}

/-- Whatever else happens, no step of a handshake is undone. -/
theorem progress_step (h : Kept layout who id s) (hname : Welcome layout (who id).1)
    (move : Move) :
    (s.lines id).progress ≤ ((s.step layout who move).1.lines id).progress := by
  have hup : ∀ msg ∈ (s.lines id).up, msg.oversized = false := fun _ => h.up_fits hname
  obtain ⟨handed, hcarries, -⟩ := h.carries
  have hstays := h.stays
  have hline : LineStep layout move id (client who id) _ _ := step_line s move id
  generalize (s.step layout who move).1.lines id = l' at hline ⊢
  cases hline with
  | same => exact Nat.le_refl _
  | accepted htask =>
    rw [progress_none htask]
    exact Nat.zero_le _
  | proceeded late hnext => exact (progress_proceed late hcarries hname.known hstays hup hnext).1
  | lost e hgone =>
    rw [hstays] at hgone
    cases hgone
  | reported | queued | wrote | closed => exact Nat.le_of_eq (progress_congr rfl rfl).symm
  | heard => exact progress_take _ _ _ _

/-- The task takes its turn. -/
theorem progress_task (h : Kept layout who id s) (hname : Welcome layout (who id).1)
    (fails : WriteFailure)
    (hturn : (s.lines id).progress = 1 ∨ (s.lines id).progress = 3 ∨ (s.lines id).progress = 5) :
    (s.lines id).progress + 1 ≤ ((s.step layout who (.task id fails)).1.lines id).progress := by
  obtain ⟨handed, hcarries, -⟩ := h.carries
  obtain ⟨o, rest, hnext⟩ := next_of_progress fails hcarries hturn
  have hgo := (@progress_proceed layout id _ _ _ _ _ _
    (if (s.lines id).task = some .accepted then s.controller.isNone else (s.lines id).late)
    hcarries hname.known h.stays (fun _ => h.up_fits hname) hnext).2
  simp only [step, hnext, setLine_lines, if_true]
  omega

/-- The client takes its turn, or leaves over a message that is too long. -/
theorem progress_heard (h : Kept layout who id s)
    (hturn : (s.lines id).progress = 2 ∨ (s.lines id).progress = 4 ∨ (s.lines id).progress = 6)
    (hstays : ((s.step layout who (.hear id)).1.lines id).gone = false) :
    (s.lines id).progress + 1 ≤ ((s.step layout who (.hear id)).1.lines id).progress := by
  obtain ⟨handed, hcarries, -⟩ := h.carries
  obtain ⟨msg, rest, hdown, hgo⟩ := down_of_progress hcarries hturn
  simp only [step, hdown, h.stays, Bool.false_eq_true, if_false, setLine_lines, if_true, hear]
    at hstays ⊢
  by_cases hlong : msg.oversized = true
  · rw [if_pos hlong] at hstays
    cases hstays
  · rw [if_neg hlong]
    exact hgo

/-- The connection is accepted. -/
theorem progress_connect (h : Kept layout who id s) (hname : Welcome layout (who id).1) :
    1 ≤ ((s.step layout who (.connect id)).1.lines id).progress := by
  by_cases htask : (s.lines id).task = none
  · simp only [step, htask, if_true, setLine_lines]
    exact Nat.le_refl 1
  · simp only [step, htask, if_false]
    have hphase := h.phase hname
    simp only [List.mem_cons, List.not_mem_nil, or_false, htask, false_or] at hphase
    rcases hphase with hphase | hphase | hphase | hphase
    · rw [progress_accepted hphase]
    · rw [progress_greeted hphase]
      omega
    · rw [progress_queried hphase]
      omega
    · rw [progress_serving hphase]
      split <;> omega

/-- A handshake that is through has made the client believe it is connected. -/
theorem connected_of_progress (h : Kept layout who id s)
    (hname : Welcome layout (who id).1) (hdone : 7 ≤ (s.lines id).progress) :
    (s.lines id).task = some (.serving (who id).1) ∧ Connected who s id := by
  have hphase := h.phase hname
  obtain ⟨handed, hcarries, -⟩ := h.carries
  have hsaid := hcarries.said_prefix
  rw [greeting_known (show layout.contains (client who id).name = true from hname.known)] at hsaid
  generalize hl : s.lines id = l at hcarries hsaid hphase hdone
  have hheard : l.heard <+: [.hello protocolMajor protocolMinor, .queryInfo, .infoAck, .resetOptions,
      .setOptions []] ++ handed := (List.prefix_append _ _).trans hsaid
  have hlong : l.task = some (.serving (who id).1) ∧ 3 ≤ l.heard.length := by
    cases hcarries with
    | fresh htask =>
      rcases htask with htask | htask
      · rw [progress_none htask] at hdone
        omega
      · rw [progress_accepted htask] at hdone
        omega
    | greeted htask hsaid' =>
      have hlen := congrArg List.length hsaid'
      simp only [List.length_append, List.length_cons, List.length_nil] at hlen
      rw [progress_greeted htask] at hdone
      omega
    | queried htask _ hsaid' =>
      have hlen := congrArg List.length hsaid'
      simp only [List.length_append, List.length_cons, List.length_nil] at hlen
      rw [progress_queried htask] at hdone
      omega
    | failed result htask =>
      rw [progress_ended htask] at hdone
      omega
    | complete _ _ htask =>
      refine ⟨htask, ?_⟩
      by_contra hshort
      rw [progress_serving htask, if_neg hshort] at hdone
      omega
    | served _ _ _ _ htask =>
      rcases htask with ⟨htask, -⟩ | ⟨result, htask, -⟩
      · refine ⟨htask, ?_⟩
        by_contra hshort
        rw [progress_serving htask, if_neg hshort] at hdone
        omega
      · rw [progress_ended htask] at hdone
        omega
  refine ⟨hlong.1, connected_iff.mpr ?_⟩
  rw [hl]
  -- the acknowledgement is the third word of the greeting
  have hthird : l.heard[2]? = some .infoAck := by
    obtain ⟨rest, hrest⟩ := hheard
    have hget := congrArg (fun ms : List Message => ms[2]?) hrest
    rwa [List.getElem?_append_left (by omega)] at hget
  exact List.mem_of_getElem? hthird

/-- So many steps of the handshake are done and both ends keep the connection up, or the client has
    left after its acknowledgement. -/
def Along (layout : ScreenLayout) (who : Sender → String × ScreenSize) (id : Sender) (n : Nat)
    (s : Service) : Prop :=
  Left id s ∨ Kept layout who id s ∧ n ≤ (s.lines id).progress

/-- Whatever happens, nothing of it is undone. -/
theorem Along.step {n : Nat} (h : Along layout who id n s) (hname : Welcome layout (who id).1)
    {move : Move} (hmove : move ≠ .hangUp id) : Along layout who id n (s.step layout who move).1 := by
  rcases h with hleft | ⟨hkept, hn⟩
  · exact .inl (hleft.step move)
  · rcases hkept.step hname.known hmove with hkept' | ⟨hleft, -⟩
    · exact .inr ⟨hkept', hn.trans (progress_step hkept hname move)⟩
    · exact .inl hleft

/-- A turn that takes a handshake of just so many steps one further takes every handshake so far. -/
theorem Along.turn {n : Nat} (h : Along layout who id n s) (hname : Welcome layout (who id).1)
    {move : Move} (hmove : move ≠ .hangUp id)
    (hgo : Kept layout who id s → (s.lines id).progress = n →
      Kept layout who id (s.step layout who move).1 →
      (s.lines id).progress + 1 ≤ ((s.step layout who move).1.lines id).progress) :
    Along layout who id (n + 1) (s.step layout who move).1 := by
  rcases h with hleft | ⟨hkept, hn⟩
  · exact .inl (hleft.step move)
  · rcases hkept.step hname.known hmove with hkept' | ⟨hleft, -⟩
    · refine .inr ⟨hkept', ?_⟩
      by_cases heq : (s.lines id).progress = n
      · have := hgo hkept heq hkept'
        omega
      · -- this step of it was taken before
        have := progress_step hkept hname move
        omega
    · exact .inl hleft

/-- **The handshake completes.**  For any layout, any clients and any interleaving of everything
    else, live controller or not: once a connection of a client that the server takes is accepted and
    its two ends have each had three turns, in this order and with anything in between, the client
    believes it is connected, unless somebody hung up; and it is being served, or has left over a
    copied text that is too long for a frame. -/
theorem handshake_completes (layout : ScreenLayout) (home : String)
    (who : Sender → String × ScreenSize) (moves : List Move) (id : Sender)
    (hname : Welcome layout (who id).1) (hstays : .hangUp id ∉ moves)
    {fails₁ fails₂ fails₃ : WriteFailure}
    (hturns : [.connect id, .task id fails₁, .hear id, .task id fails₂, .hear id, .task id fails₃,
      .hear id].Sublist moves) :
    let s := (Mealy.run (step layout who) (new layout home) moves).1
    Connected who s id ∧ ((s.lines id).task = some (.serving (who id).1) ∨
      (s.lines id).gone = true ∧ ¬ TextsFit moves) := by
  have hreached := Mealy.run_reaches (step layout who) (P := Along layout who id)
    (Q := fun move => move ≠ .hangUp id) ?_ ?_ hturns ?_
    (.inr ⟨kept_new layout home who id, Nat.zero_le _⟩)
  · rcases hreached with hleft | ⟨hkept, hdone⟩
    · refine ⟨connected_iff.mpr hleft.acknowledged, .inr ⟨hleft.gone, fun htexts => ?_⟩⟩
      have hgone := hleft.gone
      rw [(run_kept layout home who moves id hname.known hstays htexts).stays] at hgone
      cases hgone
    · have hserving := connected_of_progress hkept hname hdone
      exact ⟨hserving.2, .inl hserving.1⟩
  · exact fun n s move hmove h => h.step hname hmove
  · intro n move hget s h
    have htask : ∀ {fails}, n = 1 ∨ n = 3 ∨ n = 5 →
        Along layout who id (n + 1) (s.step layout who (.task id fails)).1 := by
      intro fails hn
      refine h.turn hname (fun h => by cases h) fun hkept heq _ => ?_
      exact progress_task hkept hname fails (heq ▸ hn)
    have hhear : n = 2 ∨ n = 4 ∨ n = 6 →
        Along layout who id (n + 1) (s.step layout who (.hear id)).1 := by
      intro hn
      refine h.turn hname (fun h => by cases h) fun hkept heq hkept' => ?_
      exact progress_heard hkept (heq ▸ hn) hkept'.stays
    match n, hget with
    | 0, hget =>
      cases hget
      refine h.turn hname (fun h => by cases h) fun hkept heq _ => ?_
      rw [heq]
      exact progress_connect hkept hname
    | 1, hget =>
      cases hget
      exact htask (.inl rfl)
    | 2, hget =>
      cases hget
      exact hhear (.inl rfl)
    | 3, hget =>
      cases hget
      exact htask (.inr (.inl rfl))
    | 4, hget =>
      cases hget
      exact hhear (.inr (.inl rfl))
    | 5, hget =>
      cases hget
      exact htask (.inr (.inr rfl))
    | 6, hget =>
      cases hget
      exact hhear (.inr (.inr rfl))
  · rintro move hmem rfl
    exact hstays hmem

/-- The laptop's handshake, with a tick and the end of the controller in between. -/
theorem handshake_completes_stopped :
    Connected (fun _ => ("lap", ⟨1280, 800⟩)) (Mealy.run
      (step twoScreens fun _ => ("lap", ⟨1280, 800⟩)) (new twoScreens "srv")
      [.connect 1, .task 1 none, .hear 1, .input .keepAliveTick rfl, .task 1 none, .stop 0, .hear 1,
        .task 1 none, .connect 2, .hear 1]).1 1 :=
  (handshake_completes twoScreens "srv" (fun _ => ("lap", ⟨1280, 800⟩)) _ 1 welcome_lap (by simp)
    (.cons_cons _ (.cons_cons _ (.cons_cons _ (.cons _ (.cons_cons _ (.cons _ (.cons_cons _
      (.cons_cons _ (.cons _ (.cons_cons _ .slnil))))))))))).1

end Service

end SelfKvm
