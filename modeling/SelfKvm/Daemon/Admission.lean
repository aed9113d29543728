/-
  Who is admitted, and what an admission changes (`kvm-daemon/src/server.rs`, `handle_client` and
  the controller).

  The network changes two things of the server's: the sizes in the machine's layout and the table of
  clients.  Both change when a handshake is completed, and the table also when a connection ends; a
  captured event touches neither (`admission`).  So what holds of the layout is decided by the
  handshakes alone.

  A handshake asks for a name that is in the layout, and the local screen is in the layout.
  `primary_safe` says what follows: the local screen's size and its absence from the table are safe
  exactly as long as nobody completes a handshake in its name.
-/
import SelfKvm.Daemon.Connection

namespace SelfKvm

/-! ## What leaves the layout alone -/

namespace ServerMachine

variable {m m' : ServerMachine} {acts : List ServerAction}

theorem MotionOutcome.layout_eq (h : MotionOutcome m m' acts) : m'.layout = m.layout := by
  cases h <;> rfl

@[simp] theorem handle_layout (m : ServerMachine) (le : LocalEvent) :
    (m.handle le).1.layout = m.layout := by
  have hout := handle_outcome m le
  generalize (m.handle le).1 = m', (m.handle le).2 = acts at hout ⊢
  cases hout with
  | motion m₁ _ _ hm ho =>
    obtain ⟨p, rfl, -⟩ := moved_eq_some hm
    exact ho.layout_eq
  | forward => exact trackModifiers_layout le
  | ignore => exact trackModifiers_layout le

@[simp] theorem goHome_layout (m : ServerMachine) : m.goHome.1.layout = m.layout := by
  by_cases hr : m.active = m.localScreen
  · rw [goHome_local hr]
  · rw [goHome_remote hr]
    rfl

end ServerMachine

/-- The event completes no handshake. -/
def ServerEvent.Plain (ev : ServerEvent) : Prop :=
  ∀ screen size tx, ev ≠ .clientConnected screen size tx

namespace Controller

variable {c : Controller} {ev : ServerEvent}

theorem step_layout (h : ev.Plain) : (c.step ev).1.machine.layout = c.machine.layout := by
  cases ev with
  | «local» le => exact ServerMachine.handle_layout c.machine le
  | clientConnected screen size tx => exact absurd rfl (h screen size tx)
  | clientDisconnected screen =>
    simp only [step]
    by_cases hactive : c.machine.active = screen
    · rw [if_pos hactive]
      exact ServerMachine.goHome_layout c.machine
    · rw [if_neg hactive]
  | fromClient screen msg => rw [Runtime.step_fromClient]
  | keepAliveTick => rfl
  | clipboardOut text => rfl

theorem step_clients (h : ev.Plain) {s : String} (hs : s ∈ (c.step ev).1.clients) :
    s ∈ c.clients := by
  cases ev with
  | clientConnected screen size tx => exact absurd rfl (h screen size tx)
  | clientDisconnected screen => exact (AList.mem_erase.mp hs).2
  | fromClient screen msg => rwa [Runtime.step_fromClient] at hs
  | _ => exact hs

/-- A run of plain events, for the few that a task reports at once. -/
theorem run_plain {evs : List ServerEvent} (h : ∀ ev ∈ evs, ev.Plain) :
    (Mealy.run step c evs).1.machine.layout = c.machine.layout ∧
      ∀ s, s ∈ (Mealy.run step c evs).1.clients → s ∈ c.clients := by
  induction evs generalizing c with
  | nil => exact ⟨rfl, fun _ hs => hs⟩
  | cons ev evs ih =>
    have hev := h ev List.mem_cons_self
    obtain ⟨hlayout, hclients⟩ := ih (c := (c.step ev).1) fun e he => h e (List.mem_cons_of_mem ev he)
    rw [Mealy.run_cons]
    exact ⟨hlayout.trans (step_layout hev), fun s hs => step_clients hev (hclients s hs)⟩

end Controller

/-! ## Admissions -/

namespace Runtime

variable {r : Runtime} {e : Happening}

/-- The step completes the handshake of `id`, whose peer has said it is `name` and now reports a
    screen of `w` by `h`. -/
def Admits (r : Runtime) (e : Happening) (id : Sender) (name : String) (w h : Int16) : Prop :=
  r.handlers id = .queried name ∧ ∃ x y warp mx my, ∃ fails : WriteFailure,
    e = .connection id (.received (.deviceInfo x y w h warp mx my) fails) ∧ fails.Spares 3

/-- What a step comes to, as far as the layout and the table are concerned. -/
inductive Admission (r : Runtime) (e : Happening) : Prop
  | admitted (id : Sender) (name : String) (w h : Int16) (ha : r.Admits e id name w h)
  /-- Nobody is admitted, and nothing is added. -/
  | otherwise (hnone : ∀ id name w h, ¬ r.Admits e id name w h)
      (hlayout : (r.step e).1.controller.machine.layout = r.controller.machine.layout)
      (hclients : ∀ s, s ∈ (r.step e).1.controller.clients → s ∈ r.controller.clients)
      (htold : ∀ t ∈ (r.step e).2, t.2.Plain)

/-- An admission in full. -/
theorem step_admits {id : Sender} {name : String} {w h : Int16} (ha : r.Admits e id name w h) :
    r.step e = ({ r with
        handlers := Function.update r.handlers id (.serving name)
        controller := (r.controller.step (.clientConnected name (w.toInt32, h.toInt32) id)).1 },
      [(id, .clientConnected name (w.toInt32, h.toInt32) id)]) := by
  obtain ⟨hp, x, y, warp, mx, my, fails, rfl, hspares⟩ := ha
  have hsent : sendAll [.infoAck, .resetOptions, .setOptions []] fails (.serving name)
      [.clientConnected name (w.toInt32, h.toInt32) id] = (.serving name,
        [.reply .infoAck, .reply .resetOptions, .reply (.setOptions []),
          .report (.clientConnected name (w.toInt32, h.toInt32) id)]) := sendAll_spares hspares
  simp only [step, hp, handleClient, hsent]
  rfl

/-- A report of a new client is the end of a handshake. -/
theorem mem_told_connected {layout : ScreenLayout} {id : Sender} {p : Phase} {o : Occurrence}
    {name : String} {size : Int32 × Int32} {tx : Sender}
    (hmem : .clientConnected name size tx ∈
      (handleClient layout id p o).2.filterMap ClientAct.told) :
    p = .queried name ∧ ∃ x y w h warp mx my, ∃ fails : WriteFailure,
      o = .received (.deviceInfo x y w h warp mx my) fails ∧ fails.Spares 3 := by
  have hquiet : ∀ {msgs fails next}, .clientConnected name size tx ∉
      (sendAll msgs fails next []).2.filterMap ClientAct.told := by
    intro msgs fails next hm
    cases (sendAll_report hm).2
  have hstep := handleClient_handled layout id p o
  generalize handleClient layout id p o = r at hstep hmem
  cases hstep with
  | still => cases hmem
  | greets => exact absurd hmem hquiet
  | refuses => exact absurd hmem hquiet
  | asks => exact absurd hmem hquiet
  | admits name' x y w h warp mx my fails =>
    obtain ⟨hspares, hmem⟩ := sendAll_report hmem
    injection List.mem_singleton.mp hmem with hname
    exact ⟨by rw [hname], x, y, w, h, warp, mx, my, fails, rfl, hspares⟩
  | passesOn => simp [ClientAct.told] at hmem
  | leaves => simp [ClientAct.told] at hmem
  | givesUp => cases hmem

/-- **Nothing else adds to the table or changes a size.** -/
theorem admission (r : Runtime) (e : Happening) : Admission r e := by
  by_cases ha : ∃ id name w h, r.Admits e id name w h
  · obtain ⟨id, name, w, h, ha⟩ := ha
    exact .admitted id name w h ha
  have hnone : ∀ id name w h, ¬ r.Admits e id name w h :=
    fun id name w h hadmits => ha ⟨id, name, w, h, hadmits⟩
  cases e with
  | captured le =>
    exact .otherwise hnone (ServerMachine.handle_layout _ le) (fun _ hs => hs) fun t ht => by cases ht
  | tick => exact .otherwise hnone rfl (fun _ hs => hs) fun t ht => by cases ht
  | copied text => exact .otherwise hnone rfl (fun _ hs => hs) fun t ht => by cases ht
  | connection id o =>
    have hplain : ∀ ev ∈ (handleClient r.layout id (r.handlers id) o).2.filterMap ClientAct.told,
        ev.Plain := by
      rintro _ hmem name size tx rfl
      obtain ⟨hp, x, y, w, h, warp, mx, my, fails, rfl, hspares⟩ := mem_told_connected hmem
      exact hnone id name w h ⟨hp, x, y, warp, mx, my, fails, rfl, hspares⟩
    obtain ⟨hlayout, hclients⟩ := Controller.run_plain (c := r.controller) hplain
    refine .otherwise hnone hlayout hclients fun t ht => ?_
    obtain ⟨ev, hev, rfl⟩ := List.mem_map.mp ht
    exact hplain ev hev

/-- What an admission leaves in the layout and in the table. -/
theorem step_admits_sizeOf {id : Sender} {name : String} {w h : Int16} (ha : r.Admits e id name w h)
    (s : String) :
    (r.step e).1.controller.machine.layout.sizeOf s =
      if s = name then (r.controller.machine.layout.sizeOf s).map fun _ => ⟨w.toInt32, h.toInt32⟩
      else r.controller.machine.layout.sizeOf s := by
  rw [step_admits ha]
  exact sizeOf_setScreenSize r.controller.machine name w.toInt32 h.toInt32 s

theorem step_admits_mem {id : Sender} {name : String} {w h : Int16} (ha : r.Admits e id name w h)
    {s : String} :
    s ∈ (r.step e).1.controller.clients ↔ s = name ∨ s ∈ r.controller.clients := by
  rw [step_admits ha]
  exact AList.mem_insert r.controller.clients

/-- A task asks only a peer whose name is in the layout for its geometry. -/
theorem handleClient_queried {layout : ScreenLayout} {id : Sender} {p : Phase} {o : Occurrence}
    {name : String} (h : (handleClient layout id p o).1 = .queried name) :
    p = .queried name ∨ layout.contains name = true := by
  -- a send goes where it was meant to go or ends the task
  have hsend : ∀ {msgs fails next reports}, (sendAll msgs fails next reports).1 = .queried name →
      next = .queried name := by
    intro msgs fails next reports hs
    rcases sendAll_told msgs fails next reports with ⟨result, h₁, -⟩ | ⟨h₁, -⟩
    · rw [h₁] at hs
      cases hs
    · rwa [h₁] at hs
  have hstep := handleClient_handled layout id p o
  generalize handleClient layout id p o = r at hstep h
  cases hstep with
  | still => exact .inl h
  | greets => cases hsend h
  | asks minor name' fails hname =>
    injection hsend h with heq
    exact .inr (heq ▸ hname)
  | admits => cases hsend h
  | refuses | passesOn | leaves | givesUp => cases h

/-- The machine's layout has the configured screens, and they are all that is asked about. -/
structure Known (layout : ScreenLayout) (r : Runtime) : Prop where
  config : r.layout = layout
  names : ∀ s, r.controller.machine.layout.contains s = layout.contains s
  queried : ∀ id name, r.handlers id = .queried name → layout.contains name = true

theorem known_new (layout : ScreenLayout) (home : String) : Known layout (new layout home) :=
  ⟨rfl, fun _ => rfl, fun _ _ h => by cases h⟩

theorem contains_eq (l : ScreenLayout) (s : String) : l.contains s = (l.sizeOf s).isSome :=
  Option.isSome_map.symm

theorem Known.step {layout : ScreenLayout} (hk : Known layout r) (e : Happening) :
    Known layout (r.step e).1 where
  config := by
    cases e <;> exact hk.config
  names := by
    intro s
    rw [← hk.names s, contains_eq, contains_eq]
    rcases r.admission e with ⟨id, name, w, h, ha⟩ | ⟨-, hlayout, -, -⟩
    · rw [step_admits_sizeOf ha]
      by_cases hs : s = name
      · rw [if_pos hs, Option.isSome_map]
      · rw [if_neg hs]
    · rw [hlayout]
  queried := by
    intro id name hq
    cases e with
    | connection id' o =>
      have hhandlers : (r.step (.connection id' o)).1.handlers =
          Function.update r.handlers id' (handleClient r.layout id' (r.handlers id') o).1 := rfl
      rw [hhandlers] at hq
      by_cases hid : id = id'
      · subst hid
        rw [Function.update_self] at hq
        rcases handleClient_queried hq with hp | hcontains
        · exact hk.queried id name hp
        · rwa [hk.config] at hcontains
      · rw [Function.update_of_ne hid] at hq
        exact hk.queried id name hq
    | captured le => exact hk.queried id name hq
    | tick => exact hk.queried id name hq
    | copied text => exact hk.queried id name hq

/-- The size that is reported is the size that is adopted. -/
theorem Known.adopted {layout : ScreenLayout} (hk : Known layout r) {id : Sender} {name : String}
    {w h : Int16} (ha : r.Admits e id name w h) :
    (r.step e).1.controller.machine.layout.sizeOf name = some ⟨w.toInt32, h.toInt32⟩ := by
  have hsome : (r.controller.machine.layout.sizeOf name).isSome = true := by
    rw [← contains_eq, hk.names]
    exact hk.queried id name ha.1
  obtain ⟨z, hz⟩ := Option.isSome_iff_exists.mp hsome
  rw [step_admits_sizeOf ha, if_pos rfl, hz]
  rfl

/-! ## The local screen -/

/-- The local screen has its configured size, and nobody is connected as it. -/
def PrimarySafe (layout : ScreenLayout) (home : String) (r : Runtime) : Prop :=
  r.controller.machine.layout.sizeOf home = layout.sizeOf home ∧ home ∉ r.controller.clients

/-- One step keeps it, unless it admits somebody as the local screen. -/
theorem PrimarySafe.step {layout : ScreenLayout} {home : String} (hsafe : PrimarySafe layout home r)
    (hown : ∀ id w h, ¬ r.Admits e id home w h) : PrimarySafe layout home (r.step e).1 := by
  obtain ⟨hsize, hclient⟩ := hsafe
  rcases r.admission e with ⟨id, name, w, h, ha⟩ | ⟨-, hlayout, hclients, -⟩
  · have hname : home ≠ name := by
      rintro rfl
      exact hown id w h ha
    constructor
    · rw [step_admits_sizeOf ha, if_neg hname, hsize]
    · rw [step_admits_mem ha]
      rintro (hhome | hhome)
      · exact hname hhome
      · exact hclient hhome
  · constructor
    · rw [ScreenLayout.sizeOf, hlayout]
      exact hsize
    · exact fun hhome => hclient (hclients home hhome)

/-- **Exactly when the primary screen is safe.**  For any layout and any interleaving of handshakes,
    disconnects and captured input: the local screen keeps the size it was configured with and the
    table never has an entry for it, if and only if nobody completes a handshake in its name. -/
theorem primary_safe (layout : ScreenLayout) (home : String) (es : List Happening) :
    Mealy.EveryStep step (new layout home) es
        (fun _ r e => PrimarySafe layout home (r.step e).1) ↔
      Mealy.EveryStep step (new layout home) es
        fun _ r e => ∀ id w h, ¬ r.Admits e id home w h := by
  constructor
  · refine fun hsafe => hsafe.mono _ fun _ r e hs id w h ha => ?_
    exact hs.2 ((step_admits_mem ha).mpr (.inl rfl))
  · intro hown
    have hbefore : Mealy.EveryStep step (new layout home) es fun _ r _ =>
        PrimarySafe layout home r := by
      refine hown.invariant _ (P := fun _ r => PrimarySafe layout home r) ?_ ?_
      · exact ⟨rfl, fun h => by cases h⟩
      · exact fun _ _ _ hs hh => hs.step hh
    exact fun js e hpre => (hbefore js e hpre).step (hown js e hpre)

/-- A peer says it is the server's own screen, of one pixel: it is in the table, and the local screen
    has one pixel. -/
theorem primary_impersonated :
    ¬ ∀ (layout : ScreenLayout) (home : String) (es : List Happening),
      layout.contains home = true → Mealy.EveryStep step (new layout home) es
        fun _ r e => PrimarySafe layout home (r.step e).1 := by
  intro hall
  have hsafe := hall twoScreens "srv"
    [.connection 1 (.start none), .connection 1 (.received (.helloBack 1 9 "srv") none),
      .connection 1 (.received (.deviceInfo 0 0 1 1 0 0 0) none)] (by decide)
    [.connection 1 (.start none), .connection 1 (.received (.helloBack 1 9 "srv") none)]
    (.connection 1 (.received (.deviceInfo 0 0 1 1 0 0 0) none)) (List.prefix_refl _)
  revert hsafe
  unfold PrimarySafe
  decide

end Runtime

end SelfKvm
