/-
  Screen geometry on its way from a client to the server's layout (`kvm-core/src/client.rs`,
  `kvm-daemon/src/server.rs`).

  A client's screen has 32-bit sides.  It reports them in two 16-bit fields, through a wrapping cast;
  the server widens them again and adopts what it gets, and from then on every crossing, clamp and
  scale trusts the layout.  Neither end looks at the values.

  The far end of a connection is a stranger, who says anything, or one of our own clients, a
  `ClientMachine` that hears anything and answers as it does (`Meeting`).  `geometry_exactly` says
  when the layout is right: all adopted sizes are at least 1x1, and our own clients' sizes are
  adopted as they are, exactly as long as the reported sides are positive and a client of ours that
  is admitted has sides of at most 32767.
-/
import SelfKvm.Core.Agreement
import SelfKvm.Daemon.Admission

namespace SelfKvm

/-! ## Clients at the far end -/

/-- The server with the far ends of its connections. -/
structure Meeting where
  runtime : Runtime
  /-- The clients of our own; at every other connection is a stranger. -/
  peers : Sender → Option ClientMachine
  /-- What such a client has answered and the task has not read. -/
  answers : Sender → List Message

/-- What can happen next. -/
inductive Encounter where
  /-- Anything at the server; but at a client's connection nothing is received this way. -/
  | happens (e : Happening)
  /-- A client hears a message. -/
  | hears (id : Sender) (msg : Message)
  /-- A task reads the oldest answer of the client at its far end. -/
  | reads (id : Sender) (fails : WriteFailure)
  deriving DecidableEq, Repr

namespace Meeting

def new (layout : ScreenLayout) (home : String) (peers : Sender → Option ClientMachine) : Meeting :=
  { runtime := .new layout home, peers, answers := fun _ => [] }

/-- A message that the client at the connection has not said. -/
def forged (m : Meeting) : Happening → Bool
  | .connection id (.received _ _) => (m.peers id).isSome
  | _ => false

/-- What the server makes of an encounter. -/
def happening (m : Meeting) : Encounter → Option Happening
  | .happens e => if m.forged e then none else some e
  | .hears _ _ => none
  | .reads id fails => (m.answers id).head?.map fun msg => .connection id (.received msg fails)

/-- The server's part of a step. -/
def serve (m : Meeting) : Option Happening → Runtime × List (Sender × ServerEvent)
  | some e => m.runtime.step e
  | none => (m.runtime, [])

def step (m : Meeting) (e : Encounter) : Meeting × List (Sender × ServerEvent) :=
  let (runtime, told) := m.serve (m.happening e)
  match e with
  | .happens _ => ({ m with runtime }, told)
  | .hears id msg =>
    match m.peers id with
    | none => ({ m with runtime }, told)
    | some c =>
      let (c, acts) := c.handle msg
      ({ runtime
         peers := Function.update m.peers id (some c)
         answers := Function.update m.answers id
          (m.answers id ++ acts.filterMap ClientAction.said) }, told)
  | .reads id _ =>
    ({ m with runtime, answers := Function.update m.answers id (m.answers id).tail }, told)

/-- The encounter completes a handshake. -/
def Admits (m : Meeting) (e : Encounter) (id : Sender) (name : String) (w h : Int16) : Prop :=
  ∃ e', m.happening e = some e' ∧ m.runtime.Admits e' id name w h

end Meeting

/-- A layout in which every size that a client reported is one of at least a pixel. -/
def Real (told : List (Sender × ServerEvent)) (l : ScreenLayout) : Prop :=
  ∀ id s size tx, (id, .clientConnected s size tx) ∈ told → ∀ z, l.sizeOf s = some z → z.Positive

namespace Meeting

/-- After the step the layout is real, and if a client of ours with a real screen was registered, its
    screen is in the layout as it is. -/
def Measured (told : List (Sender × ServerEvent)) (m : Meeting) (e : Encounter) : Prop :=
  Real (told ++ (m.step e).2) (m.step e).1.runtime.controller.machine.layout ∧
  ∀ id s size tx, (id, .clientConnected s size tx) ∈ (m.step e).2 →
    ∀ c, m.peers id = some c → c.screen.Positive →
      (m.step e).1.runtime.controller.machine.layout.sizeOf s = some c.screen

/-- Whoever is admitted has reported positive sides, and a client of ours with a real screen has a
    screen that survives the 16 bits. -/
def Representable (m : Meeting) (e : Encounter) : Prop :=
  ∀ id name w h, m.Admits e id name w h → 0 < w ∧ 0 < h ∧
    ∀ c, m.peers id = some c → c.screen.Positive → c.screen.w ≤ 32767 ∧ c.screen.h ≤ 32767

/-! ## The cast -/

/-- A positive length survives the wire if and only if it has 15 bits. -/
theorem toInt16_toInt32_iff {x : Int32} (hx : 0 < x) : x.toInt16.toInt32 = x ↔ x ≤ 32767 := by
  have hpos := Int32.lt_iff_toInt_lt.mp hx
  have hlt : x.toInt < 2 ^ 31 := x.toInt_lt
  have hconst : (32767 : Int32).toInt = 32767 := rfl
  rw [Int32.toInt_zero] at hpos
  rw [← Int32.toInt_inj, Int16.toInt_toInt32, Int32.toInt_toInt16, Int32.le_iff_toInt_le, hconst,
    Int.bmod_def]
  omega

theorem toInt32_pos {x : Int16} : 0 < x.toInt32 ↔ 0 < x := by
  rw [Int32.lt_iff_toInt_lt, Int16.lt_iff_toInt_lt, Int16.toInt_toInt32]
  rfl

/-! ## What a client answers -/

/-- The message is no geometry other than that of this screen. -/
def Reports (screen : ScreenSize) (msg : Message) : Prop :=
  ∀ x y w h warp mx my, msg = .deviceInfo x y w h warp mx my →
    w = screen.w.toInt16 ∧ h = screen.h.toInt16

/-- A client's only geometry is its own, and its screen does not change. -/
theorem answers_report (c : ClientMachine) (heard : Message) :
    (c.handle heard).1.screen = c.screen ∧
      ∀ msg ∈ (c.handle heard).2.filterMap ClientAction.said, Reports c.screen msg := by
  have hother : ∀ msg : Message, (∀ x y w h warp mx my, msg ≠ .deviceInfo x y w h warp mx my) →
      Reports c.screen msg :=
    fun msg hmsg x y w h warp mx my heq => absurd heq (hmsg x y w h warp mx my)
  cases heard with
  | hello major minor =>
    refine ⟨rfl, fun msg hm => hother msg ?_⟩
    rw [List.mem_singleton.mp hm]
    exact fun _ _ _ _ _ _ _ h => by cases h
  | queryInfo =>
    refine ⟨rfl, fun msg hm => ?_⟩
    rw [List.mem_singleton.mp hm]
    intro x y w h warp mx my heq
    injection heq with _ _ hw hh
    exact ⟨hw.symm, hh.symm⟩
  | keepAlive =>
    refine ⟨rfl, fun msg hm => hother msg ?_⟩
    rw [List.mem_singleton.mp hm]
    exact fun _ _ _ _ _ _ _ h => by cases h
  | _ =>
    refine ⟨rfl, fun msg hm => ?_⟩
    simp only [ClientMachine.handle, ClientMachine.injectIfActive] at hm
    first | cases hm | (split at hm <;> cases hm)

/-! ## One step -/

/-- What holds between the server and its clients all the time. -/
structure Sound (layout : ScreenLayout) (m : Meeting) : Prop where
  known : m.runtime.Known layout
  /-- The geometry under way is the client's. -/
  reported : ∀ id c, m.peers id = some c → ∀ msg ∈ m.answers id, Reports c.screen msg

theorem sound_new (layout : ScreenLayout) (home : String) (peers : Sender → Option ClientMachine) :
    Sound layout (new layout home peers) :=
  ⟨Runtime.known_new layout home, fun _ _ _ _ h => by cases h⟩

section Step

variable {layout : ScreenLayout} {m : Meeting} {e : Encounter}

/-- What the server does in a step, whatever its far ends do. -/
theorem step_runtime (m : Meeting) (e : Encounter) :
    ((m.step e).1.runtime, (m.step e).2) = m.serve (m.happening e) := by
  cases e with
  | happens e => rfl
  | reads id fails => rfl
  | hears id msg =>
    cases hp : m.peers id with
    | none => simp only [step, hp]
    | some c => simp only [step, hp]

theorem Sound.step (hs : Sound layout m) (e : Encounter) : Sound layout (m.step e).1 where
  known := by
    have hrt := congrArg Prod.fst (step_runtime m e)
    simp only at hrt
    rw [hrt]
    cases m.happening e with
    | none => exact hs.known
    | some e' => exact hs.known.step e'
  reported := by
    cases e with
    | happens e => exact hs.reported
    | reads id fails =>
      intro id' c hc msg hmsg
      refine hs.reported id' c hc msg ?_
      by_cases hid : id' = id
      · subst hid
        simp only [Meeting.step, Function.update_self] at hmsg
        exact List.mem_of_mem_tail hmsg
      · simpa only [Meeting.step, Function.update_of_ne hid] using hmsg
    | hears id heard =>
      cases hp : m.peers id with
      | none =>
        simp only [Meeting.step, hp]
        exact hs.reported
      | some c =>
        obtain ⟨hscreen, hsaid⟩ := answers_report c heard
        intro id' c' hc' msg hmsg
        simp only [Meeting.step, hp] at hc' hmsg
        by_cases hid : id' = id
        · subst hid
          rw [Function.update_self] at hc' hmsg
          injection hc' with hc'
          rw [← hc', hscreen]
          rcases List.mem_append.mp hmsg with hold | hnew
          · exact hs.reported id' c hp msg hold
          · exact hsaid msg hnew
        · rw [Function.update_of_ne hid] at hc' hmsg
          exact hs.reported id' c' hc' msg hmsg

/-- What an admission leaves. -/
theorem Sound.admitted (hs : Sound layout m) {id : Sender} {name : String} {w h : Int16}
    (ha : m.Admits e id name w h) :
    (m.step e).2 = [(id, .clientConnected name (w.toInt32, h.toInt32) id)] ∧
      (m.step e).1.runtime.controller.machine.layout.sizeOf name
        = some ⟨w.toInt32, h.toInt32⟩ ∧
      ∀ s, s ≠ name → (m.step e).1.runtime.controller.machine.layout.sizeOf s
        = m.runtime.controller.machine.layout.sizeOf s := by
  obtain ⟨e', he', ha⟩ := ha
  have hrt := step_runtime m e
  rw [he'] at hrt
  obtain ⟨hrun, htold⟩ := Prod.mk.inj (hrt.trans (Prod.mk.eta (p := m.runtime.step e')).symm)
  rw [hrun, htold]
  refine ⟨by rw [Runtime.step_admits ha], hs.known.adopted ha, fun s hne => ?_⟩
  rw [Runtime.step_admits_sizeOf ha, if_neg hne]

/-- Without an admission every size stays, and nobody is reported. -/
theorem not_admitted (hnone : ∀ id name w h, ¬ m.Admits e id name w h) :
    (m.step e).1.runtime.controller.machine.layout = m.runtime.controller.machine.layout ∧
      ∀ id s size tx, (id, .clientConnected s size tx) ∉ (m.step e).2 := by
  have hrt := step_runtime m e
  cases he' : m.happening e with
  | none =>
    rw [he'] at hrt
    obtain ⟨hrun, htold⟩ := Prod.mk.inj hrt
    rw [hrun, htold]
    exact ⟨rfl, fun _ _ _ _ => List.not_mem_nil⟩
  | some e' =>
    rw [he'] at hrt
    obtain ⟨hrun, htold⟩ := Prod.mk.inj (hrt.trans (Prod.mk.eta (p := m.runtime.step e')).symm)
    rw [hrun, htold]
    rcases m.runtime.admission e' with ⟨id, name, w, h, ha⟩ | ⟨-, hlayout, -, hplain⟩
    · exact absurd ⟨e', he', ha⟩ (hnone id name w h)
    · exact ⟨hlayout, fun id s size tx hmem => hplain _ hmem s size tx rfl⟩

/-- The geometry a client of ours is admitted with is its own, as far as 16 bits go. -/
theorem Sound.own_geometry (hs : Sound layout m) {id : Sender} {name : String} {w h : Int16}
    (ha : m.Admits e id name w h) {c : ClientMachine} (hc : m.peers id = some c) :
    w = c.screen.w.toInt16 ∧ h = c.screen.h.toInt16 := by
  obtain ⟨e', he', -, x, y, warp, mx, my, fails, rfl, -⟩ := ha
  cases e with
  | hears => cases he'
  | happens e =>
    -- a stranger's words do not count here
    simp only [happening] at he'
    split at he'
    · cases he'
    · rename_i hforged
      injection he' with he'
      rw [he', forged, hc] at hforged
      exact absurd rfl hforged
  | reads id' fails' =>
    obtain ⟨msg, hmsg, heq⟩ := Option.map_eq_some_iff.mp he'
    injection heq with hid ho
    injection ho with hmsg'
    subst hid hmsg'
    exact hs.reported id' c hc _ (List.mem_of_mem_head? hmsg) x y w h warp mx my rfl

/-- **One step**: it leaves the layout as it should be if what is reported can be. -/
theorem Sound.measured {told : List (Sender × ServerEvent)} (hs : Sound layout m)
    (hreal : Real told m.runtime.controller.machine.layout) (hrep : m.Representable e) :
    Measured told m e := by
  by_cases ha : ∃ id name w h, m.Admits e id name w h
  · obtain ⟨id, name, w, h, ha⟩ := ha
    obtain ⟨hw, hh, hclient⟩ := hrep id name w h ha
    obtain ⟨htold, hsize, hothers⟩ := hs.admitted ha
    constructor
    · intro id' s size tx hmem z hz
      by_cases hs' : s = name
      · rw [hs', hsize] at hz
        injection hz with hz
        rw [← hz]
        exact ⟨toInt32_pos.mpr hw, toInt32_pos.mpr hh⟩
      · rw [hothers s hs'] at hz
        rw [htold, List.mem_append, List.mem_singleton] at hmem
        rcases hmem with hmem | hmem
        · exact hreal id' s size tx hmem z hz
        · injection hmem with _ hmem
          injection hmem with hname
          exact absurd hname hs'
    · intro id' s size tx hmem c hc hpos
      rw [htold, List.mem_singleton] at hmem
      injection hmem with hid hmem
      injection hmem with hname
      subst hid hname
      obtain ⟨hmaxw, hmaxh⟩ := hclient c hc hpos
      obtain ⟨rfl, rfl⟩ := hs.own_geometry ha hc
      rw [hsize, (toInt16_toInt32_iff hpos.1).mpr hmaxw, (toInt16_toInt32_iff hpos.2).mpr hmaxh]
  · have hnone : ∀ id name w h, ¬ m.Admits e id name w h :=
      fun id name w h hadmits => ha ⟨id, name, w, h, hadmits⟩
    obtain ⟨hlayout, hquiet⟩ := not_admitted hnone
    constructor
    · intro id s size tx hmem z hz
      rw [hlayout] at hz
      rcases List.mem_append.mp hmem with hmem | hmem
      · exact hreal id s size tx hmem z hz
      · exact absurd hmem (hquiet id s size tx)
    · exact fun id s size tx hmem => absurd hmem (hquiet id s size tx)

/-- Conversely, a layout that is as it should be shows what was reported. -/
theorem Sound.representable {told : List (Sender × ServerEvent)} (hs : Sound layout m)
    (hm : Measured told m e) : m.Representable e := by
  intro id name w h ha
  obtain ⟨htold, hsize, -⟩ := hs.admitted ha
  have hnew : (id, .clientConnected name (w.toInt32, h.toInt32) id) ∈ (m.step e).2 := by
    rw [htold]
    exact List.mem_singleton_self _
  obtain ⟨hw, hh⟩ := hm.1 id name _ id (List.mem_append_right told hnew) _ hsize
  refine ⟨toInt32_pos.mp hw, toInt32_pos.mp hh, fun c hc hpos => ?_⟩
  have hown := hm.2 id name _ id hnew c hc hpos
  rw [hsize] at hown
  injection hown with hown
  obtain ⟨rfl, rfl⟩ := hs.own_geometry ha hc
  exact ⟨(toInt16_toInt32_iff hpos.1).mp (congrArg ScreenSize.w hown),
    (toInt16_toInt32_iff hpos.2).mp (congrArg ScreenSize.h hown)⟩

end Step

/-! ## Whole runs -/

/-- **Exactly when adopted geometry is real.**  For any layout, any clients at any of the connections
    and strangers at the others, and any interleaving of handshakes, disconnects and captured input:
    every size adopted from a report is at least 1x1, and every client of ours with a positive screen
    that is registered has its screen in the layout as it is — if and only if every report that
    completes a handshake has positive sides, and no client of ours that completes one has a side
    above 32767. -/
theorem geometry_exactly (layout : ScreenLayout) (home : String)
    (peers : Sender → Option ClientMachine) (es : List Encounter) :
    Mealy.EveryStep step (new layout home peers) es Measured ↔
      Mealy.EveryStep step (new layout home peers) es fun _ m e => m.Representable e := by
  have hsound : ∀ es, Sound layout (Mealy.run step (new layout home peers) es).1 := by
    intro es
    apply Mealy.run_induction step (P := fun _ m _ => Sound layout m)
    · exact sound_new layout home peers
    · exact fun _ _ _ e hs => hs.step e
  constructor
  · exact fun hm js e hpre => (hsound js).representable (hm js e hpre)
  · intro hrep
    have hreal : Mealy.EveryStep step (new layout home peers) es fun told m _ =>
        Sound layout m ∧ Real told m.runtime.controller.machine.layout := by
      refine hrep.invariant _ (P := fun told m =>
        Sound layout m ∧ Real told m.runtime.controller.machine.layout) ?_ ?_
      · exact ⟨sound_new layout home peers, fun _ _ _ _ h => by cases h⟩
      · rintro told m e ⟨hs, hreal⟩ hrepr
        exact ⟨hs.step e, (hs.measured hreal hrepr).1⟩
    exact fun js e hpre => (hreal js e hpre).1.measured (hreal js e hpre).2 (hrep js e hpre)

/-- A client whose screen is 65536 wide reports 0, and the server adopts a screen of width 0. -/
theorem wide_screen_vanishes :
    ¬ ∀ (layout : ScreenLayout) (home : String) (peers : Sender → Option ClientMachine)
      (es : List Encounter), Mealy.EveryStep step (new layout home peers) es Measured := by
  intro hall
  have hm := hall twoScreens "srv" (fun _ => some (.new "lap" ⟨65536, 800⟩))
    [.happens (.connection 1 (.start none)), .hears 1 (.hello 1 9), .reads 1 none,
      .hears 1 .queryInfo, .reads 1 none]
    [.happens (.connection 1 (.start none)), .hears 1 (.hello 1 9), .reads 1 none,
      .hears 1 .queryInfo] (.reads 1 none) (List.prefix_refl _)
  have hown := hm.2 1 "lap" (0, 800) 1 (by decide) (.new "lap" ⟨65536, 800⟩) (by decide) (by decide)
  revert hown
  decide

end Meeting

end SelfKvm
