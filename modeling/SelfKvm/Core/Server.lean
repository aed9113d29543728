/-
  The server-side routing brain (`kvm-core/src/server.rs`).

  `ServerMachine` takes captured events and answers with the actions the runtime must carry out.
  It is a pure state machine; `ServerOp` gathers the calls that drive it, so that a run is a list
  of calls (`ServerMachine.step`).

  What a call can do is said once, at the end of the file.  `MotionOutcome` lists the four things a
  motion can come to (nothing, a forwarded move, a return home, an arrival on a client screen) with
  the exact actions of each, and `motion_outcome` says that there are no others; `handle_outcome`
  does the same for a whole event.  No later proof looks into `tryCross` again.
-/
import SelfKvm.Core.Events
import SelfKvm.Core.Layout

namespace SelfKvm

/-! ## The code -/

/-- Something the runtime must do as a result of an input event. -/
inductive ServerAction where
  /-- Send `msg` to the client owning `screen`. -/
  | send (screen : String) (msg : Message)
  /-- Start or stop grabbing local input. -/
  | setGrab (on : Bool)
  /-- Warp the local cursor. -/
  | warpCursor (x y : Int32)
  | activeChanged (screen : String)
  deriving DecidableEq, Repr

structure ServerMachine where
  layout : ScreenLayout
  localScreen : String
  active : String
  cursorX : Int32
  cursorY : Int32
  modifiers : KeyModifierMask
  seq : UInt32
  /-- When true, the cursor is pinned to the active screen. -/
  switchLocked : Bool

def modifierBitFor (id : KeyId) : KeyModifierMask :=
  if id = Key.shiftL ∨ id = Key.shiftR then Modifier.shift
  else if id = Key.controlL ∨ id = Key.controlR then Modifier.control
  else if id = Key.altL then Modifier.alt
  else if id = Key.altR then Modifier.altGr
  else if id = Key.superL ∨ id = Key.superR then Modifier.super
  else if id = Key.metaL ∨ id = Key.metaR then Modifier.«meta»
  else 0

/-- How far inside the local screen a returning cursor lands. -/
def inset : Int32 := 2

namespace ServerMachine

/-- The centre of a screen, the origin if it is unknown. -/
def centre (layout : ScreenLayout) (screen : String) : Int32 × Int32 :=
  ((layout.sizeOf screen).map fun s => (s.w / 2, s.h / 2)).getD (0, 0)

/-- A machine whose cursor starts at the centre of the local screen. -/
def new (layout : ScreenLayout) (localScreen : String) : ServerMachine :=
  let (cx, cy) := centre layout localScreen
  { layout, localScreen, active := localScreen, cursorX := cx, cursorY := cy, modifiers := 0,
    seq := 0, switchLocked := false }

def setLock (m : ServerMachine) (locked : Bool) : ServerMachine := { m with switchLocked := locked }

def toggleLock (m : ServerMachine) : ServerMachine := { m with switchLocked := !m.switchLocked }

/-- True while the cursor is on a remote screen. -/
def isRemote (m : ServerMachine) : Bool := m.active ≠ m.localScreen

/-- Update a screen's size; nothing happens if the screen is not in the layout. -/
def setScreenSize (m : ServerMachine) (screen : String) (w h : Int32) : ServerMachine :=
  { m with layout := m.layout.modify screen fun node => { node with size := ⟨w, h⟩ } }

/-- Force control back to the local screen, releasing any grab. -/
def goHome (m : ServerMachine) : ServerMachine × List ServerAction :=
  if !m.isRemote then
    (m, [])
  else
    let (cx, cy) := centre m.layout m.localScreen
    ({ m with active := m.localScreen, cursorX := cx, cursorY := cy },
      [.setGrab false, .warpCursor cx cy, .activeChanged m.localScreen])

def sendActive (m : ServerMachine) (msg : Message) : List ServerAction := [.send m.active msg]

/-- `Ord::clamp`. -/
def ordClamp (v lo hi : Int32) : Int32 := if v < lo then lo else if hi < v then hi else v

/-- Pull a coordinate a few pixels inside the local screen's edges. -/
def insetToLocal (m : ServerMachine) (x y : Int32) : Int32 × Int32 :=
  match m.layout.sizeOf m.localScreen with
  | some s =>
    (ordClamp x inset (max (s.w - 1 - inset) inset), ordClamp y inset (max (s.h - 1 - inset) inset))
  | none => (x, y)

def trackModifiers (m : ServerMachine) : LocalEvent → ServerMachine
  | .key id mask _ action =>
    let bit := modifierBitFor id
    if bit ≠ 0 then
      match action with
      | .down => { m with modifiers := mask ||| bit }
      | .up => { m with modifiers := mask &&& ~~~bit }
      | .autoRepeat _ => { m with modifiers := mask }
    else
      { m with modifiers := mask }
  | _ => m

/-- The crossing the cursor makes where it is, if any; none while locked. -/
def crossing (m : ServerMachine) : Option Crossing :=
  if m.switchLocked then
    none
  else
    -- the local cursor cannot pass its last pixel, the virtual one must
    let margin := if m.isRemote then 0 else 1
    m.layout.detectCrossing m.active m.cursorX m.cursorY margin

/-- Test the virtual cursor against the screen edges and produce the actions for staying put,
    returning home or going to a client. -/
def tryCross (m : ServerMachine) : ServerMachine × List ServerAction :=
  match m.crossing with
  | none =>
    if m.isRemote then
      let (cx, cy) := m.layout.clampTo m.active m.cursorX m.cursorY
      let m := { m with cursorX := cx, cursorY := cy }
      (m, m.sendActive (.mouseMove cx.toInt16 cy.toInt16))
    else
      (m, [])
  | some crossing =>
    let leaving := m.active
    let leavingWasLocal := leaving = m.localScreen
    let entering := crossing.target
    let (entryX, entryY) :=
      if entering = m.localScreen then
        m.insetToLocal crossing.entryX crossing.entryY
      else
        (crossing.entryX, crossing.entryY)
    let m := { m with cursorX := entryX, cursorY := entryY }
    let leave := if ¬leavingWasLocal then [ServerAction.send leaving .leave] else []
    let m := { m with active := entering }
    if entering = m.localScreen then
      (m, leave ++ [.setGrab false, .warpCursor entryX entryY] ++ [.activeChanged entering])
    else
      let m := { m with seq := m.seq + 1 }
      let grab := if leavingWasLocal then [ServerAction.setGrab true] else []
      (m, leave ++ grab ++
        [.send entering (.enter crossing.entryX.toInt16 crossing.entryY.toInt16 m.seq m.modifiers)]
        ++ [.activeChanged entering])

/-- The cursor is on the local screen: only motions matter. -/
def handleLocal (m : ServerMachine) : LocalEvent → ServerMachine × List ServerAction
  | .motionAbs x y => { m with cursorX := x, cursorY := y }.tryCross
  | .motionRel dx dy => { m with cursorX := m.cursorX + dx, cursorY := m.cursorY + dy }.tryCross
  | _ => (m, [])

/-- The cursor is on a client's screen: input is forwarded. -/
def handleRemote (m : ServerMachine) : LocalEvent → ServerMachine × List ServerAction
  | .motionRel dx dy => { m with cursorX := m.cursorX + dx, cursorY := m.cursorY + dy }.tryCross
  | .motionAbs _ _ => (m, [])
  | .button button pressed =>
    (m, m.sendActive (if pressed then .mouseDown button else .mouseUp button))
  | .wheel x y => (m, m.sendActive (.mouseWheel x y))
  | .key id mask button action =>
    (m, m.sendActive (match action with
      | .down => .keyDown id mask button
      | .up => .keyUp id mask button
      | .autoRepeat count => .keyRepeat id mask count button))

/-- Drive the machine with one captured event. -/
def handle (m : ServerMachine) (ev : LocalEvent) : ServerMachine × List ServerAction :=
  let m := m.trackModifiers ev
  if m.isRemote then m.handleRemote ev else m.handleLocal ev

end ServerMachine

/-- The calls that drive a machine. -/
inductive ServerOp where
  | handle (ev : LocalEvent)
  | setLock (locked : Bool)
  | toggleLock
  | goHome
  | setScreenSize (screen : String) (w h : Int32)
  deriving DecidableEq, Repr

/-- One call; those that return no actions answer with none. -/
def ServerMachine.step (m : ServerMachine) : ServerOp → ServerMachine × List ServerAction
  | .handle ev => m.handle ev
  | .setLock locked => (m.setLock locked, [])
  | .toggleLock => (m.toggleLock, [])
  | .goHome => m.goHome
  | .setScreenSize screen w h => (m.setScreenSize screen w h, [])

/-! ## What a motion can do -/

namespace ServerMachine

variable {m : ServerMachine}

@[simp] theorem isRemote_iff : m.isRemote = true ↔ m.active ≠ m.localScreen := by
  unfold isRemote
  exact decide_eq_true_iff

theorem not_isRemote_iff : m.isRemote = false ↔ m.active = m.localScreen := by
  unfold isRemote
  simp

/-- The farewell to the screen that is left, when it is a client's. -/
def leaving (m : ServerMachine) : List ServerAction :=
  if m.isRemote then [.send m.active .leave] else []

/-- The grab, when input was not grabbed before. -/
def grabbing (m : ServerMachine) : List ServerAction := if m.isRemote then [] else [.setGrab true]

/-- The machine with its cursor elsewhere. -/
def withCursor (m : ServerMachine) (p : Int32 × Int32) : ServerMachine :=
  { m with cursorX := p.1, cursorY := p.2 }

/-- The machine after it has entered a client screen. -/
def entered (m : ServerMachine) (c : Crossing) : ServerMachine :=
  { m with active := c.target, cursorX := c.entryX, cursorY := c.entryY, seq := m.seq + 1 }

/-- The message that announces the cursor to the screen it enters. -/
def enterMsg (m : ServerMachine) (c : Crossing) : Message :=
  .enter c.entryX.toInt16 c.entryY.toInt16 (m.seq + 1) m.modifiers

/-- The machine after its cursor has come home. -/
def returned (m : ServerMachine) (c : Crossing) : ServerMachine :=
  { m with
    active := m.localScreen
    cursorX := (m.insetToLocal c.entryX c.entryY).1
    cursorY := (m.insetToLocal c.entryX c.entryY).2 }

/-- The move that is forwarded when the cursor stays on a client screen. -/
def moveMsg (p : Int32 × Int32) : Message := .mouseMove p.1.toInt16 p.2.toInt16

/-- Only a client screen is bidden farewell. -/
theorem leaving_cases (m : ServerMachine) :
    m.active = m.localScreen ∧ m.leaving = [] ∨
    m.active ≠ m.localScreen ∧ m.leaving = [.send m.active .leave] := by
  unfold leaving
  by_cases hr : m.active = m.localScreen
  · rw [not_isRemote_iff.mpr hr]
    exact .inl ⟨hr, rfl⟩
  · rw [isRemote_iff.mpr hr]
    exact .inr ⟨hr, rfl⟩

theorem grabbing_local {m : ServerMachine} (h : m.active = m.localScreen) :
    m.grabbing = [.setGrab true] := by
  unfold grabbing
  rw [not_isRemote_iff.mpr h]
  rfl

theorem grabbing_remote {m : ServerMachine} (h : m.active ≠ m.localScreen) : m.grabbing = [] := by
  unfold grabbing
  rw [isRemote_iff.mpr h]
  rfl

/-- What testing the edges can come to, with the exact actions. -/
inductive MotionOutcome (m : ServerMachine) : ServerMachine → List ServerAction → Prop
  /-- The cursor stays on the local screen; the system owns it. -/
  | stay (hc : m.crossing = none) (hr : m.active = m.localScreen) : MotionOutcome m m []
  /-- The cursor stays on a client screen, clamped, and the move is forwarded. -/
  | move (hc : m.crossing = none) (hr : m.active ≠ m.localScreen) :
      MotionOutcome m (m.withCursor (m.layout.clampTo m.active m.cursorX m.cursorY))
        [.send m.active (moveMsg (m.layout.clampTo m.active m.cursorX m.cursorY))]
  /-- The cursor comes home. -/
  | home (c : Crossing) (hc : m.crossing = some c) (ht : c.target = m.localScreen) :
      MotionOutcome m (m.returned c) (m.leaving ++
        [.setGrab false, .warpCursor (m.returned c).cursorX (m.returned c).cursorY,
          .activeChanged m.localScreen])
  /-- The cursor goes to a client screen, from home or from another one. -/
  | enter (c : Crossing) (hc : m.crossing = some c) (ht : c.target ≠ m.localScreen) :
      MotionOutcome m (m.entered c)
        (m.leaving ++ (m.grabbing ++ [.send c.target (m.enterMsg c), .activeChanged c.target]))

/-- **There are no other outcomes.** -/
theorem motion_outcome (m : ServerMachine) : MotionOutcome m m.tryCross.1 m.tryCross.2 := by
  unfold tryCross
  cases hc : m.crossing with
  | none =>
    by_cases hr : m.active = m.localScreen
    · simp only [not_isRemote_iff.mpr hr, Bool.false_eq_true, if_false]
      exact .stay hc hr
    · simp only [isRemote_iff.mpr hr, if_true]
      exact .move hc hr
  | some c =>
    have hleave : (if ¬m.active = m.localScreen then [ServerAction.send m.active .leave] else [])
        = m.leaving := by
      unfold leaving
      by_cases hr : m.active = m.localScreen
      · rw [if_neg (not_not.mpr hr), if_neg]
        rw [not_isRemote_iff.mpr hr]
        exact Bool.false_ne_true
      · rw [if_pos hr, if_pos (isRemote_iff.mpr hr)]
    have hgrab : (if m.active = m.localScreen then [ServerAction.setGrab true] else [])
        = m.grabbing := by
      unfold grabbing
      by_cases hr : m.active = m.localScreen
      · rw [if_pos hr, if_neg]
        rw [not_isRemote_iff.mpr hr]
        exact Bool.false_ne_true
      · rw [if_neg hr, if_pos (isRemote_iff.mpr hr)]
    by_cases ht : c.target = m.localScreen
    · simp only [ht, if_true, hleave, List.append_assoc]
      exact .home c hc ht
    · simp only [ht, if_false, hleave, hgrab, List.append_assoc]
      exact .enter c hc ht

/-! ## What an event can do -/

/-- The machine with the cursor where a motion puts it, before the edges are tested; absolute
    motion is ignored while input is grabbed. -/
def moved (m : ServerMachine) : LocalEvent → Option ServerMachine
  | .motionAbs x y => if m.isRemote then none else some (m.withCursor (x, y))
  | .motionRel dx dy => some (m.withCursor (m.cursorX + dx, m.cursorY + dy))
  | _ => none

/-- The message an event other than a motion is forwarded as. -/
def forwarded : LocalEvent → Option Message
  | .button button pressed => some (if pressed then .mouseDown button else .mouseUp button)
  | .wheel x y => some (.mouseWheel x y)
  | .key id mask button .down => some (.keyDown id mask button)
  | .key id mask button .up => some (.keyUp id mask button)
  | .key id mask button (.autoRepeat count) => some (.keyRepeat id mask count button)
  | _ => none

/-- An event that moves changes nothing but the cursor, and is not forwarded. -/
theorem moved_eq_some {ev : LocalEvent} {m₁ : ServerMachine} (h : m.moved ev = some m₁) :
    ∃ p, m₁ = m.withCursor p ∧ forwarded ev = none := by
  cases ev with
  | motionAbs x y =>
    unfold moved at h
    by_cases hr : m.isRemote
    · simp [hr] at h
    · simp only [hr, Bool.false_eq_true, if_false, Option.some.injEq] at h
      exact ⟨_, h.symm, rfl⟩
  | motionRel dx dy =>
    injection h with h
    exact ⟨_, h.symm, rfl⟩
  | _ => cases h

/-- An event is a motion or it is forwarded, never both. -/
theorem moved_of_forwarded {ev : LocalEvent} {msg : Message} (h : forwarded ev = some msg) :
    m.moved ev = none := by
  cases hmoved : m.moved ev with
  | none => rfl
  | some m₁ =>
    obtain ⟨-, -, hnone⟩ := moved_eq_some hmoved
    rw [hnone] at h
    cases h

@[simp] theorem trackModifiers_active (ev : LocalEvent) :
    (m.trackModifiers ev).active = m.active := by
  unfold trackModifiers
  grind

@[simp] theorem trackModifiers_localScreen (ev : LocalEvent) :
    (m.trackModifiers ev).localScreen = m.localScreen := by
  unfold trackModifiers
  grind

@[simp] theorem trackModifiers_layout (ev : LocalEvent) :
    (m.trackModifiers ev).layout = m.layout := by
  unfold trackModifiers
  grind

@[simp] theorem trackModifiers_seq (ev : LocalEvent) : (m.trackModifiers ev).seq = m.seq := by
  unfold trackModifiers
  grind

@[simp] theorem trackModifiers_cursorX (ev : LocalEvent) :
    (m.trackModifiers ev).cursorX = m.cursorX := by
  unfold trackModifiers
  grind

@[simp] theorem trackModifiers_cursorY (ev : LocalEvent) :
    (m.trackModifiers ev).cursorY = m.cursorY := by
  unfold trackModifiers
  grind

/-- What handling an event can come to. -/
inductive HandleOutcome (m : ServerMachine) (ev : LocalEvent) :
    ServerMachine → List ServerAction → Prop
  /-- A motion that counts: the edges are tested. -/
  | motion (m₁ m' : ServerMachine) (acts : List ServerAction) (hm : m.moved ev = some m₁)
      (ho : MotionOutcome m₁ m' acts) : HandleOutcome m ev m' acts
  /-- Anything else goes to the client whose screen is active. -/
  | forward (msg : Message) (hr : m.active ≠ m.localScreen) (hf : forwarded ev = some msg) :
      HandleOutcome m ev (m.trackModifiers ev) [.send m.active msg]
  /-- At home it is left to the system, and so is absolute motion while grabbed. -/
  | ignore (hm : m.moved ev = none) (hf : m.active = m.localScreen ∨ forwarded ev = none) :
      HandleOutcome m ev (m.trackModifiers ev) []

/-- **There are no other outcomes of an event.** -/
theorem handle_outcome (m : ServerMachine) (ev : LocalEvent) :
    HandleOutcome m ev (m.handle ev).1 (m.handle ev).2 := by
  unfold handle
  by_cases hr : m.active = m.localScreen
  · have hlocal : (m.trackModifiers ev).isRemote = false := by
      rw [not_isRemote_iff]
      simpa using hr
    simp only [hlocal, Bool.false_eq_true, if_false]
    cases ev with
    | motionAbs x y =>
      refine .motion (m.withCursor (x, y)) _ _ ?_ (motion_outcome _)
      unfold moved
      rw [not_isRemote_iff.mpr hr]
      rfl
    | motionRel dx dy => exact .motion _ _ _ rfl (motion_outcome _)
    | button b pressed => exact .ignore rfl (.inl hr)
    | key id mask b action => exact .ignore rfl (.inl hr)
    | wheel x y => exact .ignore rfl (.inl hr)
  · have hremote : (m.trackModifiers ev).isRemote = true := by
      rw [isRemote_iff]
      simpa using hr
    simp only [hremote, if_true]
    cases ev with
    | motionAbs x y =>
      refine .ignore ?_ (.inr rfl)
      unfold moved
      rw [isRemote_iff.mpr hr]
      rfl
    | motionRel dx dy => exact .motion _ _ _ rfl (motion_outcome _)
    | button b pressed => exact .forward _ hr rfl
    | wheel x y => exact .forward _ hr rfl
    | key id mask b action =>
      show HandleOutcome m _ _ ((m.trackModifiers _).sendActive _)
      unfold sendActive
      rw [trackModifiers_active]
      cases action with
      | down => exact .forward _ hr rfl
      | up => exact .forward _ hr rfl
      | autoRepeat count => exact .forward _ hr rfl

/-- Everything forwarded is input. -/
theorem forwarded_isInput {ev : LocalEvent} {msg : Message} (h : forwarded ev = some msg) :
    msg.isInput = true := by
  cases ev with
  | button b pressed => cases pressed <;> (injection h with h; rw [← h]; rfl)
  | wheel x y => injection h with h; rw [← h]; rfl
  | key id mask b action => cases action <;> (injection h with h; rw [← h]; rfl)
  | _ => cases h

/-- Going home does nothing at home, and otherwise settles everything. -/
theorem goHome_local (h : m.active = m.localScreen) : m.goHome = (m, []) := by
  unfold goHome
  rw [not_isRemote_iff.mpr h]
  rfl

theorem goHome_remote (h : m.active ≠ m.localScreen) :
    m.goHome = ({ m.withCursor (centre m.layout m.localScreen) with active := m.localScreen },
      [.setGrab false, .warpCursor (centre m.layout m.localScreen).1
        (centre m.layout m.localScreen).2, .activeChanged m.localScreen]) := by
  unfold goHome
  rw [isRemote_iff.mpr h]
  rfl

/-! ## Entering a screen -/

/-- A motion changes no modifier. -/
theorem MotionOutcome.modifiers_eq {m' : ServerMachine} {acts : List ServerAction}
    (h : MotionOutcome m m' acts) : m'.modifiers = m.modifiers := by
  cases h <;> rfl

/-- Only tracking changes the modifiers. -/
theorem handle_modifiers (m : ServerMachine) (ev : LocalEvent) :
    (m.handle ev).1.modifiers = (m.trackModifiers ev).modifiers := by
  have hout := handle_outcome m ev
  generalize (m.handle ev).1 = m', (m.handle ev).2 = acts at hout ⊢
  cases hout with
  | motion m₁ _ _ hm ho =>
    obtain ⟨p, rfl, -⟩ := moved_eq_some hm
    rw [ho.modifiers_eq]
    cases ev with
    | motionAbs x y => rfl
    | motionRel dx dy => rfl
    | _ => cases hm
  | forward => rfl
  | ignore => rfl

theorem mem_leaving {screen : String} {msg : Message} (h : .send screen msg ∈ m.leaving) :
    m.isRemote = true ∧ screen = m.active ∧ msg = .leave := by
  rcases m.leaving_cases with ⟨-, hleave⟩ | ⟨hr, hleave⟩
  · rw [hleave] at h
    cases h
  · rw [hleave, List.mem_singleton] at h
    injection h with hscreen hmsg
    exact ⟨isRemote_iff.mpr hr, hscreen, hmsg⟩

/-- **What a motion sends**: a farewell to the screen that is left or a move on the screen that is
    kept, and the `Enter` of the screen that is reached. -/
theorem MotionOutcome.mem_send {m' : ServerMachine} {acts : List ServerAction}
    (h : MotionOutcome m m' acts) {screen : String} {msg : Message} (hmem : .send screen msg ∈ acts) :
    (m.isRemote = true ∧ screen = m.active ∧ (msg = .leave ∨ ∃ p, msg = moveMsg p)) ∨
      ∃ c, m.crossing = some c ∧ c.target ≠ m.localScreen ∧ screen = c.target ∧
        msg = m.enterMsg c := by
  have hleaving : .send screen msg ∈ m.leaving →
      m.isRemote = true ∧ screen = m.active ∧ (msg = .leave ∨ ∃ p, msg = moveMsg p) := by
    intro hl
    obtain ⟨hr, hscreen, hmsg⟩ := mem_leaving hl
    exact ⟨hr, hscreen, .inl hmsg⟩
  cases h with
  | stay => cases hmem
  | move hc hr =>
    rw [List.mem_singleton] at hmem
    injection hmem with hscreen hmsg
    exact .inl ⟨isRemote_iff.mpr hr, hscreen, .inr ⟨_, hmsg⟩⟩
  | home c =>
    rcases List.mem_append.mp hmem with hl | hrest
    · exact .inl (hleaving hl)
    · simp at hrest
  | enter c hc ht =>
    rcases List.mem_append.mp hmem with hl | hrest
    · exact .inl (hleaving hl)
    rcases List.mem_append.mp hrest with hg | hrest
    · -- the grab is no message
      unfold grabbing at hg
      split at hg <;> simp at hg
    · simp only [List.mem_cons, ServerAction.send.injEq, reduceCtorEq, List.not_mem_nil,
        or_false] at hrest
      exact .inr ⟨c, hc, ht, hrest.1, hrest.2⟩

/-- **Where an `Enter` comes from**: a motion that crosses to a client screen, and it is that
    screen's. -/
theorem mem_enter_iff {ev : LocalEvent} {screen : String} {x y : Int16} {seq : UInt32}
    {modifiers : KeyModifierMask} :
    .send screen (.enter x y seq modifiers) ∈ (m.handle ev).2 ↔
      ∃ m₁ c, m.moved ev = some m₁ ∧ m₁.crossing = some c ∧ c.target ≠ m.localScreen ∧
        screen = c.target ∧ .enter x y seq modifiers = m₁.enterMsg c := by
  have hout := handle_outcome m ev
  generalize (m.handle ev).1 = m', (m.handle ev).2 = acts at hout ⊢
  cases hout with
  | motion m₁ _ _ hm ho =>
    obtain ⟨p, hp, -⟩ := moved_eq_some hm
    have hlocal : m₁.localScreen = m.localScreen := by rw [hp]; rfl
    constructor
    · intro hmem
      rcases ho.mem_send hmem with ⟨-, -, hleave | ⟨q, hmove⟩⟩ | ⟨c, hc, ht, hscreen, hmsg⟩
      · cases hleave
      · cases hmove
      · exact ⟨m₁, c, hm, hc, hlocal ▸ ht, hscreen, hmsg⟩
    · rintro ⟨m₂, c, hm₂, hc, ht, rfl, hmsg⟩
      obtain rfl : m₁ = m₂ := Option.some.inj (hm.symm.trans hm₂)
      cases ho with
      | stay hnone => cases hnone.symm.trans hc
      | move hnone => cases hnone.symm.trans hc
      | home c' hc' ht' =>
        obtain rfl : c' = c := Option.some.inj (hc'.symm.trans hc)
        exact absurd (ht'.trans hlocal) ht
      | enter c' hc' ht' =>
        obtain rfl : c' = c := Option.some.inj (hc'.symm.trans hc)
        rw [hmsg]
        exact List.mem_append_right _ (List.mem_append_right _ List.mem_cons_self)
  | forward msg hr hf =>
    constructor
    · intro hmem
      rw [List.mem_singleton] at hmem
      injection hmem with _ hmsg
      have hinput := forwarded_isInput hf
      rw [← hmsg] at hinput
      cases hinput
    · rintro ⟨m₁, c, hm, -⟩
      rw [moved_of_forwarded hf] at hm
      cases hm
  | ignore hm hf =>
    constructor
    · intro hmem
      cases hmem
    · rintro ⟨m₁, c, hm₁, -⟩
      rw [hm] at hm₁
      cases hm₁

/-! ## Where an event leads -/

/-- The client screen an event takes the cursor to, if it crosses to one. -/
def destination (m : ServerMachine) (le : LocalEvent) : Option String :=
  ((m.moved le).bind crossing).bind fun cr =>
    if cr.target = m.localScreen then none else some cr.target

/-- It is the target of a crossing, and not the server. -/
theorem destination_eq_some {m : ServerMachine} {le : LocalEvent} {screen : String} :
    m.destination le = some screen ↔
      ∃ m₁ c, m.moved le = some m₁ ∧ m₁.crossing = some c ∧ c.target ≠ m.localScreen ∧
        screen = c.target := by
  unfold destination
  simp only [Option.bind_eq_some_iff]
  constructor
  · rintro ⟨c, ⟨m₁, hm, hc⟩, ht⟩
    by_cases htarget : c.target = m.localScreen
    · rw [if_pos htarget] at ht
      cases ht
    · rw [if_neg htarget] at ht
      injection ht with ht
      exact ⟨m₁, c, hm, hc, htarget, ht.symm⟩
  · rintro ⟨m₁, c, hm, hc, ht, rfl⟩
    exact ⟨c, ⟨m₁, hm, hc⟩, if_neg ht⟩

/-- An event that goes to a client screen sends it one `Enter`, with the tracked modifiers. -/
theorem mem_enter_destination {m : ServerMachine} {le : LocalEvent} {screen : String} {x y : Int16}
    {seq : UInt32} {modifiers : KeyModifierMask}
    (h : .send screen (.enter x y seq modifiers) ∈ (m.handle le).2) :
    m.destination le = some screen ∧ modifiers = m.modifiers := by
  obtain ⟨m₁, c, hm, hc, ht, rfl, hmsg⟩ := mem_enter_iff.mp h
  obtain ⟨p, rfl, -⟩ := moved_eq_some hm
  injection hmsg with _ _ _ hmod
  exact ⟨destination_eq_some.mpr ⟨_, c, hm, hc, ht, rfl⟩, hmod⟩

/-- An event that has a destination sends it an `Enter`. -/
theorem enter_of_destination {m : ServerMachine} {le : LocalEvent} {screen : String}
    (h : m.destination le = some screen) :
    ∃ x y seq, .send screen (.enter x y seq m.modifiers) ∈ (m.handle le).2 := by
  obtain ⟨m₁, c, hm, hc, ht, rfl⟩ := destination_eq_some.mp h
  obtain ⟨p, rfl, -⟩ := moved_eq_some hm
  exact ⟨_, _, _, mem_enter_iff.mpr ⟨_, c, hm, hc, ht, rfl, rfl⟩⟩

end ServerMachine

/-- The sizes that were there stay, and so do the names. -/
theorem sizeOf_setScreenSize (m : ServerMachine) (screen : String) (w h : Int32) (s : String) :
    (m.setScreenSize screen w h).layout.sizeOf s =
      if s = screen then (m.layout.sizeOf s).map fun _ => ⟨w, h⟩ else m.layout.sizeOf s := by
  show (Function.update m.layout.nodes screen _ s).map _ = _
  by_cases hs : s = screen
  · subst hs
    rw [if_pos rfl, Function.update_self, ScreenLayout.sizeOf, Option.map_map, Option.map_map]
    rfl
  · rw [if_neg hs, Function.update_of_ne hs]
    rfl

end SelfKvm
