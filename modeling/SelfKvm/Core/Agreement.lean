/-
  Server and clients agree.

  One `ServerMachine` sends its `Enter`, `Leave` and input messages over a first-in-first-out
  channel per client; clients process them whenever they get to it.  A client whose channel is
  empty must think it is entered exactly if the server's cursor is on its screen, must have moved
  its cursor exactly there, and must have injected exactly what the user did there — nothing
  lost, doubled or out of order.

  `SelfKvm.Base.Fifo` removes the interleaving: a drained client has run on everything sent to it.
  What is left is a simulation between two machines run side by side.  `Agrees` is the relation;
  `Agrees.step` keeps it, by cases on the outcome of the server's call.  The casts between 32 and
  16 bits on the way are harmless because positions are on the screen (`toInt16_toInt32`).
-/
import SelfKvm.Base.Fifo
import SelfKvm.Core.Client
import SelfKvm.Core.Server

namespace SelfKvm

open ServerMachine ClientMachine Fifo

/-! ## The system -/

/-- What the user does: events of the input devices, and the lock hotkey. -/
inductive UserInput where
  | event (ev : LocalEvent)
  | setLock (locked : Bool)
  | toggleLock
  deriving DecidableEq, Repr

def UserInput.op : UserInput → ServerOp
  | .event ev => .handle ev
  | .setLock locked => .setLock locked
  | .toggleLock => .toggleLock

def ServerMachine.onInput (m : ServerMachine) (i : UserInput) : ServerMachine × List ServerAction :=
  m.step i.op

/-- The messages among the actions go to the clients, the rest concerns the server's machine. -/
def post : ServerAction → Option (String × Message)
  | .send screen msg => some (screen, msg)
  | _ => none

/-- The server and its clients after some inputs and deliveries; every client is acknowledged. -/
def session (layout : ScreenLayout) (home : String) (sizes : String → ScreenSize)
    (es : List (Event String UserInput)) :
    System String Message ServerMachine ClientMachine ClientAction :=
  System.run onInput post ClientMachine.handle
    (System.init (ServerMachine.new layout home) fun s => acknowledged s (sizes s)) es

/-! ## What a client should have done -/

/-- Where the server's cursor is, as a command. -/
def ServerMachine.position (m : ServerMachine) : InputCommand :=
  .mouseMoveAbs m.cursorX m.cursorY

/-- The last absolute position injected. -/
def absStep (p : Option (Int32 × Int32)) : ClientAction → Option (Int32 × Int32)
  | .inject (.mouseMoveAbs x y) => some (x, y)
  | _ => p

def lastAbs (log : List ClientAction) : Option (Int32 × Int32) := log.foldl absStep none

/-- An `Enter` to the screen `s`. -/
def entersScreen (s : String) : ServerAction → Bool
  | .send screen (.enter ..) => screen = s
  | _ => false

/-- The command a button, wheel or key event stands for. -/
def commandOf : LocalEvent → List InputCommand
  | .button button pressed => [.mouseButton button pressed]
  | .wheel x y => [.mouseWheel x y]
  | .key id mask button action => [.key id mask button action]
  | _ => []

/-- What the client of the remote screen `s` should do about one event: move for an `Enter` to `s`,
    move for relative motion that stays on `s`, repeat anything else done on `s`. -/
def ServerMachine.eventCommands (s : String) (m : ServerMachine) (ev : LocalEvent) :
    List InputCommand :=
  if (m.handle ev).2.any (entersScreen s) then
    [(m.handle ev).1.position]
  else if m.active = s then
    match ev with
    | .motionRel _ _ => if (m.handle ev).1.active = s then [(m.handle ev).1.position] else []
    | ev => commandOf ev
  else
    []

def ServerMachine.commands (s : String) (m : ServerMachine) : UserInput → List InputCommand
  | .event ev => m.eventCommands s ev
  | _ => []

/-- What it should have done after all of them. -/
def expected (s : String) (m : ServerMachine) (is : List UserInput) : List InputCommand :=
  (Mealy.run (fun m i => ((m.onInput i).1, m.commands s i)) m is).2

/-! ## Coordinates survive the wire -/

/-- Screens whose coordinates fit in 16 bits. -/
def ScreenSize.Fits (s : ScreenSize) : Prop := s.Positive ∧ s.w ≤ 32767 ∧ s.h ≤ 32767

instance (s : ScreenSize) : Decidable s.Fits :=
  inferInstanceAs (Decidable (s.Positive ∧ s.w ≤ 32767 ∧ s.h ≤ 32767))

theorem toInt16_toInt32 {x n : Int32} (h : OnAxis x n) (hn : n ≤ 32767) :
    x.toInt16.toInt32 = x := by
  obtain ⟨h0, hlt⟩ := onAxis_iff.mp h
  have hmax := Int32.le_iff_toInt_le.mp hn
  have hconst : (32767 : Int32).toInt = 32767 := rfl
  apply Int32.toInt_inj.mp
  rw [Int16.toInt_toInt32, Int32.toInt_toInt16, Int.bmod_eq_of_le]
  · omega
  · omega

/-! ## What a client does with a message -/

theorem handle_move {c : ClientMachine} (he : c.entered = true) (ha : c.acked = true)
    (x y : Int16) :
    c.handle (.mouseMove x y) = (c, [.inject (.mouseMoveAbs x.toInt32 y.toInt32)]) := by
  unfold ClientMachine.handle injectIfActive
  simp [he, ha]

/-- The wire keeps a position on a screen that fits it: an entered client moves there. -/
theorem handle_moveMsg {c : ClientMachine} (he : c.entered = true) (ha : c.acked = true)
    {s : ScreenSize} (hs : s.Fits) {p : Int32 × Int32} (hp : s.Inside p.1 p.2) :
    c.handle (moveMsg p) = (c, [.inject (.mouseMoveAbs p.1 p.2)]) := by
  obtain ⟨-, hw, hh⟩ := hs
  have hmove := handle_move he ha p.1.toInt16 p.2.toInt16
  rw [toInt16_toInt32 hp.1 hw, toInt16_toInt32 hp.2 hh] at hmove
  exact hmove

/-- So does one that is entered at such a position. -/
theorem handle_enterMsg {c : ClientMachine} {m : ServerMachine} {cr : Crossing} {s : ScreenSize}
    (hs : s.Fits) (hp : s.Inside cr.entryX cr.entryY) :
    c.handle (m.enterMsg cr) = ({ c with entered := true, lastSeq := m.seq + 1 },
      [.entered, .inject (.mouseMoveAbs cr.entryX cr.entryY)]) := by
  obtain ⟨-, hw, hh⟩ := hs
  show (_, [ClientAction.entered, .inject (.mouseMoveAbs cr.entryX.toInt16.toInt32
    cr.entryY.toInt16.toInt32)]) = _
  rw [toInt16_toInt32 hp.1 hw, toInt16_toInt32 hp.2 hh]

/-- An entered client injects what was forwarded. -/
theorem handle_forwarded {c : ClientMachine} (he : c.entered = true) {ev : LocalEvent}
    {msg : Message} (h : forwarded ev = some msg) :
    c.handle msg = (c, (commandOf ev).map .inject) := by
  cases ev with
  | button b pressed =>
    cases pressed <;>
      (injection h with h; subst h; simp [ClientMachine.handle, injectIfActive, he, commandOf])
  | wheel x y =>
    injection h with h
    subst h
    simp [ClientMachine.handle, injectIfActive, he, commandOf]
  | key id mask b action =>
    cases action <;>
      (injection h with h; subst h; simp [ClientMachine.handle, injectIfActive, he, commandOf])
  | _ => cases h

/-- The farewell concerns only the screen that is left. -/
theorem addressed_leaving (s : String) (m : ServerMachine) :
    addressed post s m.leaving =
      if m.active ≠ m.localScreen ∧ m.active = s then [.leave] else [] := by
  unfold leaving
  by_cases hr : m.active = m.localScreen
  · simp [not_isRemote_iff.mpr hr, hr, addressed]
  · by_cases hs : m.active = s
    · subst hs
      simp [isRemote_iff.mpr hr, hr, addressed, post]
    · simp [isRemote_iff.mpr hr, hs, addressed, post]

theorem addressed_grabbing (s : String) (m : ServerMachine) :
    addressed post s m.grabbing = [] := by
  unfold grabbing
  cases m.isRemote <;> rfl

theorem addressed_send (s screen : String) (msg : Message) :
    addressed post s [.send screen msg] = if screen = s then [msg] else [] := by
  by_cases h : screen = s <;> simp [addressed, post, h]

theorem addressed_enter (s screen screen' : String) (msg : Message) :
    addressed post s [.send screen msg, .activeChanged screen'] =
      if screen = s then [msg] else [] := by
  by_cases h : screen = s <;> simp [addressed, post, h]

/-! ## The simulation -/

/-- The server's machine and the client of the screen `s` agree, `cmds` being what the client
    should have done. -/
structure Agrees (layout : ScreenLayout) (home s : String) (size : ScreenSize) (m : ServerMachine)
    (c : ClientMachine) (log : List ClientAction) (cmds : List InputCommand) : Prop where
  layout_eq : m.layout = layout
  home_eq : m.localScreen = home
  acked : c.acked = true
  entered : c.entered = true ↔ m.active = s
  position : m.active = s →
    lastAbs log = some (m.cursorX, m.cursorY) ∧ size.Inside m.cursorX m.cursorY
  commands : injected log = cmds

/-- What the client does with what a motion sent it: it follows the cursor. -/
structure Follows (s : String) (size : ScreenSize) (m' : ServerMachine) (c : ClientMachine)
    (out : List ClientAction) : Prop where
  acked : c.acked = true
  entered : c.entered = true ↔ m'.active = s
  position : m'.active = s →
    (∀ p, out.foldl absStep p = some (m'.cursorX, m'.cursorY)) ∧
      size.Inside m'.cursorX m'.cursorY
  commands : injected out = if m'.active = s then [m'.position] else []

section Simulation

variable {layout : ScreenLayout} {home s : String} {node : ScreenNode}
  (hnode : layout.nodes s = some node) (hfits : node.size.Fits) (hs : s ≠ home)
include hnode hfits hs

omit hnode hfits in
/-- When a screen is left, or the cursor was elsewhere, its client is no longer entered. -/
theorem farewell {m : ServerMachine} {c : ClientMachine} (hhome : m.localScreen = home)
    (hacked : c.acked = true) (hentered : c.entered = true ↔ m.active = s) :
    ∃ c₁ out₁, Mealy.run ClientMachine.handle c (addressed post s m.leaving) = (c₁, out₁) ∧
      c₁.acked = true ∧ c₁.entered = false ∧ injected out₁ = [] := by
  rw [addressed_leaving]
  by_cases hact : m.active = s
  · have hr : m.active ≠ m.localScreen := by
      rw [hact, hhome]
      exact hs
    rw [if_pos ⟨hr, hact⟩]
    exact ⟨_, _, rfl, hacked, rfl, rfl⟩
  · rw [if_neg fun h => hact h.2]
    refine ⟨_, _, rfl, hacked, ?_, rfl⟩
    exact Bool.eq_false_iff.mpr fun h => hact (hentered.mp h)

omit hs in
/-- A crossing to the screen enters it inside. -/
theorem entry_inside {m : ServerMachine} {cr : Crossing} (hlayout : m.layout = layout)
    (hc : m.crossing = some cr) (htarget : cr.target = s) :
    node.size.Inside cr.entryX cr.entryY := by
  unfold crossing at hc
  by_cases hl : m.switchLocked
  · simp [hl] at hc
  · simp only [hl, Bool.false_eq_true, if_false] at hc
    exact ScreenLayout.detectCrossing_inside hc (by rw [hlayout, htarget]; exact hnode) hfits.1

/-- **A motion is followed**, whatever it came to. -/
theorem ServerMachine.MotionOutcome.follows {m m' : ServerMachine} {acts : List ServerAction}
    {c : ClientMachine} (hlayout : m.layout = layout) (hhome : m.localScreen = home)
    (hacked : c.acked = true) (hentered : c.entered = true ↔ m.active = s)
    (h : MotionOutcome m m' acts) :
    Follows s node.size m' (Mealy.run ClientMachine.handle c (addressed post s acts)).1
      (Mealy.run ClientMachine.handle c (addressed post s acts)).2 := by
  cases h with
  | stay hc hr =>
    have hne : m.active ≠ s := by
      rw [hr, hhome]
      exact hs.symm
    refine ⟨hacked, hentered, fun h => absurd h hne, ?_⟩
    rw [if_neg hne]
    rfl
  | move hc hr =>
    rw [addressed_send]
    by_cases hact : m.active = s
    · -- the clamped position is on the screen, so the wire keeps it
      have hactive : m.layout.nodes m.active = some node := by
        rw [hlayout, hact]
        exact hnode
      have hinside := ScreenLayout.clampTo_inside hactive hfits.1 m.cursorX m.cursorY
      generalize m.layout.clampTo m.active m.cursorX m.cursorY = p at hinside
      rw [if_pos hact, Mealy.run_singleton,
        handle_moveMsg (hentered.mpr hact) hacked hfits hinside]
      refine ⟨hacked, hentered, fun _ => ⟨fun _ => rfl, hinside⟩, ?_⟩
      rw [if_pos (show (m.withCursor p).active = s from hact)]
      rfl
    · rw [if_neg hact]
      refine ⟨hacked, hentered, fun h => absurd h hact, ?_⟩
      rw [if_neg (show (m.withCursor _).active ≠ s from hact)]
      rfl
  | home c' hc ht =>
    have hne : (m.returned c').active ≠ s := by
      show m.localScreen ≠ s
      rw [hhome]
      exact hs.symm
    obtain ⟨c₁, out₁, hrun₁, hacked₁, hentered₁, hout₁⟩ := farewell hs hhome hacked hentered
    rw [addressed_append, Mealy.run_append, hrun₁]
    refine ⟨hacked₁, ⟨fun h => ?_, fun h => absurd h hne⟩, fun h => absurd h hne, ?_⟩
    · have hentered₁' : c₁.entered = true := h
      rw [hentered₁] at hentered₁'
      cases hentered₁'
    · rw [if_neg hne, injected_append, hout₁]
      rfl
  | enter c' hc ht =>
    rw [addressed_append, addressed_append, addressed_grabbing, addressed_enter, List.nil_append,
      Mealy.run_append]
    obtain ⟨c₁, out₁, hrun₁, hacked₁, hentered₁, hout₁⟩ := farewell hs hhome hacked hentered
    rw [hrun₁]
    by_cases htarget : c'.target = s
    · have hinside := entry_inside hnode hfits hlayout hc htarget
      rw [if_pos htarget, Mealy.run_singleton, handle_enterMsg hfits hinside]
      have hact : (m.entered c').active = s := htarget
      refine ⟨hacked₁, ⟨fun _ => hact, fun _ => rfl⟩, fun _ => ⟨?_, hinside⟩, ?_⟩
      · intro p
        rw [List.foldl_append]
        rfl
      · rw [if_pos hact, injected_append, hout₁]
        rfl
    · rw [if_neg htarget]
      have hne : (m.entered c').active ≠ s := htarget
      refine ⟨hacked₁, ⟨fun h => ?_, fun h => absurd h hne⟩, fun h => absurd h hne, ?_⟩
      · rw [Mealy.run_nil] at h
        rw [hentered₁] at h
        cases h
      · rw [if_neg hne, Mealy.run_nil, List.append_nil]
        exact hout₁

omit hnode hfits hs in
/-- On a client screen only relative motion counts. -/
theorem moved_remote {m m₁ : ServerMachine} {ev : LocalEvent} (hr : m.active ≠ m.localScreen)
    (hm : m.moved ev = some m₁) : ∃ dx dy, ev = .motionRel dx dy := by
  cases ev with
  | motionAbs x y =>
    unfold moved at hm
    rw [isRemote_iff.mpr hr] at hm
    cases hm
  | motionRel dx dy => exact ⟨dx, dy, rfl⟩
  | _ => cases hm

omit hnode hfits in
/-- For a motion that counts, the client should move exactly if the cursor ends up with it. -/
theorem commands_motion {m m₁ : ServerMachine} {ev : LocalEvent} (hhome : m.localScreen = home)
    (hm : m.moved ev = some m₁) (ho : MotionOutcome m₁ (m.handle ev).1 (m.handle ev).2) :
    m.eventCommands s ev =
      if (m.handle ev).1.active = s then [(m.handle ev).1.position] else [] := by
  obtain ⟨p, rfl, -⟩ := moved_eq_some hm
  have hremote : m.active = s → m.active ≠ m.localScreen := by
    rintro rfl
    rw [hhome]
    exact hs
  -- without an `Enter` to `s`, only staying on `s` counts
  have hquiet : (m.handle ev).2.any (entersScreen s) = false →
      ((m.handle ev).1.active = s → m.active = s) → m.eventCommands s ev =
        if (m.handle ev).1.active = s then [(m.handle ev).1.position] else [] := by
    intro hany hstay
    unfold eventCommands
    rw [hany]
    simp only [Bool.false_eq_true, if_false]
    by_cases hact : m.active = s
    · obtain ⟨dx, dy, rfl⟩ := moved_remote (hremote hact) hm
      rw [if_pos hact]
    · rw [if_neg hact, if_neg fun h => hact (hstay h)]
  have hleave : (m.withCursor p).leaving.any (entersScreen s) = false := by
    rcases hl : (m.withCursor p).isRemote <;> simp [leaving, hl, entersScreen]
  generalize hm' : (m.handle ev).1 = m', hacts : (m.handle ev).2 = acts at ho hquiet
  cases ho with
  | stay hc hr => exact hquiet rfl id
  | move hc hr => exact hquiet rfl id
  | home c hc ht =>
    apply hquiet
    · rw [List.any_append, hleave]
      rfl
    · intro h
      exact absurd (hhome.symm.trans h) hs.symm
  | enter c hc ht =>
    by_cases htarget : c.target = s
    · have hany : (m.handle ev).2.any (entersScreen s) = true := by
        rw [hacts]
        simp [htarget, entersScreen, enterMsg]
      unfold eventCommands
      rw [if_pos hany, hm', if_pos (show ((m.withCursor p).entered c).active = s from htarget)]
    · apply hquiet
      · rw [List.any_append, hleave, List.any_append]
        rcases hl : (m.withCursor p).isRemote <;>
          simp [grabbing, hl, htarget, entersScreen, enterMsg]
      · intro h
        exact absurd h htarget

omit hnode hfits hs in
/-- Without an `Enter` and without relative motion, the client repeats what is done on its screen. -/
theorem eventCommands_still {m : ServerMachine} {ev : LocalEvent}
    (hany : (m.handle ev).2.any (entersScreen s) = false)
    (hev : ∀ dx dy, ev ≠ .motionRel dx dy) :
    m.eventCommands s ev = if m.active = s then commandOf ev else [] := by
  unfold eventCommands
  rw [hany]
  cases ev with
  | motionRel dx dy => exact absurd rfl (hev dx dy)
  | _ => rfl

omit hnode hfits hs in
theorem commandOf_of_not_forwarded {ev : LocalEvent} (h : forwarded ev = none) :
    commandOf ev = [] := by
  cases ev with
  | key id mask b action => cases action <;> cases h
  | button b pressed => cases h
  | wheel x y => cases h
  | _ => rfl

omit hnode hfits hs in
/-- Buttons, wheel and keys move nothing. -/
theorem foldl_commandOf (ev : LocalEvent) (p : Option (Int32 × Int32)) :
    ((commandOf ev).map ClientAction.inject).foldl absStep p = p := by
  cases ev <;> rfl

omit hnode hfits hs in
theorem injected_map (cmds : List InputCommand) :
    injected (cmds.map ClientAction.inject) = cmds := by
  induction cmds with
  | nil => rfl
  | cons cmd cmds ih => exact congrArg (cmd :: ·) ih

/-- **One input keeps the agreement.** -/
theorem Agrees.step {m : ServerMachine} {c : ClientMachine} {log : List ClientAction}
    {cmds : List InputCommand} (h : Agrees layout home s node.size m c log cmds) (i : UserInput) :
    Agrees layout home s node.size (m.onInput i).1
      (Mealy.run ClientMachine.handle c (addressed post s (m.onInput i).2)).1
      (log ++ (Mealy.run ClientMachine.handle c (addressed post s (m.onInput i).2)).2)
      (cmds ++ m.commands s i) := by
  obtain ⟨hlayout, hhome, hacked, hentered, hposition, hcommands⟩ := h
  -- a call that sends nothing and leaves the cursor alone
  have hquiet : ∀ m' : ServerMachine, m'.layout = m.layout → m'.localScreen = m.localScreen →
      m'.active = m.active → m'.cursorX = m.cursorX → m'.cursorY = m.cursorY →
      Agrees layout home s node.size m' c (log ++ []) (cmds ++ []) := by
    intro m' h1 h2 h3 h4 h5
    rw [List.append_nil, List.append_nil]
    refine ⟨h1.trans hlayout, h2.trans hhome, hacked, by rw [h3]; exact hentered, ?_, hcommands⟩
    rw [h3, h4, h5]
    exact hposition
  cases i with
  | setLock locked => exact hquiet _ rfl rfl rfl rfl rfl
  | toggleLock => exact hquiet _ rfl rfl rfl rfl rfl
  | event ev =>
    show Agrees layout home s node.size (m.handle ev).1
      (Mealy.run ClientMachine.handle c (addressed post s (m.handle ev).2)).1
      (log ++ (Mealy.run ClientMachine.handle c (addressed post s (m.handle ev).2)).2)
      (cmds ++ m.commands s (.event ev))
    generalize hm' : (m.handle ev).1 = m', hacts : (m.handle ev).2 = acts
    have hout := handle_outcome m ev
    rw [hm', hacts] at hout
    cases hout with
    | motion m₁ _ _ hm ho =>
      have hcmds := commands_motion hs hhome hm (by rw [hm', hacts]; exact ho)
      obtain ⟨p, rfl, -⟩ := moved_eq_some hm
      obtain ⟨hacked', hentered', hposition', hcommands'⟩ :=
        MotionOutcome.follows (m := m.withCursor p) hnode hfits hs hlayout hhome hacked hentered ho
      refine ⟨?_, ?_, hacked', hentered', ?_, ?_⟩
      · cases ho <;> exact hlayout
      · cases ho <;> exact hhome
      · intro hact
        obtain ⟨hlast, hinside⟩ := hposition' hact
        refine ⟨?_, hinside⟩
        unfold lastAbs
        rw [List.foldl_append]
        exact hlast _
      · rw [injected_append, hcommands, hcommands', ← hm']
        exact congrArg (cmds ++ ·) hcmds.symm
    | forward msg hr hf =>
      have hmsg : entersScreen s (.send m.active msg) = false := by
        have hin := forwarded_isInput hf
        cases msg <;> first | rfl | cases hin
      have hcmds : m.eventCommands s ev = if m.active = s then commandOf ev else [] :=
        eventCommands_still (by rw [hacts, List.any_cons, hmsg]; rfl)
          (by rintro dx dy rfl; cases hf)
      show Agrees _ _ _ _ _ _ _ (cmds ++ m.eventCommands s ev)
      rw [hcmds, addressed_send]
      by_cases hact : m.active = s
      · rw [if_pos hact, if_pos hact, Mealy.run_singleton,
          handle_forwarded (hentered.mpr hact) hf]
        refine ⟨by simpa using hlayout, by simpa using hhome, hacked, by simpa using hentered,
          ?_, ?_⟩
        · intro _
          obtain ⟨hlast, hinside⟩ := hposition hact
          unfold lastAbs at hlast ⊢
          rw [List.foldl_append, foldl_commandOf, hlast, trackModifiers_cursorX,
            trackModifiers_cursorY]
          exact ⟨rfl, hinside⟩
        · rw [injected_append, hcommands, injected_map]
      · rw [if_neg hact, if_neg hact]
        exact hquiet _ (by simp) (by simp) (by simp) (by simp) (by simp)
    | ignore hm hf =>
      have hcmds : m.eventCommands s ev = if m.active = s then commandOf ev else [] :=
        eventCommands_still (by rw [hacts]; rfl) (by rintro dx dy rfl; cases hm)
      have hnone : (if m.active = s then commandOf ev else []) = [] := by
        by_cases hact : m.active = s
        · rw [if_pos hact]
          rcases hf with hf | hf
          · exact absurd (hact.symm.trans (hf.trans hhome)) hs
          · exact commandOf_of_not_forwarded hf
        · exact if_neg hact
      show Agrees _ _ _ _ _ _ _ (cmds ++ m.eventCommands s ev)
      rw [hcmds, hnone]
      exact hquiet _ (by simp) (by simp) (by simp) (by simp) (by simp)

/-- **A client that hears everything at once agrees with the server after any inputs.** -/
theorem run_agrees (size : ScreenSize) (is : List UserInput) :
    Agrees layout home s node.size (Mealy.run onInput (ServerMachine.new layout home) is).1
      (Mealy.run ClientMachine.handle (acknowledged s size)
        (addressed post s (Mealy.run onInput (ServerMachine.new layout home) is).2)).1
      (Mealy.run ClientMachine.handle (acknowledged s size)
        (addressed post s (Mealy.run onInput (ServerMachine.new layout home) is).2)).2
      (expected s (ServerMachine.new layout home) is) := by
  induction is using List.reverseRecOn with
  | nil =>
    exact ⟨rfl, rfl, rfl, ⟨(fun h => by cases h), fun h => absurd h hs.symm⟩,
      fun h => absurd h hs.symm, rfl⟩
  | append_singleton is i ih =>
    have hstep := ih.step hnode hfits hs i
    have hstate : (Mealy.run onInput (ServerMachine.new layout home) is).1 =
        (Mealy.run (fun m i => ((m.onInput i).1, m.commands s i)) (ServerMachine.new layout home)
          is).1 := by
      apply Mealy.run_state_congr
      intro _ _
      rfl
    unfold expected at hstep ⊢
    rw [Mealy.run_concat, Mealy.run_concat, addressed_append, Mealy.run_append, ← hstate]
    exact hstep

end Simulation

/-! ## The theorem -/

/-- **Server and clients agree end to end.**  Take any layout, and in it a remote screen `s` whose
    sides are in `1..=32767`.  After any user inputs and any interleaving of deliveries, if the
    channel of `s` is drained: its client is entered exactly if `s` is the active screen; then the
    last absolute position it injected is the server's cursor, a position on `s`; and what it has
    injected altogether is what the inputs called for, in order. -/
theorem server_clients_agree (layout : ScreenLayout) (home : String)
    (sizes : String → ScreenSize) (es : List (Event String UserInput)) {s : String}
    {node : ScreenNode} (hnode : layout.nodes s = some node) (hfits : node.size.Fits)
    (hs : s ≠ home) (hdrained : (session layout home sizes es).queue s = []) :
    (((session layout home sizes es).listener s).isEntered = true ↔
      (session layout home sizes es).speaker.active = s) ∧
    ((session layout home sizes es).speaker.active = s →
      lastAbs ((session layout home sizes es).log s) =
        some ((session layout home sizes es).speaker.cursorX,
          (session layout home sizes es).speaker.cursorY) ∧
      node.size.Inside (session layout home sizes es).speaker.cursorX
        (session layout home sizes es).speaker.cursorY) ∧
    injected ((session layout home sizes es).log s) =
      expected s (ServerMachine.new layout home) (inputs es) := by
  obtain ⟨hspeaker, -⟩ := system_split onInput post ClientMachine.handle
    (ServerMachine.new layout home) (fun s => acknowledged s (sizes s)) es
  have hclient := system_drained onInput post ClientMachine.handle
    (ServerMachine.new layout home) (fun s => acknowledged s (sizes s)) es hdrained
  obtain ⟨hlistener, hlog⟩ := Prod.mk.inj hclient
  have hagrees := run_agrees hnode hfits hs (sizes s) (inputs es)
  rw [← hspeaker, ← hlistener, ← hlog] at hagrees
  exact ⟨hagrees.entered, hagrees.position, hagrees.commands⟩

/-- The cursor goes over and moves a little: the client is entered, at the same place. -/
theorem server_clients_agree_over :
    lastAbs ((session twoScreens "srv" (fun _ => ⟨1280, 800⟩)
      [.input (.event (.motionAbs 1919 540)), .input (.event (.motionRel 100 50)),
        .deliver "lap", .deliver "lap"]).log "lap") = some (100, 450) := by
  have hagrees := server_clients_agree twoScreens "srv" (fun _ => ⟨1280, 800⟩)
    [.input (.event (.motionAbs 1919 540)), .input (.event (.motionRel 100 50)),
      .deliver "lap", .deliver "lap"] (s := "lap") rfl (by decide) (by decide) (by decide)
  exact (hagrees.2.1 (by decide)).1

end SelfKvm
