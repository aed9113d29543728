/-
  The injection backend (`kvm-input/src/enigo_backend.rs`), at the far end of all input.

  A key pressed on the server's machine is named twice on its way: the capture layer's table gives
  it the protocol's id, the backend's table turns the id into a key of the machine under control.
  Both ends were written by hand, and neither looks at the other.

  1. **The tables together** (`reached_key_eq_iff`, `reached_key_eq_none`).  All keys that are
     captured are injected, except Insert, which the backend does not name; no two become one, except
     the left and the right of a modifier, which the backend does not tell apart.

  2. **What is down at the far end** (`mirrored_iff`).  The server forwards each press and release to
     the screen that is active, the client passes it on, and the backend asks for it, whether or not
     it succeeds: what it is asked for is what was typed on its screen, seen through the two tables
     (`asked_through`).  So by `SelfKvm.Base.Switches` every key that is down was pressed on that
     screen and not released there, and all of these are down, at every moment, exactly if no key is
     released there while its twin is among them: that release also lets go of the twin.  A key that
     is released on another screen stays down, though nobody holds it.

  The buttons go the same way.  The ids of those without a name are passed on as they are, and what
  the backend does not know it takes for the left button.
-/
import SelfKvm.Base.Switches
import SelfKvm.Core.Resync
import SelfKvm.Input.Capture

namespace SelfKvm

open ServerMachine ClientMachine Fifo Switches

/-! ## The backend -/

inductive Axis where
  | horizontal
  | vertical
  deriving DecidableEq, Repr

inductive Coordinate where
  | abs
  | rel
  deriving DecidableEq, Repr

inductive Direction where
  | press
  | release
  deriving DecidableEq, Repr

inductive EnigoButton where
  | left
  | middle
  | right
  | back
  | forward
  deriving DecidableEq, Repr

/-- The keys of the machine under control; a printable one goes by its character. -/
inductive EnigoKey where
  | unicode (c : Char)
  | backspace | tab | «return» | escape | delete | home | «end» | pageUp | pageDown
  | leftArrow | rightArrow | upArrow | downArrow
  | shift | control | alt | «meta» | capsLock
  | f1 | f2 | f3 | f4 | f5 | f6 | f7 | f8 | f9 | f10 | f11 | f12
  deriving DecidableEq, Repr

/-- What the backend asks of `enigo`. -/
inductive EnigoCall where
  | moveMouse (x y : Int32) (coordinate : Coordinate)
  | button (b : EnigoButton) (direction : Direction)
  | scroll (length : Int32) (axis : Axis)
  | key (k : EnigoKey) (direction : Direction)
  deriving DecidableEq, Repr

inductive InputError where
  | unavailable (what : String)
  | permissionDenied (what : String)
  | backend (what : String)
  deriving DecidableEq, Repr

def keyNone : KeyId := 0x0000

/-- Whether an id is a character, not a key from the special blocks. -/
def isPrintable (id : KeyId) : Bool := !(0xE000 ≤ id && id ≤ 0xEFFF) && id != keyNone

namespace EnigoInjector

def mapButton (button : Int8) : EnigoButton :=
  if button = 1 then .left
  else if button = 2 then .middle
  else if button = 3 then .right
  else if button = 4 then .back
  else if button = 5 then .forward
  else .left

/-- The sign of a number. -/
def signum (d : Int32) : Int32 := if 0 < d then 1 else if d < 0 then -1 else 0

/-- The lines to scroll for a wheel delta, of which a notch has 120.  `enigo` counts down and to the
    right. -/
def wheelLines (delta : Int16) : Int32 :=
  let d := delta.toInt32
  let lines := d / 120
  if lines = 0 then -signum d else -lines

def fKey (n : KeyId) : Option EnigoKey :=
  if n = 1 then some .f1
  else if n = 2 then some .f2
  else if n = 3 then some .f3
  else if n = 4 then some .f4
  else if n = 5 then some .f5
  else if n = 6 then some .f6
  else if n = 7 then some .f7
  else if n = 8 then some .f8
  else if n = 9 then some .f9
  else if n = 10 then some .f10
  else if n = 11 then some .f11
  else if n = 12 then some .f12
  else none

/-- The key an id stands for, if any; half a surrogate pair is no character. -/
def mapKey (id : KeyId) : Option EnigoKey :=
  if isPrintable id then
    if h : id.toUInt32.isValidChar then some (.unicode ⟨id.toUInt32, h⟩) else none
  else if id = Key.backspace then some .backspace
  else if id = Key.tab then some .tab
  else if id = Key.«return» then some .«return»
  else if id = Key.escape then some .escape
  else if id = Key.delete then some .delete
  else if id = Key.home then some .home
  else if id = Key.«end» then some .«end»
  else if id = Key.pageUp then some .pageUp
  else if id = Key.pageDown then some .pageDown
  else if id = Key.left then some .leftArrow
  else if id = Key.right then some .rightArrow
  else if id = Key.up then some .upArrow
  else if id = Key.down then some .downArrow
  else if id = Key.shiftL ∨ id = Key.shiftR then some .shift
  else if id = Key.controlL ∨ id = Key.controlR then some .control
  else if id = Key.altL ∨ id = Key.altR then some .alt
  else if id = Key.superL ∨ id = Key.superR ∨ id = Key.metaL ∨ id = Key.metaR then some .«meta»
  else if id = Key.capsLock then some .capsLock
  else if Key.f1 ≤ id ∧ id ≤ Key.f 12 then fKey (id - Key.f1 + 1)
  else none

section

variable (outcome : EnigoCall → Except String Unit)

/-- One call of `enigo`, and how it went. -/
def enigo (call : EnigoCall) : List EnigoCall × Except InputError Unit :=
  ([call], (outcome call).mapError fun e => .backend s!"enigo: {e}")

/-- The calls a command is carried out by.  A wheel that does not scroll one way is not asked to
    scroll the other. -/
def inject : InputCommand → List EnigoCall × Except InputError Unit
  | .mouseMoveAbs x y => enigo outcome (.moveMouse x y .abs)
  | .mouseMoveRel dx dy => enigo outcome (.moveMouse dx dy .rel)
  | .mouseButton button pressed =>
    enigo outcome (.button (mapButton button) (if pressed then .press else .release))
  | .mouseWheel x y =>
    let down := if y ≠ 0 then enigo outcome (.scroll (wheelLines y) .vertical) else ([], .ok ())
    match down.2 with
    | .error e => (down.1, .error e)
    | .ok () =>
      let right := if x ≠ 0 then enigo outcome (.scroll (wheelLines x) .horizontal) else ([], .ok ())
      (down.1 ++ right.1, right.2)
  | .key id _ _ action =>
    let d := match action with
      | .down | .autoRepeat _ => Direction.press
      | .up => Direction.release
    match mapKey id with
    | some k => enigo outcome (.key k d)
    | none => ([], .ok ())

end

/-- All that is asked for by commands, each with the way its calls went; a command that fails is
    logged and the next one taken. -/
def asked (cmds : List (InputCommand × (EnigoCall → Except String Unit))) : List EnigoCall :=
  cmds.flatMap fun cmd => (inject cmd.2 cmd.1).1

theorem toInt_lines (delta : Int16) : (delta.toInt32 / 120).toInt = delta.toInt.tdiv 120 := by
  rw [Int32.toInt_div_of_ne_right _ _ (by decide), Int16.toInt_toInt32]
  rfl

theorem toInt_neg_of_small {d : Int32} (hlo : -40000 ≤ d.toInt) (hhi : d.toInt ≤ 40000) :
    (-d).toInt = -d.toInt := by
  rw [Int32.toInt_neg, Int.bmod_eq_of_le] <;> omega

theorem toInt_signum (d : Int32) : (signum d).toInt = d.toInt.sign := by
  unfold signum
  by_cases hpos : 0 < d
  · rw [if_pos hpos]
    exact (Int.sign_eq_one_of_pos (Int32.lt_iff_toInt_lt.mp hpos)).symm
  · by_cases hneg : d < 0
    · rw [if_neg hpos, if_pos hneg]
      exact (Int.sign_eq_neg_one_of_neg (Int32.lt_iff_toInt_lt.mp hneg)).symm
    · rw [if_neg hpos, if_neg hneg]
      have hzero : d.toInt = 0 := by
        rw [Int32.lt_iff_toInt_lt] at hpos hneg
        have h0 : (0 : Int32).toInt = 0 := rfl
        omega
      rw [hzero]
      rfl

/-- The same in whole numbers: division that rounds towards zero, the sign where it gives nothing. -/
theorem wheelLines_eq (delta : Int16) :
    (wheelLines delta).toInt =
      if delta.toInt.tdiv 120 = 0 then -delta.toInt.sign else -delta.toInt.tdiv 120 := by
  have hlo : -32768 ≤ delta.toInt := delta.le_toInt
  have hhi : delta.toInt < 32768 := delta.toInt_lt
  have hlines := toInt_lines delta
  have hsign := toInt_signum delta.toInt32
  rw [Int16.toInt_toInt32] at hsign
  have hzero : delta.toInt32 / 120 = 0 ↔ delta.toInt.tdiv 120 = 0 := by
    rw [← hlines, ← Int32.toInt_inj]
    rfl
  have hunit := Int.sign_trichotomy delta.toInt
  have hbound : (delta.toInt.tdiv 120).natAbs ≤ delta.toInt.natAbs := Int.natAbs_tdiv_le_natAbs _ _
  unfold wheelLines
  dsimp only
  by_cases h : delta.toInt32 / 120 = 0
  · rw [if_pos h, if_pos (hzero.mp h), toInt_neg_of_small (by omega) (by omega), hsign]
  · rw [if_neg h, if_neg (mt hzero.mpr h), toInt_neg_of_small (by omega) (by omega), hlines]

/-- **Scrolling never stalls and never turns round**: a delta scrolls against its sign, by its whole
    notches, and by one line if it is less than a notch. -/
theorem wheelLines_toInt (delta : Int16) :
    (wheelLines delta).toInt =
      -(delta.toInt.sign * max (min 1 delta.toInt.natAbs) (delta.toInt.natAbs / 120)) := by
  rw [wheelLines_eq]
  rcases Int.lt_trichotomy delta.toInt 0 with hneg | hnil | hpos
  · have hdiv : delta.toInt.tdiv 120 = -(-delta.toInt / 120) := by
      rw [← Int.tdiv_eq_ediv_of_nonneg (by omega), Int.neg_tdiv, Int.neg_neg]
    rw [hdiv, Int.sign_eq_neg_one_of_neg hneg]
    split <;> omega
  · rw [hnil]
    rfl
  · rw [Int.tdiv_eq_ediv_of_nonneg (Int.le_of_lt hpos), Int.sign_eq_one_of_pos hpos]
    split <;> omega
end EnigoInjector

/-! ## The tables together -/

/-- Something with a press and a release on the server's machine. -/
inductive Switch where
  | key (k : RKey)
  | button (b : RButton)
  deriving DecidableEq, Repr

/-- The same on the machine under control. -/
inductive Target where
  | key (k : EnigoKey)
  | button (b : EnigoButton)
  deriving DecidableEq, Repr

/-- What a switch presses at the far end, if anything. -/
def reached : Switch → Option Target
  | .key k => ((mapKey k).bind EnigoInjector.mapKey).map .key
  | .button b => some (.button (EnigoInjector.mapButton (mapButton b)))

namespace RKey

/-- The keys the capture layer's table names. -/
def named : List RKey :=
  [keyA, keyB, keyC, keyD, keyE, keyF, keyG, keyH, keyI, keyJ, keyK, keyL, keyM, keyN, keyO, keyP,
    keyQ, keyR, keyS, keyT, keyU, keyV, keyW, keyX, keyY, keyZ, num0, num1, num2, num3, num4, num5,
    num6, num7, num8, num9, space, «return», tab, backspace, escape, delete, insert, home, «end»,
    pageUp, pageDown, upArrow, downArrow, leftArrow, rightArrow, shiftLeft, shiftRight, controlLeft,
    controlRight, alt, altGr, metaLeft, metaRight, capsLock, f1, f2, f3, f4, f5, f6, f7, f8, f9, f10,
    f11, f12, minus, equal, leftBracket, rightBracket, semiColon, quote, backSlash, comma, dot,
    slash, backQuote]

/-- The left one of two modifiers, any other key itself. -/
def left : RKey → RKey
  | shiftRight => shiftLeft
  | controlRight => controlLeft
  | altGr => alt
  | metaRight => metaLeft
  | k => k

/-- A key is in the table or has no name. -/
theorem mem_named (k : RKey) : k ∈ named ∨ ∃ code, k = other code := by
  cases k with
  | other code => exact .inr ⟨code, rfl⟩
  | _ => exact .inl (by decide)

end RKey

/-- **What is captured is injected, Insert excepted.** -/
theorem reached_key_eq_none {k : RKey} :
    reached (.key k) = none ↔ k = .insert ∨ ∃ code, k = .other code := by
  have hnamed : ∀ k ∈ RKey.named, reached (.key k) = none ↔ k = .insert := by decide +kernel
  rcases k.mem_named with hk | ⟨code, rfl⟩
  · rw [hnamed k hk]
    refine ⟨.inl, ?_⟩
    rintro (h | ⟨code, rfl⟩)
    · exact h
    · simp [RKey.named] at hk
  · exact ⟨fun _ => .inr ⟨code, rfl⟩, fun _ => rfl⟩

/-- **No two keys become one, the left and the right of a modifier excepted.** -/
theorem reached_key_eq_iff {k k' : RKey} (h : reached (.key k) ≠ none) :
    reached (.key k) = reached (.key k') ↔ k.left = k'.left := by
  have hnamed : ∀ k ∈ RKey.named, ∀ k' ∈ RKey.named, reached (.key k) ≠ none →
      (reached (.key k) = reached (.key k') ↔ k.left = k'.left) := by decide +kernel
  rcases k.mem_named with hk | ⟨code, rfl⟩
  · rcases k'.mem_named with hk' | ⟨code, rfl⟩
    · exact hnamed k hk k' hk' h
    · refine ⟨fun heq => absurd heq h, ?_⟩
      intro hleft
      revert h
      cases k <;> cases hleft
      exact fun h => absurd rfl h
  · exact absurd rfl h

/-! ## Presses and releases on the way -/

def EventType.flip : EventType → Option (Switch × Bool)
  | .keyPress k => some (.key k, true)
  | .keyRelease k => some (.key k, false)
  | .buttonPress b => some (.button b, true)
  | .buttonRelease b => some (.button b, false)
  | .wheel .. => none

def EnigoCall.flip : EnigoCall → Option (Target × Bool)
  | .key k d => some (.key k, d = .press)
  | .button b d => some (.button b, d = .press)
  | _ => none

/-- What a command presses or releases when it is carried out. -/
def InputCommand.flip : InputCommand → Option (Target × Bool)
  | .key id _ _ action => (EnigoInjector.mapKey id).map fun k => (.key k, action ≠ .up)
  | .mouseButton b pressed => some (.button (EnigoInjector.mapButton b), pressed)
  | _ => none

/-- The backend asks for one press or release for each command that has one, however that goes. -/
theorem inject_flips (outcome : EnigoCall → Except String Unit) (cmd : InputCommand) :
    (EnigoInjector.inject outcome cmd).1.filterMap EnigoCall.flip = cmd.flip.toList := by
  cases cmd with
  | mouseMoveAbs x y => rfl
  | mouseMoveRel dx dy => rfl
  | mouseButton b pressed => cases pressed <;> rfl
  | mouseWheel x y =>
    have hscroll : ∀ axis length, (EnigoInjector.enigo outcome (.scroll length axis)).1.filterMap
        EnigoCall.flip = [] := fun _ _ => rfl
    simp only [EnigoInjector.inject, InputCommand.flip, Option.toList_none]
    split
    · split <;> simp [hscroll]
    · rw [List.filterMap_append]
      split <;> split <;> simp [hscroll]
  | key id mask b action =>
    simp only [EnigoInjector.inject, InputCommand.flip]
    cases EnigoInjector.mapKey id with
    | none => rfl
    | some k => cases action <;> rfl

/-- What the backend is asked for is what its commands press and release, in order. -/
theorem asked_flips (cmds : List (InputCommand × (EnigoCall → Except String Unit))) :
    (EnigoInjector.asked cmds).filterMap EnigoCall.flip =
      (cmds.map Prod.fst).filterMap InputCommand.flip := by
  induction cmds with
  | nil => rfl
  | cons cmd cmds ih =>
    have hcons : EnigoInjector.asked (cmd :: cmds) =
        (EnigoInjector.inject cmd.2 cmd.1).1 ++ EnigoInjector.asked cmds := rfl
    rw [hcons, List.filterMap_append, inject_flips, ih, List.map_cons]
    cases h : cmd.1.flip with
    | none => rw [List.filterMap_cons_none h, Option.toList_none, List.nil_append]
    | some flip => rw [List.filterMap_cons_some h, Option.toList_some, List.singleton_append]

/-- A captured event becomes a command that presses and releases what its switch reaches. -/
theorem translate_flips (ev : EventType) :
    (((translate ev).toList.flatMap commandOf).filterMap InputCommand.flip) =
      through reached ev.flip.toList := by
  cases ev with
  | keyPress k | keyRelease k =>
    simp only [translate, EventType.flip, through, reached]
    cases hk : mapKey k with
    | none => simp [hk]
    | some id =>
      cases hid : EnigoInjector.mapKey id with
      | none => simp [hk, hid, commandOf, InputCommand.flip]
      | some K => simp [hk, hid, commandOf, InputCommand.flip]
  | buttonPress b | buttonRelease b => rfl
  | wheel deltaX deltaY => rfl

/-! ## One input, seen by one client -/

/-- Messages that report neither a key nor a button make a client press nothing. -/
theorem presses_nothing {msg : Message} {screen : String} {m m' : ServerMachine}
    {acts : List ServerAction} (h : MotionOutcome m m' acts) (hmem : .send screen msg ∈ acts)
    (c : ClientMachine) : (injected (c.handle msg).2).filterMap InputCommand.flip = [] := by
  rcases h.mem_send hmem with ⟨-, -, rfl | ⟨p, rfl⟩⟩ | ⟨cr, -, -, -, rfl⟩
  · rfl
  · simp only [moveMsg, ClientMachine.handle, injectIfActive]
    split <;> rfl
  · rfl

theorem presses_nothing_run {msgs : List Message}
    (h : ∀ msg ∈ msgs, ∀ c : ClientMachine,
      (injected (c.handle msg).2).filterMap InputCommand.flip = []) (c : ClientMachine) :
    (injected (Mealy.run ClientMachine.handle c msgs).2).filterMap InputCommand.flip = [] := by
  induction msgs generalizing c with
  | nil => rfl
  | cons msg msgs ih =>
    rw [Mealy.run_cons, injected_append, List.filterMap_append, h msg List.mem_cons_self,
      ih fun msg hmem => h msg (List.mem_cons_of_mem _ hmem)]
    rfl

/-- What one event types on the screen `s`. -/
theorem typedOn_typing (s : String) (m : ServerMachine) (ev : LocalEvent) :
    typedOn s (m.typing (.event ev)).2 = if m.active = s then commandOf ev else [] := by
  unfold typedOn typing
  rw [List.filterMap_map]
  by_cases hact : m.active = s
  · rw [if_pos hact]
    simp only [Function.comp_def, hact, if_true]
    exact List.filterMap_some
  · rw [if_neg hact]
    simp [hact]

/-- **One input**: the client of `s` presses and releases what is typed there, and nothing else. -/
theorem presses_step {home s : String} (hs : s ≠ home) {m : ServerMachine} {c : ClientMachine}
    (hhome : m.localScreen = home) (hentered : c.entered = true ↔ m.active = s) (i : UserInput) :
    (injected (Mealy.run ClientMachine.handle c
        (addressed post s (m.onInput i).2)).2).filterMap InputCommand.flip =
      (typedOn s (m.typing i).2).filterMap InputCommand.flip := by
  cases i with
  | setLock locked => rfl
  | toggleLock => rfl
  | event ev =>
    rw [typedOn_typing]
    show (injected (Mealy.run ClientMachine.handle c
      (addressed post s (m.handle ev).2)).2).filterMap _ = _
    have hout := handle_outcome m ev
    generalize (m.handle ev).1 = m', (m.handle ev).2 = acts at hout ⊢
    cases hout with
    | motion m₁ _ _ hm ho =>
      rw [presses_nothing_run fun msg hmem => presses_nothing ho (mem_addressed.mp hmem)]
      -- a motion types nothing
      cases ev with
      | motionAbs x y => split <;> rfl
      | motionRel dx dy => split <;> rfl
      | _ => cases hm
    | forward msg hr hf =>
      rw [addressed_send]
      by_cases hact : m.active = s
      · rw [if_pos hact, if_pos hact, Mealy.run_singleton, handle_forwarded (hentered.mpr hact) hf,
          injected_map]
      · rw [if_neg hact, if_neg hact]
        rfl
    | ignore hm hf =>
      by_cases hact : m.active = s
      · have hnone : forwarded ev = none :=
          hf.resolve_left fun hlocal => hs (hact.symm.trans (hlocal.trans hhome))
        rw [if_pos hact, commandOf_of_not_forwarded hnone]
        rfl
      · rw [if_neg hact]
        rfl

/-! ## Whole runs -/

/-- What the user does. -/
inductive Gesture where
  | captured (ev : EventType)
  | motionAbs (x y : Int32)
  | motionRel (dx dy : Int32)
  | setLock (locked : Bool)
  | toggleLock
  deriving DecidableEq, Repr

/-- What the machine hears of it, if anything. -/
def Gesture.input : Gesture → Option UserInput
  | .captured ev => (translate ev).map .event
  | .motionAbs x y => some (.event (.motionAbs x y))
  | .motionRel dx dy => some (.event (.motionRel dx dy))
  | .setLock locked => some (.setLock locked)
  | .toggleLock => some .toggleLock

def Gesture.flip : Gesture → Option (Switch × Bool)
  | .captured ev => ev.flip
  | _ => none

/-- One gesture, with the switch it flips if the screen `s` is active. -/
def ServerMachine.desk (s : String) (m : ServerMachine) (g : Gesture) :
    ServerMachine × List (Switch × Bool) :=
  ((Mealy.run onInput m g.input.toList).1, if m.active = s then g.flip.toList else [])

/-- The switches flipped while the screen `s` was active. -/
def flipsOn (layout : ScreenLayout) (home s : String) (gs : List Gesture) : List (Switch × Bool) :=
  (Mealy.run (desk s) (ServerMachine.new layout home) gs).2

/-- The presses and releases the backend has been asked for. -/
def pressedBy (cmds : List (InputCommand × (EnigoCall → Except String Unit))) :
    List (Target × Bool) :=
  (EnigoInjector.asked cmds).filterMap EnigoCall.flip

/-- In some interleaving the client of `s` has heard everything, and handed its backend `cmds`. -/
def HandsOver (layout : ScreenLayout) (home : String) (sizes : String → ScreenSize) (s : String)
    (gs : List Gesture) (cmds : List (InputCommand × (EnigoCall → Except String Unit))) : Prop :=
  ∃ es, inputs es = gs.filterMap Gesture.input ∧ (session layout home sizes es).queue s = [] ∧
    cmds.map Prod.fst = injected ((session layout home sizes es).log s)

section Run

variable (layout : ScreenLayout) {home s : String}

/-- What a gesture types on the screen is what it flips there. -/
theorem typed_flips (m : ServerMachine) (g : Gesture) :
    (typedOn s (Mealy.run typing m g.input.toList).2).filterMap InputCommand.flip =
      through reached (m.desk s g).2 := by
  cases g with
  | captured ev =>
    have hflips := translate_flips ev
    simp only [Gesture.input, desk, Gesture.flip]
    cases hev : translate ev with
    | none =>
      rw [hev] at hflips
      by_cases hact : m.active = s
      · rw [if_pos hact, ← hflips]
        rfl
      · rw [if_neg hact]
        rfl
    | some lev =>
      rw [hev] at hflips
      rw [Option.map_some, Option.toList_some, Mealy.run_singleton, typedOn_typing]
      by_cases hact : m.active = s
      · rw [if_pos hact, if_pos hact, ← hflips]
        simp
      · rw [if_neg hact, if_neg hact]
        rfl
  | motionAbs x y | motionRel dx dy =>
    simp only [Gesture.input, Option.toList_some, Mealy.run_singleton]
    rw [typedOn_typing]
    simp only [desk, Gesture.flip]
    split <;> rfl
  | setLock locked | toggleLock =>
    simp only [desk, Gesture.flip]
    split <;> rfl

theorem typed_through (m : ServerMachine) (gs : List Gesture) :
    (typedOn s (Mealy.run typing m (gs.filterMap Gesture.input)).2).filterMap InputCommand.flip =
      through reached (Mealy.run (desk s) m gs).2 := by
  induction gs generalizing m with
  | nil => rfl
  | cons g gs ih =>
    have hfirst : (g :: gs).filterMap Gesture.input =
        g.input.toList ++ gs.filterMap Gesture.input := by
      cases h : g.input <;> simp [h]
    rw [hfirst, Mealy.run_append, Mealy.run_cons, typedOn_append, List.filterMap_append,
      typed_flips, run_typing, ih, through_append]
    rfl

variable (hs : s ≠ home)
include hs

/-- A client that has heard everything presses and releases what was typed on its screen. -/
theorem heard_presses (size : ScreenSize) (is : List UserInput) :
    (injected (heard layout home s size is).2).filterMap InputCommand.flip =
      (typedOn s (typed layout home is)).filterMap InputCommand.flip := by
  unfold typed
  induction is using List.reverseRecOn with
  | nil => rfl
  | append_singleton is i ih =>
    obtain ⟨hhome, -⟩ := run_home layout home is
    have hentered := heard_entered layout hs size is
    rw [heard_concat, Mealy.run_concat, injected_append, typedOn_append, List.filterMap_append,
      List.filterMap_append, ih, run_typing]
    rw [presses_step hs hhome hentered i]

/-- **From the fingers to the far end.**  In every interleaving, once a client has heard everything,
    the presses and releases its backend has been asked for, however they went, are those made while
    its screen was active, seen through the two tables. -/
theorem HandsOver.pressed {sizes : String → ScreenSize} {gs : List Gesture}
    {cmds : List (InputCommand × (EnigoCall → Except String Unit))}
    (h : HandsOver layout home sizes s gs cmds) :
    pressedBy cmds = through reached (flipsOn layout home s gs) := by
  obtain ⟨es, hes, hdrained, hcmds⟩ := h
  have hlog := system_drained onInput post ClientMachine.handle (ServerMachine.new layout home)
    (fun s => acknowledged s (sizes s)) es hdrained
  have hheard : (session layout home sizes es).log s =
      (heard layout home s (sizes s) (gs.filterMap Gesture.input)).2 := by
    rw [← hes]
    exact congrArg Prod.snd hlog
  unfold pressedBy flipsOn
  rw [asked_flips, hcmds, hheard, heard_presses layout hs, typed, typed_through]

omit hs in
/-- Some interleaving does so. -/
theorem exists_handsOver (sizes : String → ScreenSize) (gs : List Gesture) :
    ∃ cmds, HandsOver layout home sizes s gs cmds := by
  obtain ⟨es, hes, hdrained⟩ := exists_drained onInput post ClientMachine.handle
    (ServerMachine.new layout home) (fun s => acknowledged s (sizes s))
    (gs.filterMap Gesture.input) s
  refine ⟨(injected ((session layout home sizes es).log s)).map fun cmd => (cmd, fun _ => .ok ()),
    es, hes, hdrained, ?_⟩
  rw [List.map_map]
  exact List.map_id _

/-- **What is down at the far end.**  For any layout and whatever the user does: in every
    interleaving, whenever a client has heard everything, every key and button down there is one
    that was pressed on its screen and has not been released there since; and all of these are down
    there, at every such moment, exactly if on its screen no key or button is released while another
    that reaches the same was pressed there and not released. -/
theorem mirrored_iff (sizes : String → ScreenSize) (gs : List Gesture) :
    (∀ cmds, HandsOver layout home sizes s gs cmds → ∀ y, On (pressedBy cmds) y →
      ∃ x, reached x = some y ∧ On (flipsOn layout home s gs) x) ∧
    ((∀ before, before <+: gs → ∀ cmds, HandsOver layout home sizes s before cmds → ∀ y,
        On (pressedBy cmds) y ↔ ∃ x, reached x = some y ∧ On (flipsOn layout home s before) x) ↔
      Mealy.EveryStep (desk s) (ServerMachine.new layout home) gs fun flips m g =>
        ∀ x, m.active = s → g.flip = some (x, false) → ¬Robs reached flips x) := by
  constructor
  · intro cmds hcmds y hon
    rw [hcmds.pressed layout hs] at hon
    exact exists_on reached hon
  · have hone : ∀ (m : ServerMachine) g, (m.desk s g).2 = [] ∨ ∃ flip, (m.desk s g).2 = [flip] := by
      intro m g
      simp only [desk]
      split
      · cases g.flip <;> simp
      · exact .inl rfl
    have hstep : ∀ (m : ServerMachine) g x,
        (x, false) ∈ (m.desk s g).2 ↔ m.active = s ∧ g.flip = some (x, false) := by
      intro m g x
      simp only [desk]
      by_cases hact : m.active = s <;> simp [hact]
    have hmirrors := mirrors_throughout_iff reached (desk s) hone (ServerMachine.new layout home) gs
    simp only [hstep, and_imp] at hmirrors
    rw [← hmirrors]
    constructor
    · intro hall before hpre y
      obtain ⟨cmds, hcmds⟩ := exists_handsOver layout sizes before
      have hagree := hall before hpre cmds hcmds y
      rw [hcmds.pressed layout hs] at hagree
      exact hagree
    · intro hall before hpre cmds hcmds y
      rw [hcmds.pressed layout hs]
      exact hall before hpre y

end Run

/-- Both shifts are pressed on the laptop's screen and one is let go: at the far end none is down. -/
theorem twins_let_go_together :
    ¬∀ before,
      before <+: [.motionAbs 1919 540, .captured (.keyPress .shiftLeft),
        .captured (.keyPress .shiftRight), .captured (.keyRelease .shiftLeft)] →
      ∀ cmds, HandsOver twoScreens "srv" (fun _ => ⟨1280, 800⟩) "lap" before cmds → ∀ y,
        On (pressedBy cmds) y ↔
          ∃ x, reached x = some y ∧ On (flipsOn twoScreens "srv" "lap" before) x := by
  rw [(mirrored_iff twoScreens (show "lap" ≠ "srv" by decide) (fun _ => ⟨1280, 800⟩) _).2]
  intro hevery
  refine hevery [.motionAbs 1919 540, .captured (.keyPress .shiftLeft),
    .captured (.keyPress .shiftRight)] _ (List.prefix_refl _) (.key .shiftLeft) (by decide) rfl
    ⟨.key .shiftRight, by decide, by decide, by decide, ?_⟩
  have hflips : (Mealy.run (desk "lap") (ServerMachine.new twoScreens "srv")
      [.motionAbs 1919 540, .captured (.keyPress .shiftLeft),
        .captured (.keyPress .shiftRight)]).2 =
      [(.key .shiftLeft, true)] ++ [(.key .shiftRight, true)] := by decide
  rw [hflips]
  exact on_concat_self.mpr rfl

end SelfKvm
