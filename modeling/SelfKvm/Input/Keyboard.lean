/-
  The tracked modifiers against the keyboard (`kvm-core/src/server.rs`, `track_modifiers`).

  The machine keeps one mask, which every `Enter` carries to the screen that is entered.  It takes
  the mask of the captured event for the state of the keyboard and corrects it by the event's own
  key; but the capture layer's masks are empty, so each key event wipes out what the earlier ones
  left (`DeskState.Tracks`): all the machine knows is the key event captured last.

  `enter_modifiers_exact` draws the line.  The mask in an `Enter` is the union of the bits of the
  keys physically held exactly if every modifier key held there has the bit of the key that was
  captured last, by its press.
-/
import SelfKvm.Daemon.Controller
import SelfKvm.Input.Capture

namespace SelfKvm

open ServerMachine

/-! ## The keyboard -/

/-- The modifier a physical key stands for, none for most of them. -/
def RKey.bit (k : RKey) : KeyModifierMask := ((mapKey k).map modifierBitFor).getD 0

/-- What is known of the keyboard from outside the machine. -/
structure Keyboard where
  /-- The keys physically down. -/
  held : List RKey
  /-- The key whose press is the key event captured last; none when that was a release. -/
  latest : Option RKey

namespace Keyboard

/-- The union of the bits of the keys held. -/
def mask (kb : Keyboard) : KeyModifierMask := (kb.held.map RKey.bit).foldr (· ||| ·) 0

/-- The bit of the key captured last, if it was pressed. -/
def latestBit (kb : Keyboard) : KeyModifierMask := (kb.latest.map RKey.bit).getD 0

/-- A key the capture layer does not know changes nothing but what is down. -/
def touch (kb : Keyboard) : EventType → Keyboard
  | .keyPress k =>
    { held := k :: kb.held.filter (· ≠ k), latest := if (mapKey k).isSome then some k else kb.latest }
  | .keyRelease k =>
    { held := kb.held.filter (· ≠ k), latest := if (mapKey k).isSome then none else kb.latest }
  | _ => kb

/-- Every modifier key held has the bit of the key captured last. -/
def Lone (kb : Keyboard) : Prop := ∀ k ∈ kb.held, k.bit ≠ 0 → k.bit = kb.latestBit

end Keyboard

/-! ## The desk -/

/-- A call of the machine that reports a key. -/
def ServerOp.isKey : ServerOp → Bool
  | .handle (.key ..) => true
  | _ => false

/-- What happens at the server's desk. -/
inductive DeskEvent where
  | captured (ev : EventType)
  /-- Any motion, and any other call that drives the machine. -/
  | call (op : ServerOp) (hop : op.isKey = false)

/-- The machine with the keyboard in front of it. -/
structure DeskState where
  machine : ServerMachine
  keyboard : Keyboard

namespace DeskState

def new (layout : ScreenLayout) (home : String) : DeskState :=
  { machine := .new layout home, keyboard := { held := [], latest := none } }

/-- What the machine is told, if anything. -/
def heard : DeskEvent → Option ServerOp
  | .captured ev => (translate ev).map ServerOp.handle
  | .call op _ => some op

def touched (kb : Keyboard) : DeskEvent → Keyboard
  | .captured ev => kb.touch ev
  | .call _ _ => kb

def step (d : DeskState) (e : DeskEvent) : DeskState × List ServerAction :=
  let keyboard := touched d.keyboard e
  match heard e with
  | some op =>
    let (machine, acts) := d.machine.step op
    ({ machine, keyboard }, acts)
  | none => ({ d with keyboard }, [])

/-- Every `Enter` of the step carries the modifiers that are held. -/
def CarriesHeld (d : DeskState) (e : DeskEvent) : Prop :=
  ∀ screen x y seq modifiers, .send screen (.enter x y seq modifiers) ∈ (d.step e).2 →
    modifiers = d.keyboard.mask

/-- If the step takes the cursor to a client screen, no modifier is held but the one pressed last. -/
def EntersLone (d : DeskState) (e : DeskEvent) : Prop :=
  ∀ le screen, heard e = some (.handle le) → d.machine.destination le = some screen →
    d.keyboard.Lone

end DeskState

/-! ## Bits -/

/-- Every key has one bit at most. -/
def modifierBits : List KeyModifierMask :=
  [0, Modifier.shift, Modifier.control, Modifier.alt, Modifier.altGr, Modifier.super,
    Modifier.«meta»]

theorem modifierBitFor_mem (id : KeyId) : modifierBitFor id ∈ modifierBits := by
  unfold modifierBitFor
  repeat' split
  all_goals decide

theorem RKey.bit_mem (k : RKey) : k.bit ∈ modifierBits := by
  unfold RKey.bit
  cases mapKey k with
  | none => exact List.mem_cons_self
  | some id => exact modifierBitFor_mem id

/-- A bit that is part of another is that bit, or nothing. -/
theorem bit_eq_of_or_eq {a b : KeyModifierMask} (ha : a ∈ modifierBits) (hb : b ∈ modifierBits)
    (h : a ||| b = b) : a = 0 ∨ a = b := by
  have hall : (modifierBits.all fun a => modifierBits.all fun b =>
      decide (a ||| b = b → a = 0 ∨ a = b)) = true := by decide
  exact of_decide_eq_true (List.all_eq_true.mp (List.all_eq_true.mp hall a ha) b hb) h

namespace Keyboard

variable {kb : Keyboard}

/-- What is held is in the mask. -/
theorem bit_or_mask {k : RKey} (hk : k ∈ kb.held) : k.bit ||| kb.mask = kb.mask := by
  obtain ⟨held, latest⟩ := kb
  simp only [mask] at hk ⊢
  induction held with
  | nil => cases hk
  | cons j held ih =>
    rw [List.map_cons, List.foldr_cons]
    rcases List.mem_cons.mp hk with rfl | hk
    · rw [← UInt16.or_assoc, UInt16.or_self]
    · rw [← UInt16.or_assoc, UInt16.or_comm k.bit, UInt16.or_assoc, ih hk]

/-- Keys that all have one bit give that bit or nothing. -/
theorem mask_of_all {b : KeyModifierMask} (h : ∀ k ∈ kb.held, k.bit ≠ 0 → k.bit = b) :
    kb.mask = 0 ∨ kb.mask = b := by
  obtain ⟨held, latest⟩ := kb
  simp only [mask] at h ⊢
  induction held with
  | nil => exact .inl rfl
  | cons j held ih =>
    rw [List.map_cons, List.foldr_cons]
    have hrest := ih fun k hk => h k (List.mem_cons_of_mem j hk)
    by_cases hj : j.bit = 0
    · rwa [hj, UInt16.zero_or]
    · right
      rw [h j List.mem_cons_self hj]
      rcases hrest with hrest | hrest
      · rw [hrest, UInt16.or_zero]
      · rw [hrest, UInt16.or_self]

theorem latestBit_mem (kb : Keyboard) : kb.latestBit ∈ modifierBits := by
  unfold latestBit
  cases kb.latest with
  | none => exact List.mem_cons_self
  | some k => exact k.bit_mem

/-- **When the last key tells the whole keyboard**: the union of the bits held is that of the key
    captured last exactly if no modifier with another bit is held. -/
theorem mask_eq_latestBit (hlatest : ∀ k, kb.latest = some k → k ∈ kb.held) :
    kb.latestBit = kb.mask ↔ kb.Lone := by
  constructor
  · intro heq k hk hbit
    have hor := bit_or_mask hk
    rw [← heq] at hor
    exact (bit_eq_of_or_eq k.bit_mem kb.latestBit_mem hor).resolve_left hbit
  · intro hlone
    rcases mask_of_all hlone with hmask | hmask
    · rw [hmask]
      cases hl : kb.latest with
      | none => rw [latestBit, hl]; rfl
      | some k =>
        -- the key pressed last is down, so its bit is in the mask
        have hor := bit_or_mask (hlatest k hl)
        rw [hmask, UInt16.or_zero] at hor
        rw [latestBit, hl]
        exact hor
    · exact hmask.symm

end Keyboard

/-! ## What the machine tracks -/

/-- Calls that report no key leave the modifiers alone. -/
theorem step_modifiers {m : ServerMachine} {op : ServerOp} (hop : op.isKey = false) :
    (m.step op).1.modifiers = m.modifiers := by
  cases op with
  | handle ev =>
    show (m.handle ev).1.modifiers = m.modifiers
    rw [handle_modifiers]
    cases ev with
    | key => cases hop
    | _ => rfl
  | goHome =>
    show m.goHome.1.modifiers = m.modifiers
    by_cases hr : m.active = m.localScreen
    · rw [goHome_local hr]
    · rw [goHome_remote hr]
      rfl
  | _ => rfl

/-- Only a motion enters a screen. -/
theorem mem_step_enter {m : ServerMachine} {op : ServerOp} {screen : String} {x y : Int16}
    {seq : UInt32} {modifiers : KeyModifierMask}
    (h : .send screen (.enter x y seq modifiers) ∈ (m.step op).2) :
    ∃ le, op = .handle le ∧ .send screen (.enter x y seq modifiers) ∈ (m.handle le).2 := by
  cases op with
  | handle le => exact ⟨le, rfl, h⟩
  | goHome => exact absurd h Controller.goHome_sends_nothing
  | _ => cases h

namespace DeskState

/-- **All the machine knows**: its modifiers are those of the key event captured last. -/
structure Tracks (d : DeskState) : Prop where
  modifiers : d.machine.modifiers = d.keyboard.latestBit
  /-- The key captured last is down if it was pressed. -/
  latest : ∀ k, d.keyboard.latest = some k → k ∈ d.keyboard.held ∧ (mapKey k).isSome = true

/-- An empty mask with a press leaves the bit of the key pressed. -/
theorem trackModifiers_press (m : ServerMachine) (id : KeyId) (button : KeyButton) :
    (m.trackModifiers (.key id 0 button .down)).modifiers = modifierBitFor id := by
  unfold trackModifiers
  by_cases hbit : modifierBitFor id = 0
  · simp [hbit]
  · simp [hbit]

/-- With a release it leaves nothing. -/
theorem trackModifiers_release (m : ServerMachine) (id : KeyId) (button : KeyButton) :
    (m.trackModifiers (.key id 0 button .up)).modifiers = 0 := by
  unfold trackModifiers
  by_cases hbit : modifierBitFor id = 0
  · simp [hbit]
  · simp [hbit]

variable {d : DeskState}

/-- A key the table does not name is not the one captured last. -/
theorem Tracks.kept (h : d.Tracks) {k j : RKey} (hk : mapKey k = none)
    (hj : d.keyboard.latest = some j) :
    j ∈ d.keyboard.held.filter (· ≠ k) ∧ (mapKey j).isSome = true := by
  obtain ⟨hheld, hmapped⟩ := h.latest j hj
  refine ⟨List.mem_filter.mpr ⟨hheld, decide_eq_true ?_⟩, hmapped⟩
  rintro rfl
  rw [hk] at hmapped
  cases hmapped

/-- A step keeps what the machine knows up to date. -/
theorem Tracks.step (h : d.Tracks) (e : DeskEvent) : (d.step e).1.Tracks := by
  have hcall : ∀ (op : ServerOp) (_ : op.isKey = false),
      Tracks { machine := (d.machine.step op).1, keyboard := d.keyboard } :=
    fun op hop => ⟨(step_modifiers hop).trans h.modifiers, h.latest⟩
  cases e with
  | call op hop => exact hcall op hop
  | captured ev =>
    cases ev with
    | keyPress k =>
      cases hk : mapKey k with
      | none =>
        simp only [DeskState.step, heard, touched, translate, Keyboard.touch, hk, Option.map_none,
          Option.isSome_none, Bool.false_eq_true, if_false]
        refine ⟨h.modifiers, fun j hj => ?_⟩
        obtain ⟨hheld, hmapped⟩ := h.kept hk hj
        exact ⟨List.mem_cons_of_mem k hheld, hmapped⟩
      | some id =>
        simp only [DeskState.step, heard, touched, translate, Keyboard.touch, hk, Option.map_some,
          Option.isSome_some, if_true]
        constructor
        · show (d.machine.handle _).1.modifiers = k.bit
          rw [handle_modifiers, trackModifiers_press, RKey.bit, hk]
          rfl
        · intro j hj
          injection hj with hj
          subst hj
          exact ⟨List.mem_cons_self, Option.isSome_iff_exists.mpr ⟨id, hk⟩⟩
    | keyRelease k =>
      cases hk : mapKey k with
      | none =>
        simp only [DeskState.step, heard, touched, translate, Keyboard.touch, hk, Option.map_none,
          Option.isSome_none, Bool.false_eq_true, if_false]
        exact ⟨h.modifiers, fun j hj => h.kept hk hj⟩
      | some id =>
        simp only [DeskState.step, heard, touched, translate, Keyboard.touch, hk, Option.map_some,
          Option.isSome_some, if_true]
        refine ⟨?_, fun j hj => by cases hj⟩
        show (d.machine.handle _).1.modifiers = 0
        rw [handle_modifiers, trackModifiers_release]
    | buttonPress b => exact hcall (.handle (.button (mapButton b) true)) rfl
    | buttonRelease b => exact hcall (.handle (.button (mapButton b) false)) rfl
    | wheel x y => exact hcall (.handle (.wheel x.toInt16 y.toInt16)) rfl

/-- What a step sends is what its call sends. -/
theorem mem_step {d : DeskState} {e : DeskEvent} {act : ServerAction} :
    act ∈ (d.step e).2 ↔ ∃ op, heard e = some op ∧ act ∈ (d.machine.step op).2 := by
  unfold step
  cases heard e with
  | none => simp
  | some op => simp

/-! ## Whole runs -/

/-- **Exactly when `Enter` carries the state of the keyboard.**  For any layout and any presses and
    releases of any keys, interleaved with any motion and any other calls: every `Enter` carries the
    union of the bits of the keys that are physically held at that moment — if and only if at every
    crossing to a client screen no modifier is held with a bit other than that of the key captured
    last, by its press. -/
theorem enter_modifiers_exact (layout : ScreenLayout) (home : String) (es : List DeskEvent) :
    Mealy.EveryStep step (new layout home) es (fun _ d e => d.CarriesHeld e) ↔
      Mealy.EveryStep step (new layout home) es fun _ d e => d.EntersLone e := by
  have htracks : ∀ es, (Mealy.run step (new layout home) es).1.Tracks := by
    intro es
    apply Mealy.run_induction step (P := fun _ d _ => d.Tracks)
    · exact ⟨rfl, fun k hk => by cases hk⟩
    · exact fun _ _ _ e h => h.step e
  have hiff : ∀ es, (Mealy.run step (new layout home) es).1.keyboard.latestBit
        = (Mealy.run step (new layout home) es).1.keyboard.mask ↔
      (Mealy.run step (new layout home) es).1.keyboard.Lone :=
    fun es => Keyboard.mask_eq_latestBit fun k hk => ((htracks es).latest k hk).1
  constructor
  · intro hcarries js e hpre le screen hheard hdest
    obtain ⟨x, y, seq, hmem⟩ := enter_of_destination hdest
    have hmask := hcarries js e hpre screen x y seq _ (mem_step.mpr ⟨_, hheard, hmem⟩)
    rw [(htracks js).modifiers] at hmask
    exact (hiff js).mp hmask
  · intro hlone js e hpre screen x y seq modifiers hmem
    obtain ⟨op, hheard, hmem⟩ := mem_step.mp hmem
    obtain ⟨le, rfl, hmem⟩ := mem_step_enter hmem
    obtain ⟨hdest, rfl⟩ := mem_enter_destination hmem
    rw [(htracks js).modifiers]
    exact (hiff js).mpr (hlone js e hpre le screen hheard hdest)

/-- Shift is held, a letter is typed, the cursor crosses: the `Enter` carries no modifier. -/
theorem enter_forgets_shift :
    ¬ ∀ (layout : ScreenLayout) (home : String) (es : List DeskEvent),
      Mealy.EveryStep step (new layout home) es fun _ d e => d.CarriesHeld e := by
  intro hall
  have hcarries := hall twoScreens "srv"
    [.captured (.keyPress .shiftLeft), .captured (.keyPress .keyA),
      .captured (.keyRelease .keyA), .call (.handle (.motionAbs 1919 500)) rfl]
    [.captured (.keyPress .shiftLeft), .captured (.keyPress .keyA),
      .captured (.keyRelease .keyA)] (.call (.handle (.motionAbs 1919 500)) rfl)
    (List.prefix_refl _) "lap" 0 370 1 0 (by decide)
  revert hcarries
  decide

end DeskState

end SelfKvm
