/-
  Relative motion over whole runs.

  A backend that reports only deltas leaves it to the machine to know where the cursor is.  On a
  client's screen the machine clamps what crosses nothing, so the virtual cursor stays on the
  screen, no addition overflows, and after any push against an edge the way back starts at once.
  On the local screen the same branch stores the sum as it is, "OS owns the cursor" — but no
  absolute position ever corrects it, and the cursor drifts off by as much as it is pushed.
  `keeps_iff_safe` says that this, and a return to a local screen too small for the inset, is all
  that can go wrong.
-/
import SelfKvm.Core.Bounce
import SelfKvm.Base.Mealy
import Mathlib.Algebra.Group.Int.Defs

namespace SelfKvm

/-! ## Runs of relative motion -/

/-- A relative motion whose deltas fit in 16 bits, or a change of the lock. -/
inductive Nudge where
  | move (dx dy : Int16)
  | lock (locked : Bool)
  deriving DecidableEq, Repr

def Nudge.op : Nudge → ServerOp
  | .move dx dy => .handle (.motionRel dx.toInt32 dy.toInt32)
  | .lock locked => .setLock locked

/-- The deltas of a motion of `k` pixels away from an edge. -/
def Edge.inward (k : Int16) : Edge → Int16 × Int16
  | .left => (k, 0)
  | .right => (-k, 0)
  | .top => (0, k)
  | .bottom => (0, -k)

/-- Motions away from an edge, one after the other. -/
def Edge.retreat (e : Edge) (ks : List Int16) : List Nudge :=
  ks.map fun k => .move (e.inward k).1 (e.inward k).2

/-- How far they lead altogether. -/
def travel (ks : List Int16) : Int := ks.foldr (fun k total => k.toInt + total) 0

theorem travel_nonneg {ks : List Int16} (h : ∀ k ∈ ks, 0 ≤ k.toInt) : 0 ≤ travel ks := by
  induction ks with
  | nil => exact Int.le_refl 0
  | cons k ks ih =>
    have hk := h k List.mem_cons_self
    have hks := ih fun k' hk' => h k' (List.mem_cons_of_mem k hk')
    show 0 ≤ k.toInt + travel ks
    omega

namespace ScreenSize

/-- How many pixels inside the edge a position is. -/
def depth (s : ScreenSize) (x y : Int32) : Edge → Int
  | .left => x.toInt
  | .right => s.w.toInt - 1 - x.toInt
  | .top => y.toInt
  | .bottom => s.h.toInt - 1 - y.toInt

/-- How many pixels there are from the edge to the opposite one. -/
def extent (s : ScreenSize) : Edge → Int
  | .left | .right => s.w.toInt
  | .top | .bottom => s.h.toInt

/-- Positive, and small enough that a 16-bit delta cannot overflow a coordinate. -/
def Moderate (s : ScreenSize) : Prop := s.Positive ∧ s.w.toInt < 2 ^ 30 ∧ s.h.toInt < 2 ^ 30

end ScreenSize

namespace ServerMachine

def nudge (m : ServerMachine) (n : Nudge) : ServerMachine × List ServerAction := m.step n.op

/-- The cursor is on the active screen. -/
def OnScreen (m : ServerMachine) : Prop :=
  ∃ s, m.layout.sizeOf m.active = some s ∧ s.Inside m.cursorX m.cursorY

/-- The machine with its cursor moved, before the edges are tested. -/
def displaced (m : ServerMachine) (dx dy : Int16) : ServerMachine :=
  m.withCursor (m.cursorX + dx.toInt32, m.cursorY + dy.toInt32)

/-- What is asked of a step: the cursor ends on the active screen, the additions are exact, and if
    an edge was pushed against and not crossed, any number of motions back of altogether `k` pixels
    crosses nothing for `k` less than the extent of the screen, and as long as nothing is
    crossed, leaves the cursor `k` pixels inside that edge, the extent at most. -/
structure KeepsOnScreen (m : ServerMachine) (dx dy : Int16) : Prop where
  inside : (m.nudge (.move dx dy)).1.OnScreen
  exact_x : (m.cursorX + dx.toInt32).toInt = m.cursorX.toInt + dx.toInt
  exact_y : (m.cursorY + dy.toInt32).toInt = m.cursorY.toInt + dy.toInt
  pushed : ∀ e s, m.layout.sizeOf m.active = some s →
    s.Past (m.displaced dx dy).cursorX (m.displaced dx dy).cursorY 0 e →
    (m.displaced dx dy).crossing = none →
    ∀ ks : List Int16, (∀ k ∈ ks, 0 ≤ k.toInt) →
      let back := Mealy.run nudge (m.nudge (.move dx dy)).1 (e.retreat ks)
      (travel ks < s.extent e → ∀ screen, .activeChanged screen ∉ back.2) ∧
      ((∀ screen, .activeChanged screen ∉ back.2) → back.1.active = m.active ∧
        s.depth back.1.cursorX back.1.cursorY e = min (travel ks) (s.extent e - 1))

def Keeps (m : ServerMachine) : Nudge → Prop
  | .move dx dy => m.KeepsOnScreen dx dy
  | .lock _ => True

/-- The condition: a motion on the local screen that crosses nothing stays on it, and the local
    screen is at least 3x3 when a motion crosses to it. -/
def Safe (m : ServerMachine) : Nudge → Prop
  | .move dx dy =>
    ((m.displaced dx dy).crossing = none → m.active = m.localScreen →
      ∃ s, m.layout.sizeOf m.localScreen = some s ∧
        s.Inside (m.displaced dx dy).cursorX (m.displaced dx dy).cursorY) ∧
    ∀ c, (m.displaced dx dy).crossing = some c → c.target = m.localScreen →
      ∃ s, m.layout.sizeOf m.localScreen = some s ∧ 3 ≤ s.w.toInt ∧ 3 ≤ s.h.toInt
  | .lock _ => True

variable {m : ServerMachine} {dx dy : Int16}

/-- A motion is the test of the edges at the displaced position. -/
theorem move_outcome (m : ServerMachine) (dx dy : Int16) :
    MotionOutcome (m.displaced dx dy) (m.nudge (.move dx dy)).1 (m.nudge (.move dx dy)).2 := by
  have hout := handle_outcome m (.motionRel dx.toInt32 dy.toInt32)
  show MotionOutcome _ (m.handle _).1 (m.handle _).2
  generalize (m.handle (.motionRel dx.toInt32 dy.toInt32)).1 = m',
    (m.handle (.motionRel dx.toInt32 dy.toInt32)).2 = acts at hout ⊢
  cases hout with
  | motion m₁ _ _ hm ho =>
    injection hm with hm
    rw [← hm] at ho
    exact ho
  | forward msg _ hf => cases hf
  | ignore hm => cases hm

/-! ## On a client's screen -/

/-- Adding a 16-bit delta to a coordinate of a moderate screen is exact. -/
theorem add_delta_toInt {x n : Int32} (hx : OnAxis x n) (hn : n.toInt < 2 ^ 30) (d : Int16) :
    (x + d.toInt32).toInt = x.toInt + d.toInt := by
  obtain ⟨hx₀, hx₁⟩ := onAxis_iff.mp hx
  have hlo := d.le_toInt
  have hhi := d.toInt_lt
  rw [Int32.toInt_add, Int16.toInt_toInt32, Int.bmod_eq_of_le]
  · omega
  · omega

theorem neg_toInt {k : Int16} (hk : 0 ≤ k.toInt) : (-k).toInt = -k.toInt := by
  have hhi := k.toInt_lt
  rw [Int16.toInt_neg, Int.bmod_eq_of_le]
  · omega
  · omega

theorem clampTo_of_size {l : ScreenLayout} {screen : String} {s : ScreenSize}
    (hs : l.sizeOf screen = some s) (x y : Int32) :
    l.clampTo screen x y = (clamp x 0 (s.w - 1), clamp y 0 (s.h - 1)) := by
  obtain ⟨node, hnode, rfl⟩ := Option.map_eq_some_iff.mp hs
  unfold ScreenLayout.clampTo
  rw [hnode]

/-- Clamping to an axis. -/
theorem clampAxis_toInt {n : Int32} (hn : 0 < n) (v : Int32) :
    (clamp v 0 (n - 1)).toInt = min (max v.toInt 0) (n.toInt - 1) := by
  have hpos := Int32.lt_iff_toInt_lt.mp hn
  rw [Int32.toInt_zero] at hpos
  rw [clamp_toInt, pred_toInt hn, Int32.toInt_zero]
  omega

variable {s : ScreenSize} {e : Edge}

/-- What crosses nothing on a client's screen is clamped to it and forwarded. -/
theorem move_remote (hr : m.active ≠ m.localScreen) (hs : m.layout.sizeOf m.active = some s)
    (hc : (m.displaced dx dy).crossing = none) :
    (m.nudge (.move dx dy)).1 = m.withCursor (clamp (m.cursorX + dx.toInt32) 0 (s.w - 1),
      clamp (m.cursorY + dy.toInt32) 0 (s.h - 1)) ∧
    ∀ screen, .activeChanged screen ∉ (m.nudge (.move dx dy)).2 := by
  have hout := move_outcome m dx dy
  generalize (m.nudge (.move dx dy)).1 = m', (m.nudge (.move dx dy)).2 = acts at hout ⊢
  cases hout with
  | stay _ hl => exact absurd hl hr
  | move =>
    refine ⟨?_, fun screen hmem => by simp at hmem⟩
    show (m.displaced dx dy).withCursor (m.layout.clampTo m.active _ _) = _
    rw [clampTo_of_size hs]
    rfl
  | home c hc' => cases hc.symm.trans hc'
  | enter c hc' => cases hc.symm.trans hc'

/-- A motion that crosses something says so. -/
theorem move_switches {c : Crossing} (hc : (m.displaced dx dy).crossing = some c) :
    ∃ screen, .activeChanged screen ∈ (m.nudge (.move dx dy)).2 := by
  have hout := move_outcome m dx dy
  generalize (m.nudge (.move dx dy)).1 = m', (m.nudge (.move dx dy)).2 = acts at hout ⊢
  cases hout with
  | stay hnone => cases hnone.symm.trans hc
  | move hnone => cases hnone.symm.trans hc
  | home c' => exact ⟨m.localScreen, by simp [displaced, withCursor]⟩
  | enter c' => exact ⟨c'.target, by simp⟩

/-- A displacement that stays on a client's screen crosses nothing. -/
theorem displaced_crossing (hr : m.active ≠ m.localScreen)
    (hs : m.layout.sizeOf m.active = some s)
    (hin : s.Inside (m.displaced dx dy).cursorX (m.displaced dx dy).cursorY) :
    (m.displaced dx dy).crossing = none := by
  obtain ⟨node, hnode, rfl⟩ := Option.map_eq_some_iff.mp hs
  apply Settled.crossing
  unfold Settled
  rw [margin_remote (m := m.displaced dx dy) hr]
  exact ScreenLayout.no_crossing_inside hnode hin

/-- The position after a clamp is on the screen. -/
theorem inside_clamp (hs : s.Positive) (x y : Int32) :
    s.Inside (clamp x 0 (s.w - 1)) (clamp y 0 (s.h - 1)) :=
  ⟨onAxis_clamp hs.1 x, onAxis_clamp hs.2 y⟩

theorem depth_nonneg {x y : Int32} (h : s.Inside x y) (e : Edge) :
    0 ≤ s.depth x y e ∧ s.depth x y e ≤ s.extent e - 1 := by
  have hx := onAxis_iff.mp h.1
  have hy := onAxis_iff.mp h.2
  cases e with
  | left => exact ⟨hx.1, show x.toInt ≤ s.w.toInt - 1 by omega⟩
  | right => exact ⟨show 0 ≤ s.w.toInt - 1 - x.toInt by omega,
      show s.w.toInt - 1 - x.toInt ≤ s.w.toInt - 1 by omega⟩
  | top => exact ⟨hy.1, show y.toInt ≤ s.h.toInt - 1 by omega⟩
  | bottom => exact ⟨show 0 ≤ s.h.toInt - 1 - y.toInt by omega,
      show s.h.toInt - 1 - y.toInt ≤ s.h.toInt - 1 by omega⟩

/-- `k` pixels away from an edge, clamped. -/
theorem depth_inward (hs : s.Moderate) {x y : Int32} (h : s.Inside x y) {k : Int16}
    (hk : 0 ≤ k.toInt) (e : Edge) :
    s.depth (clamp (x + (e.inward k).1.toInt32) 0 (s.w - 1))
        (clamp (y + (e.inward k).2.toInt32) 0 (s.h - 1)) e =
      min (s.depth x y e + k.toInt) (s.extent e - 1) := by
  have hx := onAxis_iff.mp h.1
  have hy := onAxis_iff.mp h.2
  cases e with
  | left =>
    show (clamp (x + k.toInt32) 0 (s.w - 1)).toInt = min (x.toInt + k.toInt) (s.w.toInt - 1)
    rw [clampAxis_toInt hs.1.1, add_delta_toInt h.1 hs.2.1]
    omega
  | right =>
    show s.w.toInt - 1 - (clamp (x + (-k).toInt32) 0 (s.w - 1)).toInt =
      min (s.w.toInt - 1 - x.toInt + k.toInt) (s.w.toInt - 1)
    rw [clampAxis_toInt hs.1.1, add_delta_toInt h.1 hs.2.1, neg_toInt hk]
    omega
  | top =>
    show (clamp (y + k.toInt32) 0 (s.h - 1)).toInt = min (y.toInt + k.toInt) (s.h.toInt - 1)
    rw [clampAxis_toInt hs.1.2, add_delta_toInt h.2 hs.2.2]
    omega
  | bottom =>
    show s.h.toInt - 1 - (clamp (y + (-k).toInt32) 0 (s.h - 1)).toInt =
      min (s.h.toInt - 1 - y.toInt + k.toInt) (s.h.toInt - 1)
    rw [clampAxis_toInt hs.1.2, add_delta_toInt h.2 hs.2.2, neg_toInt hk]
    omega

/-- The axis that is not moved along. -/
theorem onAxis_still {x n : Int32} (h : OnAxis x n) : OnAxis (x + (0 : Int16).toInt32) n := by
  rw [show x + (0 : Int16).toInt32 = x from Int32.add_zero x]
  exact h

/-- The axis that is. -/
theorem onAxis_push {x n : Int32} {d : Int16} (h : OnAxis x n) (hn : n.toInt < 2 ^ 30)
    (hpush : 0 ≤ x.toInt + d.toInt ∧ x.toInt + d.toInt < n.toInt) : OnAxis (x + d.toInt32) n := by
  rw [onAxis_iff, add_delta_toInt h hn]
  exact hpush

/-- Less than the extent away from an edge is still on the screen. -/
theorem inside_inward (hs : s.Moderate) {x y : Int32} (h : s.Inside x y) {k : Int16}
    (hk : 0 ≤ k.toInt) (hlt : s.depth x y e + k.toInt < s.extent e) :
    s.Inside (x + (e.inward k).1.toInt32) (y + (e.inward k).2.toInt32) := by
  have hx := onAxis_iff.mp h.1
  have hy := onAxis_iff.mp h.2
  have hneg := neg_toInt hk
  cases e with
  | left =>
    have hpush : 0 ≤ x.toInt + k.toInt ∧ x.toInt + k.toInt < s.w.toInt := ⟨by omega, hlt⟩
    exact ⟨onAxis_push h.1 hs.2.1 hpush, onAxis_still h.2⟩
  | right =>
    have hlt' : s.w.toInt - 1 - x.toInt + k.toInt < s.w.toInt := hlt
    have hpush : 0 ≤ x.toInt + (-k).toInt ∧ x.toInt + (-k).toInt < s.w.toInt := by omega
    exact ⟨onAxis_push h.1 hs.2.1 hpush, onAxis_still h.2⟩
  | top =>
    have hpush : 0 ≤ y.toInt + k.toInt ∧ y.toInt + k.toInt < s.h.toInt := ⟨by omega, hlt⟩
    exact ⟨onAxis_still h.1, onAxis_push h.2 hs.2.2 hpush⟩
  | bottom =>
    have hlt' : s.h.toInt - 1 - y.toInt + k.toInt < s.h.toInt := hlt
    have hpush : 0 ≤ y.toInt + (-k).toInt ∧ y.toInt + (-k).toInt < s.h.toInt := by omega
    exact ⟨onAxis_still h.1, onAxis_push h.2 hs.2.2 hpush⟩

/-- One motion away from an edge that crosses nothing. -/
theorem move_inward (hs : s.Moderate) {k : Int16} (hk : 0 ≤ k.toInt)
    (hr : m.active ≠ m.localScreen) (hsize : m.layout.sizeOf m.active = some s)
    (hin : s.Inside m.cursorX m.cursorY)
    (hc : (m.displaced (e.inward k).1 (e.inward k).2).crossing = none) :
    ∃ m', (m.nudge (.move (e.inward k).1 (e.inward k).2)).1 = m' ∧ m'.active = m.active ∧
      m'.localScreen = m.localScreen ∧ m'.layout = m.layout ∧ s.Inside m'.cursorX m'.cursorY ∧
      s.depth m'.cursorX m'.cursorY e =
        min (s.depth m.cursorX m.cursorY e + k.toInt) (s.extent e - 1) := by
  obtain ⟨hm', -⟩ := move_remote hr hsize hc
  exact ⟨_, hm', rfl, rfl, rfl, inside_clamp hs.1 _ _, depth_inward hs hin hk e⟩

/-- **The way back from an edge.**  On a client's screen, any motions away from an edge cross
    nothing while they stay short of the extent, and as long as they cross nothing, the depth grows
    by their sum, up to the extent. -/
theorem retreat_run (hs : s.Moderate) {ks : List Int16} (hks : ∀ k ∈ ks, 0 ≤ k.toInt)
    (hr : m.active ≠ m.localScreen) (hsize : m.layout.sizeOf m.active = some s)
    (hin : s.Inside m.cursorX m.cursorY) :
    (s.depth m.cursorX m.cursorY e + travel ks < s.extent e →
      ∀ screen, .activeChanged screen ∉ (Mealy.run nudge m (e.retreat ks)).2) ∧
    ((∀ screen, .activeChanged screen ∉ (Mealy.run nudge m (e.retreat ks)).2) →
      (Mealy.run nudge m (e.retreat ks)).1.active = m.active ∧
      s.depth (Mealy.run nudge m (e.retreat ks)).1.cursorX
          (Mealy.run nudge m (e.retreat ks)).1.cursorY e =
        min (s.depth m.cursorX m.cursorY e + travel ks) (s.extent e - 1)) := by
  have hdepth := depth_nonneg hin e
  induction ks generalizing m with
  | nil =>
    refine ⟨fun _ screen hmem => (by cases hmem), fun _ => ⟨rfl, ?_⟩⟩
    show s.depth m.cursorX m.cursorY e = min (s.depth m.cursorX m.cursorY e + 0) _
    omega
  | cons k ks ih =>
    have hk := hks k List.mem_cons_self
    have hrest : ∀ k' ∈ ks, 0 ≤ k'.toInt := fun k' hk' => hks k' (List.mem_cons_of_mem k hk')
    have hsum := travel_nonneg hrest
    have hcons : e.retreat (k :: ks) = .move (e.inward k).1 (e.inward k).2 :: e.retreat ks := rfl
    have htravel : travel (k :: ks) = k.toInt + travel ks := rfl
    rw [hcons, htravel, Mealy.run_cons]
    cases hc : (m.displaced (e.inward k).1 (e.inward k).2).crossing with
    | some c =>
      obtain ⟨screen, hsw⟩ := move_switches hc
      constructor
      · intro hlt
        -- short of the extent it cannot have crossed anything
        have hin' := inside_inward (e := e) hs hin hk (by omega)
        cases (displaced_crossing hr hsize hin').symm.trans hc
      · intro hno
        exact absurd (List.mem_append_left _ hsw) (hno screen)
    | none =>
      obtain ⟨-, hquiet⟩ := move_remote hr hsize hc
      obtain ⟨m', hm', hactive', hlocal', hlayout', hin', hdepth'⟩ :=
        move_inward hs hk hr hsize hin hc
      obtain ⟨hshort, hfar⟩ := ih hrest (m := m') (by rw [hactive', hlocal']; exact hr)
        (by rw [hlayout', hactive']; exact hsize) hin' (depth_nonneg hin' e)
      rw [hm']
      constructor
      · intro hlt screen hmem
        rcases List.mem_append.mp hmem with hmem | hmem
        · exact hquiet screen hmem
        · exact hshort (by omega) screen hmem
      · intro hno
        obtain ⟨hactive, hend⟩ := hfar fun screen hmem => hno screen (List.mem_append_right _ hmem)
        refine ⟨hactive.trans hactive', ?_⟩
        show s.depth (Mealy.run nudge m' (e.retreat ks)).1.cursorX
          (Mealy.run nudge m' (e.retreat ks)).1.cursorY e = _
        omega

/-- Pushed past an edge and clamped, the cursor is at that edge. -/
theorem depth_pushed (hs : s.Positive) {x y : Int32} (hpast : s.Past x y 0 e) :
    s.depth (clamp x 0 (s.w - 1)) (clamp y 0 (s.h - 1)) e = 0 := by
  have hw := Int32.lt_iff_toInt_lt.mp hs.1
  have hh := Int32.lt_iff_toInt_lt.mp hs.2
  rw [Int32.toInt_zero] at hw hh
  cases e with
  | left =>
    have hx := Int32.lt_iff_toInt_lt.mp (show x < 0 from hpast)
    rw [Int32.toInt_zero] at hx
    show (clamp x 0 (s.w - 1)).toInt = 0
    rw [clampAxis_toInt hs.1]
    omega
  | right =>
    have hle : s.w - 0 ≤ x := hpast
    rw [Int32.sub_zero] at hle
    have hx := Int32.le_iff_toInt_le.mp hle
    show s.w.toInt - 1 - (clamp x 0 (s.w - 1)).toInt = 0
    rw [clampAxis_toInt hs.1]
    omega
  | top =>
    have hy := Int32.lt_iff_toInt_lt.mp (show y < 0 from hpast)
    rw [Int32.toInt_zero] at hy
    show (clamp y 0 (s.h - 1)).toInt = 0
    rw [clampAxis_toInt hs.2]
    omega
  | bottom =>
    have hle : s.h - 0 ≤ y := hpast
    rw [Int32.sub_zero] at hle
    have hy := Int32.le_iff_toInt_le.mp hle
    show s.h.toInt - 1 - (clamp y 0 (s.h - 1)).toInt = 0
    rw [clampAxis_toInt hs.2]
    omega

/-! ## One step -/

/-- The inset of the local screen lies on an axis of three pixels or more, and on no shorter one. -/
theorem onAxis_inset_iff {n : Int32} (v : Int32) :
    OnAxis (ordClamp v inset (max (n - 1 - inset) inset)) n ↔ 3 ≤ n.toInt := by
  have hinset : inset.toInt = 2 := rfl
  have hle : inset.toInt ≤ (max (n - 1 - inset) inset).toInt := by
    rw [max_toInt]
    omega
  have hbounds := ordClamp_bounds v hle
  rw [onAxis_iff]
  constructor
  · rintro ⟨-, hlt⟩
    omega
  · intro hn
    have hend := insetEnd_toInt (n := n) (by omega)
    omega

/-- A cursor that came home is on the screen if there is room for the inset. -/
theorem returned_onScreen (c : Crossing) : (m.returned c).OnScreen ↔
    ∃ s, m.layout.sizeOf m.localScreen = some s ∧ 3 ≤ s.w.toInt ∧ 3 ≤ s.h.toInt := by
  have hinside : ∀ s, m.layout.sizeOf m.localScreen = some s →
      (s.Inside (m.returned c).cursorX (m.returned c).cursorY ↔
        3 ≤ s.w.toInt ∧ 3 ≤ s.h.toInt) := by
    intro s hs
    show OnAxis (m.insetToLocal _ _).1 _ ∧ OnAxis (m.insetToLocal _ _).2 _ ↔ _
    rw [insetToLocal_of_size hs, onAxis_inset_iff, onAxis_inset_iff]
  constructor
  · rintro ⟨s, hs, hin⟩
    exact ⟨s, hs, (hinside s hs).mp hin⟩
  · rintro ⟨s, hs, hroom⟩
    exact ⟨s, hs, (hinside s hs).mpr hroom⟩

/-- A step after which the cursor is on the screen has met the condition. -/
theorem safe_of_keeps {n : Nudge} (h : m.Keeps n) : m.Safe n := by
  cases n with
  | lock locked => trivial
  | move dx dy =>
    have hin : (m.nudge (.move dx dy)).1.OnScreen := h.inside
    have hout := move_outcome m dx dy
    generalize (m.nudge (.move dx dy)).1 = m', (m.nudge (.move dx dy)).2 = acts at hout hin
    cases hout with
    | stay hc hr =>
      refine ⟨fun _ _ => ?_, fun c hc' => (by cases hc.symm.trans hc')⟩
      obtain ⟨s, hs, hinside⟩ := hin
      rw [hr] at hs
      exact ⟨s, hs, hinside⟩
    | move hc hr => exact ⟨fun _ hl => absurd hl hr, fun c hc' => (by cases hc.symm.trans hc')⟩
    | home c hc ht =>
      refine ⟨fun hc' => (by cases hc'.symm.trans hc), fun _ _ _ => ?_⟩
      exact (returned_onScreen (m := m.displaced dx dy) c).mp hin
    | enter c hc ht =>
      refine ⟨fun hc' => (by cases hc'.symm.trans hc), fun c' hc' ht' => ?_⟩
      obtain rfl : c = c' := Option.some.inj (hc.symm.trans hc')
      exact absurd ht' ht

/-- All sizes are moderate, and the cursor is on the active screen unless that is a local screen
    the layout does not have. -/
structure Placed (m : ServerMachine) : Prop where
  sizes : ∀ name s, m.layout.sizeOf name = some s → s.Moderate
  place : m.OnScreen ∨ m.active = m.localScreen ∧ m.layout.sizeOf m.localScreen = none

/-- A safe motion starts on the screen: one the layout does not have cannot be left. -/
theorem Placed.onScreen (h : m.Placed) (hsafe : m.Safe (.move dx dy)) : m.OnScreen := by
  rcases h.place with hon | ⟨hr, hnone⟩
  · exact hon
  · have hnode : m.layout.nodes m.localScreen = none := Option.map_eq_none_iff.mp hnone
    have hc : (m.displaced dx dy).crossing = none := by
      cases hc : (m.displaced dx dy).crossing with
      | none => rfl
      | some c =>
        obtain ⟨node, -, hnode', -⟩ := ScreenLayout.detectCrossing_eq_some.mp (crossing_eq_some hc).2
        have hactive : m.layout.nodes m.active = some node := hnode'
        rw [hr, hnode] at hactive
        cases hactive
    obtain ⟨s, hs, -⟩ := hsafe.1 hc hr
    rw [hnone] at hs
    cases hs

/-- **A safe motion ends on the screen.** -/
theorem onScreen_of_safe (hsizes : ∀ name s, m.layout.sizeOf name = some s → s.Moderate)
    (hon : m.OnScreen) (hsafe : m.Safe (.move dx dy)) : (m.nudge (.move dx dy)).1.OnScreen := by
  have hout := move_outcome m dx dy
  generalize (m.nudge (.move dx dy)).1 = m', (m.nudge (.move dx dy)).2 = acts at hout ⊢
  cases hout with
  | stay hc hr =>
    obtain ⟨s, hs, hin⟩ := hsafe.1 hc hr
    rw [← show m.active = m.localScreen from hr] at hs
    exact ⟨s, hs, hin⟩
  | move hc hr =>
    obtain ⟨s, hs, -⟩ := hon
    refine ⟨s, hs, ?_⟩
    show s.Inside (m.layout.clampTo m.active _ _).1 (m.layout.clampTo m.active _ _).2
    rw [clampTo_of_size hs]
    exact inside_clamp (hsizes _ s hs).1 _ _
  | home c hc ht => exact (returned_onScreen (m := m.displaced dx dy) c).mpr (hsafe.2 c hc ht)
  | enter c hc ht =>
    have hdetect := (crossing_eq_some hc).2
    obtain ⟨-, target, -, -, -, htarget, -⟩ := ScreenLayout.detectCrossing_eq_some.mp hdetect
    have hsize : m.layout.sizeOf c.target = some target.size :=
      Option.map_eq_some_iff.mpr ⟨target, htarget, rfl⟩
    exact ⟨target.size, hsize,
      ScreenLayout.detectCrossing_inside hdetect htarget (hsizes _ _ hsize).1⟩

/-- **A safe step does all that is asked of it.** -/
theorem keeps_of_safe {n : Nudge} (h : m.Placed) (hsafe : m.Safe n) : m.Keeps n := by
  cases n with
  | lock locked => trivial
  | move dx dy =>
    obtain ⟨s, hs, hin⟩ := h.onScreen hsafe
    have hmod := h.sizes _ s hs
    refine ⟨onScreen_of_safe h.sizes ⟨s, hs, hin⟩ hsafe, add_delta_toInt hin.1 hmod.2.1 dx,
      add_delta_toInt hin.2 hmod.2.2 dy, ?_⟩
    intro e s' hs' hpast hc ks hks
    obtain rfl : s = s' := Option.some.inj (hs.symm.trans hs')
    by_cases hr : m.active = m.localScreen
    · -- a safe motion on the local screen goes past no edge
      obtain ⟨s', hs', hin'⟩ := hsafe.1 hc hr
      rw [← hr] at hs'
      obtain rfl : s = s' := Option.some.inj (hs.symm.trans hs')
      exact absurd hpast (ScreenLayout.not_past_inside hin' e)
    · obtain ⟨hm', -⟩ := move_remote hr hs hc
      obtain ⟨m', hm'', hedge, hin', hactive', hlocal', hlayout'⟩ :
          ∃ m', (m.nudge (.move dx dy)).1 = m' ∧ s.depth m'.cursorX m'.cursorY e = 0 ∧
            s.Inside m'.cursorX m'.cursorY ∧ m'.active = m.active ∧
            m'.localScreen = m.localScreen ∧ m'.layout = m.layout :=
        ⟨_, hm', depth_pushed hmod.1 hpast, inside_clamp hmod.1 _ _, rfl, rfl, rfl⟩
      have hback := retreat_run (m := m') (e := e) hmod hks (by rw [hactive', hlocal']; exact hr)
        (by rw [hlayout', hactive']; exact hs) hin'
      rw [hedge, Int.zero_add, hactive'] at hback
      rw [hm'']
      exact hback

/-! ## Whole runs -/

/-- A new machine's cursor is at the centre of its screen. -/
theorem placed_new {layout : ScreenLayout} (home : String)
    (hsizes : ∀ name s, layout.sizeOf name = some s → s.Moderate) : (new layout home).Placed := by
  refine ⟨hsizes, ?_⟩
  cases hs : layout.sizeOf home with
  | none => exact .inr ⟨rfl, hs⟩
  | some s =>
    obtain ⟨⟨hw, hh⟩, -⟩ := hsizes home s hs
    have hw' := Int32.lt_iff_toInt_lt.mp hw
    have hh' := Int32.lt_iff_toInt_lt.mp hh
    rw [Int32.toInt_zero] at hw' hh'
    refine .inl ⟨s, hs, ?_⟩
    show OnAxis (centre layout home).1 s.w ∧ OnAxis (centre layout home).2 s.h
    rw [centre_of_size hs, onAxis_iff, onAxis_iff, half_toInt (by omega), half_toInt (by omega)]
    omega

/-- A safe step leaves the machine placed. -/
theorem Placed.nudge {n : Nudge} (h : m.Placed) (hsafe : m.Safe n) : (m.nudge n).1.Placed := by
  cases n with
  | lock locked => exact ⟨h.sizes, h.place⟩
  | move dx dy =>
    have hlayout : (m.nudge (.move dx dy)).1.layout = m.layout := by
      have hout := move_outcome m dx dy
      generalize (m.nudge (.move dx dy)).1 = m', (m.nudge (.move dx dy)).2 = acts at hout ⊢
      cases hout <;> rfl
    refine ⟨?_, .inl (onScreen_of_safe h.sizes (h.onScreen hsafe) hsafe)⟩
    rw [hlayout]
    exact h.sizes

/-- **When relative motion keeps the cursor on the screen.**  For every layout with positive sizes
    below `2^30` and every run of relative motions with 16-bit deltas, locked or not: each of them
    leaves the cursor on the active screen, adds without overflow, and leaves a way back from every
    edge it pushed against, if and only if each motion that crosses nothing on the local screen
    stays on it, and each that comes home finds a local screen of at least 3x3. -/
theorem keeps_iff_safe (layout : ScreenLayout) (home : String)
    (hsizes : ∀ name s, layout.sizeOf name = some s →
      s.Positive ∧ s.w.toInt < 2 ^ 30 ∧ s.h.toInt < 2 ^ 30) (ns : List Nudge) :
    Mealy.EveryStep nudge (new layout home) ns (fun _ m n => m.Keeps n) ↔
      Mealy.EveryStep nudge (new layout home) ns (fun _ m n => m.Safe n) := by
  constructor
  · intro h
    exact h.mono nudge fun _ _ _ hkeeps => safe_of_keeps hkeeps
  · intro h
    have hplaced := h.invariant nudge (P := fun _ m => m.Placed) (placed_new home hsizes)
      fun _ _ _ hm hsafe => hm.nudge hsafe
    intro pre n hpre
    exact keeps_of_safe (hplaced pre n hpre) (h pre n hpre)

/-- The sizes of the example layout. -/
theorem twoScreens_moderate (name : String) (s : ScreenSize) (h : twoScreens.sizeOf name = some s) :
    s.Positive ∧ s.w.toInt < 2 ^ 30 ∧ s.h.toInt < 2 ^ 30 := by
  obtain ⟨node, hnode, rfl⟩ := Option.map_eq_some_iff.mp h
  rcases twoScreens_nodes hnode with ⟨-, rfl⟩ | ⟨-, rfl⟩ <;> decide

/-- Pushed far past the left side, which has no neighbour: the machine stores the sum. -/
theorem pushed_off :
    ¬Mealy.EveryStep nudge (new twoScreens "srv") [.move (-32768) 0] fun _ m n => m.Keeps n := by
  intro h
  obtain ⟨s, hs, hin⟩ := (h [] (.move (-32768) 0) (List.prefix_refl _)).inside
  obtain rfl : (⟨1920, 1080⟩ : ScreenSize) = s := Option.some.inj hs
  exact absurd hin (by decide)

theorem keeps_iff_safe_small :
    Mealy.EveryStep nudge (new twoScreens "srv") [.move 5 0] fun _ m n => m.Keeps n := by
  refine (keeps_iff_safe twoScreens "srv" twoScreens_moderate [.move 5 0]).mpr ?_
  refine (Mealy.everyStep_cons nudge).mpr ⟨⟨?_, ?_⟩, Mealy.everyStep_nil nudge⟩
  · intro _ _
    exact ⟨⟨1920, 1080⟩, by decide, by decide⟩
  · intro c hc
    have hnone : ((new twoScreens "srv").displaced 5 0).crossing = none := by decide
    cases hnone.symm.trans hc

end ServerMachine

end SelfKvm
