/-
  Screen layout, neighbour adjacency and edge crossing (`kvm-core/src/layout.rs`).

  A layout is a table of screens by name, each with a size and at most one neighbour per edge.
  Nothing forces the adjacency to be symmetric or the neighbours to exist; the code copes with both
  and so do the theorems.  Coordinates are the source's 32-bit integers, wrapping.

  What the state machines rely on are three bounds: a crossing enters its target inside the
  target's bounds (`detectCrossing_entry`), a clamped position is inside (`clampTo_inside`), and a
  crossing leads to a screen of the layout (`detectCrossing_target`).
-/
import Mathlib.Logic.Function.Basic

namespace SelfKvm

/-! ## The data -/

inductive Edge where
  | left
  | right
  | top
  | bottom
  deriving DecidableEq, Repr

/-- The edge a cursor arrives on when it crosses this one. -/
def Edge.opposite : Edge → Edge
  | .left => .right
  | .right => .left
  | .top => .bottom
  | .bottom => .top

structure ScreenSize where
  w : Int32
  h : Int32
  deriving DecidableEq, Repr

/-- Which screen lies on each side, by name. -/
structure Neighbors where
  left : Option String := none
  right : Option String := none
  top : Option String := none
  bottom : Option String := none
  deriving DecidableEq, Repr

namespace Neighbors

def get (n : Neighbors) : Edge → Option String
  | .left => n.left
  | .right => n.right
  | .top => n.top
  | .bottom => n.bottom

def set (n : Neighbors) (edge : Edge) (screen : Option String) : Neighbors :=
  match edge with
  | .left => { n with left := screen }
  | .right => { n with right := screen }
  | .top => { n with top := screen }
  | .bottom => { n with bottom := screen }

end Neighbors

structure ScreenNode where
  size : ScreenSize
  neighbors : Neighbors := {}
  deriving DecidableEq, Repr

/-- A cursor crossing off one screen onto a neighbour. -/
structure Crossing where
  /-- The screen the cursor enters. -/
  target : String
  /-- The edge of the source screen that was crossed. -/
  fromEdge : Edge
  entryX : Int32
  entryY : Int32
  deriving DecidableEq, Repr

structure ScreenLayout where
  nodes : String → Option ScreenNode

/-! ## The code -/

def clamp (v lo hi : Int32) : Int32 := min (max v lo) (max hi lo)

/-- Map `v` from a `fromLen`-wide axis onto a `toLen`-wide axis, proportionally. -/
def scale (v fromLen toLen : Int32) : Int32 :=
  if fromLen ≤ 1 ∨ toLen ≤ 0 then
    0
  else
    let mapped := (v.toInt64 * toLen.toInt64) / fromLen.toInt64
    clamp mapped.toInt32 0 (toLen - 1)

namespace ScreenLayout

def new : ScreenLayout := ⟨fun _ => none⟩

def addScreen (l : ScreenLayout) (name : String) (size : ScreenSize) : ScreenLayout :=
  ⟨Function.update l.nodes name (some { size })⟩

/-- Change a node that is there. -/
def modify (l : ScreenLayout) (name : String) (f : ScreenNode → ScreenNode) : ScreenLayout :=
  ⟨Function.update l.nodes name ((l.nodes name).map f)⟩

/-- Link `a`'s `edge` to `b`, and `b`'s opposite edge to `a`. -/
def link (l : ScreenLayout) (a : String) (edge : Edge) (b : String) : ScreenLayout :=
  let l := l.modify a fun na => { na with neighbors := na.neighbors.set edge (some b) }
  l.modify b fun nb => { nb with neighbors := nb.neighbors.set edge.opposite (some a) }

def sizeOf (l : ScreenLayout) (screen : String) : Option ScreenSize :=
  (l.nodes screen).map (·.size)

def contains (l : ScreenLayout) (screen : String) : Bool := (l.nodes screen).isSome

/-- The edge a position lies past, horizontal ones first. -/
def crossedEdge (size : ScreenSize) (x y margin : Int32) : Option Edge :=
  if x < margin then
    some .left
  else if x ≥ size.w - margin then
    some .right
  else if y < margin then
    some .top
  else if y ≥ size.h - margin then
    some .bottom
  else
    none

/-- Where the cursor lands on the neighbour: the position along the crossed edge is scaled. -/
def entryPoint (edge : Edge) (source target : ScreenSize) (x y : Int32) : Int32 × Int32 :=
  match edge with
  | .left => (target.w - 1, scale (clamp y 0 (source.h - 1)) source.h target.h)
  | .right => (0, scale (clamp y 0 (source.h - 1)) source.h target.h)
  | .top => (scale (clamp x 0 (source.w - 1)) source.w target.w, target.h - 1)
  | .bottom => (scale (clamp x 0 (source.w - 1)) source.w target.w, 0)

/-- If the position has run off an edge with a neighbour, where the cursor lands on it. -/
def detectCrossing (l : ScreenLayout) (active : String) (x y margin : Int32) : Option Crossing := do
  let node ← l.nodes active
  let edge ← crossedEdge node.size x y margin
  let name ← node.neighbors.get edge
  let target ← l.nodes name
  let (entryX, entryY) := entryPoint edge node.size target.size x y
  some { target := name, fromEdge := edge, entryX, entryY }

/-- Clamp a position to a screen's bounds. -/
def clampTo (l : ScreenLayout) (screen : String) (x y : Int32) : Int32 × Int32 :=
  match l.nodes screen with
  | some n => (clamp x 0 (n.size.w - 1), clamp y 0 (n.size.h - 1))
  | none => (x, y)

end ScreenLayout

/-- Two screens side by side, as in the configurations the examples of this development use. -/
def twoScreens : ScreenLayout :=
  ((ScreenLayout.new.addScreen "srv" ⟨1920, 1080⟩).addScreen "lap" ⟨1280, 800⟩).link "srv" .right
    "lap"

/-! ## Bounds -/

/-- `x` is a coordinate on an axis of length `n`. -/
def OnAxis (x n : Int32) : Prop := 0 ≤ x ∧ x < n

/-- `(x, y)` is a position on a screen of this size. -/
def ScreenSize.Inside (s : ScreenSize) (x y : Int32) : Prop := OnAxis x s.w ∧ OnAxis y s.h

/-- The size is at least 1x1. -/
def ScreenSize.Positive (s : ScreenSize) : Prop := 0 < s.w ∧ 0 < s.h

instance (x n : Int32) : Decidable (OnAxis x n) := inferInstanceAs (Decidable (0 ≤ x ∧ x < n))

instance (s : ScreenSize) (x y : Int32) : Decidable (s.Inside x y) :=
  inferInstanceAs (Decidable (OnAxis x s.w ∧ OnAxis y s.h))

instance (s : ScreenSize) : Decidable s.Positive := inferInstanceAs (Decidable (0 < s.w ∧ 0 < s.h))

theorem max_toInt (a b : Int32) : (max a b).toInt = max a.toInt b.toInt := by
  show (if a ≤ b then b else a).toInt = _
  by_cases h : a ≤ b
  · rw [if_pos h]
    have h' := Int32.le_iff_toInt_le.mp h
    omega
  · rw [if_neg h]
    have h' := Int32.lt_iff_toInt_lt.mp (Int32.not_le.mp h)
    omega

theorem min_toInt (a b : Int32) : (min a b).toInt = min a.toInt b.toInt := by
  show (if a ≤ b then a else b).toInt = _
  by_cases h : a ≤ b
  · rw [if_pos h]
    have h' := Int32.le_iff_toInt_le.mp h
    omega
  · rw [if_neg h]
    have h' := Int32.lt_iff_toInt_lt.mp (Int32.not_le.mp h)
    omega

theorem clamp_toInt (v lo hi : Int32) :
    (clamp v lo hi).toInt = min (max v.toInt lo.toInt) (max hi.toInt lo.toInt) := by
  rw [clamp, min_toInt, max_toInt, max_toInt]

/-- The last coordinate of an axis that has one. -/
theorem pred_toInt {n : Int32} (hn : 0 < n) : (n - 1).toInt = n.toInt - 1 := by
  have hpos := Int32.lt_iff_toInt_lt.mp hn
  rw [Int32.toInt_zero] at hpos
  have hlt : n.toInt < 2 ^ 31 := n.toInt_lt
  have hone : (1 : Int32).toInt = 1 := rfl
  rw [Int32.toInt_sub, hone, Int.bmod_eq_of_le]
  · omega
  · omega

theorem onAxis_iff {x n : Int32} : OnAxis x n ↔ 0 ≤ x.toInt ∧ x.toInt < n.toInt := by
  unfold OnAxis
  rw [Int32.le_iff_toInt_le, Int32.lt_iff_toInt_lt, Int32.toInt_zero]

theorem onAxis_clamp {n : Int32} (hn : 0 < n) (v : Int32) : OnAxis (clamp v 0 (n - 1)) n := by
  have hpos := Int32.lt_iff_toInt_lt.mp hn
  rw [Int32.toInt_zero] at hpos
  rw [onAxis_iff, clamp_toInt, pred_toInt hn, Int32.toInt_zero]
  omega

theorem onAxis_zero {n : Int32} (hn : 0 < n) : OnAxis 0 n := ⟨Int32.le_refl 0, hn⟩

theorem onAxis_pred {n : Int32} (hn : 0 < n) : OnAxis (n - 1) n := by
  have hpos := Int32.lt_iff_toInt_lt.mp hn
  rw [Int32.toInt_zero] at hpos
  rw [onAxis_iff, pred_toInt hn]
  omega

/-- Scaling lands on the target axis, whatever is scaled. -/
theorem onAxis_scale {n : Int32} (hn : 0 < n) (v source : Int32) : OnAxis (scale v source n) n := by
  unfold scale
  by_cases h : source ≤ 1 ∨ n ≤ 0
  · rw [if_pos h]
    exact onAxis_zero hn
  · rw [if_neg h]
    exact onAxis_clamp hn _

namespace ScreenLayout

variable {l : ScreenLayout}

theorem contains_modify (name screen : String) (f : ScreenNode → ScreenNode) :
    (l.modify name f).contains screen = l.contains screen := by
  unfold contains modify
  by_cases h : screen = name
  · rw [h]
    simp
  · simp [Function.update_of_ne h]

/-- A change that keeps the size of the node keeps all sizes. -/
theorem sizeOf_modify (name screen : String) {f : ScreenNode → ScreenNode}
    (hf : ∀ node, (f node).size = node.size) : (l.modify name f).sizeOf screen = l.sizeOf screen := by
  unfold sizeOf modify
  by_cases h : screen = name
  · subst h
    cases l.nodes screen <;> simp [hf]
  · simp [Function.update_of_ne h]

/-- **A crossing enters its target inside the target's bounds.** -/
theorem entryPoint_inside (edge : Edge) (source : ScreenSize) {target : ScreenSize}
    (ht : target.Positive) (x y : Int32) :
    target.Inside (entryPoint edge source target x y).1 (entryPoint edge source target x y).2 := by
  obtain ⟨hw, hh⟩ := ht
  cases edge with
  | left => exact ⟨onAxis_pred hw, onAxis_scale hh _ _⟩
  | right => exact ⟨onAxis_zero hw, onAxis_scale hh _ _⟩
  | top => exact ⟨onAxis_scale hw _ _, onAxis_pred hh⟩
  | bottom => exact ⟨onAxis_scale hw _ _, onAxis_zero hh⟩

/-- What a crossing is made of: a node with an edge passed, and a neighbour there that exists. -/
theorem detectCrossing_eq_some {active : String} {x y margin : Int32} {c : Crossing} :
    l.detectCrossing active x y margin = some c ↔
      ∃ node target, l.nodes active = some node ∧
        crossedEdge node.size x y margin = some c.fromEdge ∧
        node.neighbors.get c.fromEdge = some c.target ∧ l.nodes c.target = some target ∧
        (c.entryX, c.entryY) = entryPoint c.fromEdge node.size target.size x y := by
  unfold detectCrossing
  simp only [Option.bind_eq_bind, Option.bind_eq_some_iff, Option.some.injEq]
  constructor
  · rintro ⟨node, hnode, edge, hedge, name, hname, target, htarget, rfl⟩
    exact ⟨node, target, hnode, hedge, hname, htarget, rfl⟩
  · rintro ⟨node, target, hnode, hedge, hname, htarget, hentry⟩
    refine ⟨node, hnode, c.fromEdge, hedge, c.target, hname, target, htarget, ?_⟩
    rw [← hentry]

/-- The entry point is a position on the target. -/
theorem detectCrossing_inside {active : String} {x y margin : Int32} {c : Crossing}
    {target : ScreenNode} (h : l.detectCrossing active x y margin = some c)
    (htarget : l.nodes c.target = some target) (hpos : target.size.Positive) :
    target.size.Inside c.entryX c.entryY := by
  obtain ⟨node, target', -, -, -, htarget', hentry⟩ := detectCrossing_eq_some.mp h
  rw [htarget] at htarget'
  injection htarget' with htarget'
  subst htarget'
  have hinside := entryPoint_inside c.fromEdge node.size hpos x y
  rw [← hentry] at hinside
  exact hinside

/-- A clamped position is a position on the screen. -/
theorem clampTo_inside {screen : String} {node : ScreenNode} (h : l.nodes screen = some node)
    (hpos : node.size.Positive) (x y : Int32) :
    node.size.Inside (l.clampTo screen x y).1 (l.clampTo screen x y).2 := by
  unfold clampTo
  rw [h]
  exact ⟨onAxis_clamp hpos.1 x, onAxis_clamp hpos.2 y⟩

end ScreenLayout

/-- The screens of the example layout. -/
theorem twoScreens_nodes {name : String} {node : ScreenNode} (h : twoScreens.nodes name = some node) :
    name = "srv" ∧ node = ⟨⟨1920, 1080⟩, { right := some "lap" }⟩ ∨
    name = "lap" ∧ node = ⟨⟨1280, 800⟩, { left := some "srv" }⟩ := by
  have hsrv : twoScreens.nodes "srv" = some ⟨⟨1920, 1080⟩, { right := some "lap" }⟩ := by decide
  have hlap : twoScreens.nodes "lap" = some ⟨⟨1280, 800⟩, { left := some "srv" }⟩ := by decide
  by_cases hs : name = "srv"
  · subst hs
    exact .inl ⟨rfl, Option.some.inj (h.symm.trans hsrv)⟩
  by_cases hl : name = "lap"
  · subst hl
    exact .inr ⟨rfl, Option.some.inj (h.symm.trans hlap)⟩
  · have hnone : twoScreens.nodes name = none := by
      unfold twoScreens ScreenLayout.link ScreenLayout.modify ScreenLayout.addScreen
      simp only [Function.update_of_ne hs, Function.update_of_ne hl]
      rfl
    rw [hnone] at h
    cases h

end SelfKvm
