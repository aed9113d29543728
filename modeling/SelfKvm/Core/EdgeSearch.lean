/-
  Which crossing `detect_crossing` finds.

  The search looks at the edges in the order left, right, top, bottom and stops at the first one the
  position lies past, before it knows whether that edge has a neighbour.  What it finds is right:
  an edge that qualifies, a horizontal one if any does (`detectCrossing_goes`).  What it misses is a
  qualifying edge behind one that does not qualify: a cursor resting against a side without a
  neighbour cannot go up or down.  `finds_every_iff` is the exact condition.
-/
import SelfKvm.Core.Adjacency

namespace SelfKvm

def Edge.Horizontal : Edge → Prop
  | .left | .right => True
  | .top | .bottom => False

/-- The order in which the edges are looked at. -/
def Edge.rank : Edge → Nat
  | .left => 0
  | .right => 1
  | .top => 2
  | .bottom => 3

instance (e : Edge) : Decidable e.Horizontal := by
  cases e <;> unfold Edge.Horizontal <;> infer_instance

/-- The position lies past the edge, by the margin. -/
def ScreenSize.Past (s : ScreenSize) (x y margin : Int32) : Edge → Prop
  | .left => x < margin
  | .right => x ≥ s.w - margin
  | .top => y < margin
  | .bottom => y ≥ s.h - margin

instance (s : ScreenSize) (x y margin : Int32) : (e : Edge) → Decidable (s.Past x y margin e)
  | .left => inferInstanceAs (Decidable (x < margin))
  | .right => inferInstanceAs (Decidable (x ≥ s.w - margin))
  | .top => inferInstanceAs (Decidable (y < margin))
  | .bottom => inferInstanceAs (Decidable (y ≥ s.h - margin))

theorem Edge.rank_injective {e e' : Edge} (h : e.rank = e'.rank) : e = e' := by
  cases e <;> cases e' <;> first | rfl | cases h

/-- A horizontal edge is looked at before a vertical one. -/
theorem Edge.rank_lt_of_horizontal {e e' : Edge} (h : e.Horizontal) (h' : ¬e'.Horizontal) :
    e.rank < e'.rank := by
  cases e <;> cases e' <;> first | decide | exact absurd trivial h' | exact absurd h id

namespace ScreenLayout

/-- The first edge that the position lies past stops the search. -/
theorem crossedEdge_of_first {s : ScreenSize} {x y margin : Int32} {e : Edge}
    (he : s.Past x y margin e) (hbefore : ∀ e', e'.rank < e.rank → ¬s.Past x y margin e') :
    crossedEdge s x y margin = some e := by
  unfold crossedEdge
  cases e with
  | left => exact if_pos he
  | right =>
    have hleft : ¬x < margin := hbefore .left (by decide)
    rw [if_neg hleft]
    exact if_pos he
  | top =>
    have hleft : ¬x < margin := hbefore .left (by decide)
    have hright : ¬x ≥ s.w - margin := hbefore .right (by decide)
    rw [if_neg hleft, if_neg hright]
    exact if_pos he
  | bottom =>
    have hleft : ¬x < margin := hbefore .left (by decide)
    have hright : ¬x ≥ s.w - margin := hbefore .right (by decide)
    have htop : ¬y < margin := hbefore .top (by decide)
    rw [if_neg hleft, if_neg hright, if_neg htop]
    exact if_pos he

/-- The edge the search stops at is the first one the position lies past. -/
theorem crossedEdge_eq_some {s : ScreenSize} {x y margin : Int32} {e : Edge} :
    crossedEdge s x y margin = some e ↔
      s.Past x y margin e ∧ ∀ e', e'.rank < e.rank → ¬s.Past x y margin e' := by
  constructor
  · intro h
    unfold crossedEdge at h
    -- one case for each edge; the tests that failed before are the edges before
    split at h
    · injection h with h
      subst h
      refine ⟨‹_›, fun e' hlt => ?_⟩
      cases e' <;> exact absurd hlt (by decide)
    split at h
    · injection h with h
      subst h
      refine ⟨‹_›, fun e' hlt => ?_⟩
      cases e' <;> first | assumption | exact absurd hlt (by decide)
    split at h
    · injection h with h
      subst h
      refine ⟨‹_›, fun e' hlt => ?_⟩
      cases e' <;> first | assumption | exact absurd hlt (by decide)
    split at h
    · injection h with h
      subst h
      refine ⟨‹_›, fun e' hlt => ?_⟩
      cases e' <;> first | assumption | exact absurd hlt (by decide)
    · cases h
  · rintro ⟨he, hbefore⟩
    exact crossedEdge_of_first he hbefore

/-- The search goes on past all edges if the position lies past none. -/
theorem crossedEdge_eq_none {s : ScreenSize} {x y margin : Int32}
    (h : ∀ e, ¬s.Past x y margin e) : crossedEdge s x y margin = none := by
  cases hedge : crossedEdge s x y margin with
  | none => rfl
  | some e => exact absurd (crossedEdge_eq_some.mp hedge).1 (h e)

/-- Inside the sides, neither of them is passed. -/
theorem not_past_sides {s : ScreenSize} {x : Int32} (hx : OnAxis x s.w) (y : Int32) {e : Edge}
    (he : e.Horizontal) : ¬s.Past x y 0 e := by
  cases e with
  | left => exact Int32.not_lt.mpr hx.1
  | right =>
    show ¬s.w - 0 ≤ x
    rw [Int32.sub_zero]
    exact Int32.not_le.mpr hx.2
  | top => exact absurd he id
  | bottom => exact absurd he id

theorem not_past_ends {s : ScreenSize} {y : Int32} (hy : OnAxis y s.h) (x : Int32) {e : Edge}
    (he : ¬e.Horizontal) : ¬s.Past x y 0 e := by
  cases e with
  | left => exact absurd trivial he
  | right => exact absurd trivial he
  | top => exact Int32.not_lt.mpr hy.1
  | bottom =>
    show ¬s.h - 0 ≤ y
    rw [Int32.sub_zero]
    exact Int32.not_le.mpr hy.2

/-- A position on the screen is past none of its edges. -/
theorem not_past_inside {s : ScreenSize} {x y : Int32} (h : s.Inside x y) (e : Edge) :
    ¬s.Past x y 0 e := by
  by_cases he : e.Horizontal
  · exact not_past_sides h.1 y he
  · exact not_past_ends h.2 x he

variable (l : ScreenLayout) (active : String) (x y margin : Int32)

/-- The position lies past that edge of the active screen. -/
def PastEdge (e : Edge) : Prop := ∃ node, l.nodes active = some node ∧ node.size.Past x y margin e

/-- The edge has a neighbour, and the layout has the neighbour. -/
def Leads (e : Edge) : Prop := ∃ name, l.neighborOver active e = some name ∧ l.contains name = true

/-- The cursor can leave over that edge. -/
def Qualifies (e : Edge) : Prop := l.PastEdge active x y margin e ∧ l.Leads active e

/-- What the search is there for. -/
structure FindsEvery : Prop where
  /-- It finds a crossing exactly when there is one. -/
  some_iff : (l.detectCrossing active x y margin).isSome = true ↔
    ∃ e, l.Qualifies active x y margin e
  /-- The crossing leads over such an edge to the neighbour there. -/
  leads : ∀ c, l.detectCrossing active x y margin = some c →
    l.Qualifies active x y margin c.fromEdge ∧
    l.neighborOver active c.fromEdge = some c.target ∧ l.contains c.target = true
  /-- A horizontal edge has priority. -/
  horizontal : ∀ c, l.detectCrossing active x y margin = some c →
    (∃ e, e.Horizontal ∧ l.Qualifies active x y margin e) → c.fromEdge.Horizontal

variable {l active x y margin}

/-- A crossing leads over the first edge that the position lies past. -/
theorem detectCrossing_first {c : Crossing} (h : l.detectCrossing active x y margin = some c) :
    l.Qualifies active x y margin c.fromEdge ∧
    (l.neighborOver active c.fromEdge = some c.target ∧ l.contains c.target = true) ∧
    ∀ e, e.rank < c.fromEdge.rank → ¬l.PastEdge active x y margin e := by
  obtain ⟨node, target, hnode, hedge, hname, htarget, -⟩ := detectCrossing_eq_some.mp h
  obtain ⟨hpast, hbefore⟩ := crossedEdge_eq_some.mp hedge
  have hover : l.neighborOver active c.fromEdge = some c.target := by
    show (l.nodes active).bind _ = _
    rw [hnode]
    exact hname
  have hcontains : l.contains c.target = true := by
    show (l.nodes c.target).isSome = true
    rw [htarget]
    rfl
  refine ⟨⟨⟨node, hnode, hpast⟩, c.target, hover, hcontains⟩, ⟨hover, hcontains⟩, ?_⟩
  rintro e he ⟨node', hnode', hpast'⟩
  rw [hnode] at hnode'
  injection hnode' with hnode'
  rw [← hnode'] at hpast'
  exact hbefore e he hpast'

/-- If the first edge that the position lies past has a neighbour, the search finds it. -/
theorem detectCrossing_of_first {e : Edge} (h : l.Qualifies active x y margin e)
    (hbefore : ∀ e', e'.rank < e.rank → ¬l.PastEdge active x y margin e') :
    (l.detectCrossing active x y margin).isSome = true := by
  obtain ⟨⟨node, hnode, hpast⟩, name, hover, hcontains⟩ := h
  have hedge : crossedEdge node.size x y margin = some e :=
    crossedEdge_eq_some.mpr ⟨hpast, fun e' he' hp => hbefore e' he' ⟨node, hnode, hp⟩⟩
  have hname : node.neighbors.get e = some name := by
    have hbind : (l.nodes active).bind _ = some name := hover
    rw [hnode] at hbind
    exact hbind
  obtain ⟨target, htarget⟩ := Option.isSome_iff_exists.mp hcontains
  rw [Option.isSome_iff_exists]
  refine ⟨⟨name, e, (entryPoint e node.size target.size x y).1,
    (entryPoint e node.size target.size x y).2⟩, ?_⟩
  exact detectCrossing_eq_some.mpr ⟨node, target, hnode, hedge, hname, htarget, rfl⟩

/-- **What is found is right**: an edge that qualifies, and a horizontal one if any does. -/
theorem detectCrossing_goes {c : Crossing} (h : l.detectCrossing active x y margin = some c)
    (hex : ∃ e, e.Horizontal ∧ l.Qualifies active x y margin e) : c.fromEdge.Horizontal := by
  obtain ⟨e, he, hq⟩ := hex
  obtain ⟨-, -, hbefore⟩ := detectCrossing_first h
  by_contra hvert
  exact hbefore e (Edge.rank_lt_of_horizontal he hvert) hq.1

/-- Among the edges that the position lies past there is a first. -/
theorem exists_first {e : Edge} (h : l.PastEdge active x y margin e) :
    ∃ e', l.PastEdge active x y margin e' ∧
      ∀ e'', e''.rank < e'.rank → ¬l.PastEdge active x y margin e'' := by
  induction hr : e.rank using Nat.strongRecOn generalizing e with
  | ind r ih =>
    subst hr
    by_cases hex : ∃ e'', e''.rank < e.rank ∧ l.PastEdge active x y margin e''
    · obtain ⟨e'', hlt, hpast⟩ := hex
      exact ih e''.rank hlt hpast rfl
    · refine ⟨e, h, ?_⟩
      intro e'' hlt hpast
      exact hex ⟨e'', hlt, hpast⟩

/-- **When every crossing is found.**  For every layout, active screen, position and margin: the
    search finds a crossing exactly when some edge qualifies, over such an edge, a horizontal one
    first, if and only if the first edge that the position lies past (left, right, top, bottom)
    leads somewhere whenever any edge that it lies past does. -/
theorem finds_every_iff (l : ScreenLayout) (active : String) (x y margin : Int32) :
    l.FindsEvery active x y margin ↔
      ∀ e e', l.PastEdge active x y margin e →
        (∀ e'', e''.rank < e.rank → ¬l.PastEdge active x y margin e'') →
        l.PastEdge active x y margin e' → l.Leads active e' → l.Leads active e := by
  constructor
  · intro h e e' hpast hbefore hpast' hleads'
    obtain ⟨c, hc⟩ := Option.isSome_iff_exists.mp (h.some_iff.mpr ⟨e', hpast', hleads'⟩)
    obtain ⟨hq, -, hfirst⟩ := detectCrossing_first hc
    -- both `e` and the edge that is crossed are the first
    have heq : c.fromEdge = e := by
      apply Edge.rank_injective
      rcases Nat.lt_trichotomy c.fromEdge.rank e.rank with hlt | heq | hgt
      · exact absurd hq.1 (hbefore _ hlt)
      · exact heq
      · exact absurd hpast (hfirst _ hgt)
    exact heq ▸ hq.2
  · intro h
    refine ⟨⟨?_, ?_⟩, ?_, ?_⟩
    · intro hsome
      obtain ⟨c, hc⟩ := Option.isSome_iff_exists.mp hsome
      exact ⟨c.fromEdge, (detectCrossing_first hc).1⟩
    · rintro ⟨e', hpast', hleads'⟩
      obtain ⟨e, hpast, hbefore⟩ := exists_first hpast'
      exact detectCrossing_of_first ⟨hpast, h e e' hpast hbefore hpast' hleads'⟩ hbefore
    · intro c hc
      exact ⟨(detectCrossing_first hc).1, (detectCrossing_first hc).2.1⟩
    · intro c hc hex
      exact detectCrossing_goes hc hex

/-- Two screens, one below the other. -/
def stackedScreens : ScreenLayout :=
  ((ScreenLayout.new.addScreen "srv" ⟨1920, 1080⟩).addScreen "lap" ⟨1280, 800⟩).link "srv" .bottom
    "lap"

/-- The cursor rests against the left side and touches the bottom, where the neighbour is. -/
theorem corner_missed : ¬stackedScreens.FindsEvery "srv" 0 1079 1 := by
  intro h
  have hpast : stackedScreens.PastEdge "srv" 0 1079 1 .bottom :=
    ⟨⟨⟨1920, 1080⟩, { bottom := some "lap" }⟩, by decide, by decide⟩
  have hsome := h.some_iff.mpr ⟨.bottom, hpast, "lap", by decide, by decide⟩
  exact absurd hsome (by decide)

end ScreenLayout

end SelfKvm
