/-
  The cursor can travel back the way it came.

  A crossing scales the coordinate along the crossed edge from one screen's axis to the other's,
  and the way back scales it again.  `scale_toInt` says that on a screen's own coordinates the
  code's 64-bit computation is the general map of `SelfKvm.Base.Scaling`, with no overflow and no
  clamping, one-pixel axes included.  The rest is where the cursor lands: on the opposite edge, so
  that one pixel back is past it, and past no edge that is looked at before.
-/
import SelfKvm.Core.Bounce
import SelfKvm.Base.Scaling

namespace SelfKvm

open Scaling

/-! ## The scaling of the code -/

/-- **On a screen's own coordinates, scaling neither overflows nor clamps.** -/
theorem scale_toInt {v source target : Int32} (hv : OnAxis v source) (ht : 0 < target) :
    (scale v source target).toInt = carry source.toInt target.toInt v.toInt := by
  obtain ⟨hv₀, hv₁⟩ := onAxis_iff.mp hv
  have ht₀ := Int32.lt_iff_toInt_lt.mp ht
  rw [Int32.toInt_zero] at ht₀
  unfold scale
  by_cases hone : source ≤ 1 ∨ target ≤ 0
  · -- a one-pixel axis has the one coordinate 0
    have hsource : source.toInt ≤ 1 := by
      rcases hone with h | h
      · exact Int32.le_iff_toInt_le.mp h
      · exact absurd ht (Int32.not_lt.mpr h)
    have hzero : v.toInt = 0 := by omega
    rw [if_pos hone, hzero, Int32.toInt_zero, carry, Int.zero_mul, Int.zero_ediv]
  · rw [if_neg hone]
    have hv' : v.toInt < 2 ^ 31 := v.toInt_lt
    have ht' : target.toInt < 2 ^ 31 := target.toInt_lt
    have hs' : source.toInt < 2 ^ 31 := source.toInt_lt
    have hcarry₀ := carry_nonneg (a := source.toInt) (b := target.toInt) (v := v.toInt)
      (by omega) ht₀ hv₀
    have hcarry₁ := carry_lt (a := source.toInt) (by omega) ht₀ hv₁
    have hprod₀ : 0 ≤ v.toInt * target.toInt := Int.mul_nonneg hv₀ (by omega)
    have hprod₁ : v.toInt * target.toInt ≤ 2 ^ 31 * 2 ^ 31 :=
      Int.mul_le_mul (by omega) (by omega) (by omega) (by omega)
    have hmul : (v.toInt64 * target.toInt64).toInt = v.toInt * target.toInt := by
      rw [Int64.toInt_mul, Int32.toInt_toInt64, Int32.toInt_toInt64, Int.bmod_eq_of_le]
      · omega
      · omega
    have hdiv : ((v.toInt64 * target.toInt64) / source.toInt64).toInt =
        carry source.toInt target.toInt v.toInt := by
      have hne : source.toInt64 ≠ -1 := by
        intro h
        have hto := congrArg Int64.toInt h
        rw [Int32.toInt_toInt64] at hto
        have hneg : (-1 : Int64).toInt = -1 := rfl
        omega
      rw [Int64.toInt_div_of_ne_right _ _ hne, hmul, Int32.toInt_toInt64,
        Int.tdiv_eq_ediv_of_nonneg hprod₀]
      rfl
    rw [clamp_toInt, Int64.toInt_toInt32, hdiv, pred_toInt ht, Int32.toInt_zero,
      Int.bmod_eq_of_le]
    · omega
    · omega
    · omega

/-! ## Along an edge -/

/-- The coordinate that runs along an edge. -/
def Edge.along : Edge → Int32 → Int32 → Int32
  | .left, _, y | .right, _, y => y
  | .top, x, _ | .bottom, x, _ => x

/-- The length of an edge. -/
def ScreenSize.len (s : ScreenSize) : Edge → Int32
  | .left | .right => s.h
  | .top | .bottom => s.w

/-- The position lies on that edge of the screen. -/
def ScreenSize.OnEdge (s : ScreenSize) (x y : Int32) (e : Edge) : Prop :=
  s.Inside x y ∧ match e with
    | .left => x = 0
    | .right => x = s.w - 1
    | .top => y = 0
    | .bottom => y = s.h - 1

/-- The position along an edge, clamped to it. -/
def ScreenSize.spot (s : ScreenSize) (e : Edge) (x y : Int32) : Int32 :=
  clamp (e.along x y) 0 (s.len e - 1)

/-- The move of one pixel that undoes a crossing of the edge. -/
def Edge.back : Edge → Int32 × Int32
  | .left => (1, 0)
  | .right => (-1, 0)
  | .top => (0, 1)
  | .bottom => (0, -1)

theorem ScreenSize.Positive.len {s : ScreenSize} (h : s.Positive) (e : Edge) : 0 < s.len e := by
  cases e with
  | left => exact h.2
  | right => exact h.2
  | top => exact h.1
  | bottom => exact h.1

theorem Edge.along_opposite (e : Edge) (x y : Int32) : e.opposite.along x y = e.along x y := by
  cases e <;> rfl

/-- The step back leaves the coordinate along the edge alone. -/
theorem Edge.along_back (e : Edge) (x y : Int32) :
    e.along (x + e.back.1) (y + e.back.2) = e.along x y := by
  cases e with
  | left => exact Int32.add_zero y
  | right => exact Int32.add_zero y
  | top => exact Int32.add_zero x
  | bottom => exact Int32.add_zero x

theorem ScreenSize.Inside.along {s : ScreenSize} {x y : Int32} (h : s.Inside x y) (e : Edge) :
    OnAxis (e.along x y) (s.len e) := by
  cases e with
  | left => exact h.2
  | right => exact h.2
  | top => exact h.1
  | bottom => exact h.1

/-- On the screen there is nothing to clamp. -/
theorem ScreenSize.spot_eq {s : ScreenSize} (hs : s.Positive) {e : Edge} {x y : Int32}
    (h : OnAxis (e.along x y) (s.len e)) : s.spot e x y = e.along x y := by
  obtain ⟨h₀, h₁⟩ := onAxis_iff.mp h
  apply Int32.toInt_inj.mp
  rw [ScreenSize.spot, clamp_toInt, pred_toInt (hs.len e), Int32.toInt_zero]
  omega

theorem len_opposite (s : ScreenSize) (e : Edge) : s.len e.opposite = s.len e := by
  cases e <;> rfl

namespace ScreenLayout

/-- A crossing enters on the opposite edge. -/
theorem entryPoint_onEdge (e : Edge) (source : ScreenSize) {target : ScreenSize}
    (ht : target.Positive) (x y : Int32) :
    target.OnEdge (entryPoint e source target x y).1 (entryPoint e source target x y).2
      e.opposite := by
  refine ⟨entryPoint_inside e source ht x y, ?_⟩
  cases e <;> rfl

/-- The coordinate along the edge is carried over. -/
theorem entryPoint_along (e : Edge) {source target : ScreenSize} (hs : source.Positive)
    (ht : target.Positive) (x y : Int32) :
    (e.along (entryPoint e source target x y).1 (entryPoint e source target x y).2).toInt =
      carry (source.len e).toInt (target.len e).toInt (source.spot e x y).toInt := by
  have hon : OnAxis (source.spot e x y) (source.len e) := onAxis_clamp (hs.len e) _
  rw [← scale_toInt hon (ht.len e)]
  cases e <;> rfl

/-- One pixel back from the edge a crossing enters by, that edge is the first that is past. -/
theorem crossedEdge_back {s : ScreenSize} (hs : s.Positive) {x y : Int32} {e : Edge}
    (h : s.OnEdge x y e.opposite) :
    crossedEdge s (x + e.back.1) (y + e.back.2) 0 = some e.opposite := by
  obtain ⟨⟨hx, hy⟩, hedge⟩ := h
  cases e with
  | left =>
    have hxw : x + Edge.left.back.1 = s.w := by
      rw [show x = s.w - 1 from hedge]
      exact Int32.sub_add_cancel s.w 1
    rw [hxw]
    refine crossedEdge_of_first (e := .right) ?_ ?_
    · show s.w - 0 ≤ s.w
      rw [Int32.sub_zero]
      exact Int32.le_refl _
    · intro e' hlt
      cases e' with
      | left => exact Int32.not_lt.mpr (Int32.le_of_lt hs.1)
      | _ => exact absurd hlt (by decide)
  | right =>
    refine crossedEdge_of_first (e := .left) ?_ ?_
    · show x + -1 < 0
      rw [show x = 0 from hedge]
      decide
    · intro e' hlt
      exact absurd hlt (Nat.not_lt_zero _)
  | top =>
    have hyh : y + Edge.top.back.2 = s.h := by
      rw [show y = s.h - 1 from hedge]
      exact Int32.sub_add_cancel s.h 1
    have hx' : x + Edge.top.back.1 = x := Int32.add_zero x
    rw [hyh, hx']
    refine crossedEdge_of_first (e := .bottom) ?_ ?_
    · show s.h - 0 ≤ s.h
      rw [Int32.sub_zero]
      exact Int32.le_refl _
    · intro e' hlt
      cases e' with
      | left => exact not_past_sides hx _ trivial
      | right => exact not_past_sides hx _ trivial
      | top => exact Int32.not_lt.mpr (Int32.le_of_lt hs.2)
      | bottom => exact absurd hlt (by decide)
  | bottom =>
    have hx' : x + Edge.bottom.back.1 = x := Int32.add_zero x
    rw [hx']
    refine crossedEdge_of_first (e := .top) ?_ ?_
    · show y + -1 < 0
      rw [show y = 0 from hedge]
      decide
    · intro e' hlt
      cases e' with
      | left => exact not_past_sides hx _ trivial
      | right => exact not_past_sides hx _ trivial
      | _ => exact absurd hlt (by decide)

/-- **There and back, on the sizes alone.** -/
theorem entryPoint_back {sa sb : ScreenSize} (hpa : sa.Positive) (hpb : sb.Positive) (e : Edge)
    {x y : Int32} {p q : Int32 × Int32} (hp : p = entryPoint e sa sb x y)
    (hq : q = entryPoint e.opposite sb sa (p.1 + e.back.1) (p.2 + e.back.2)) :
    (e.along q.1 q.2).toInt = carry (sb.len e).toInt (sa.len e).toInt
      (carry (sa.len e).toInt (sb.len e).toInt (sa.spot e x y).toInt) := by
  have hthere : (e.along p.1 p.2).toInt =
      carry (sa.len e).toInt (sb.len e).toInt (sa.spot e x y).toInt := by
    rw [hp]
    exact entryPoint_along e hpa hpb x y
  -- the step back leaves the coordinate on the axis, so nothing is clamped
  have hspot : sb.spot e.opposite (p.1 + e.back.1) (p.2 + e.back.2) = e.along p.1 p.2 := by
    have hinside : sb.Inside p.1 p.2 := by
      rw [hp]
      exact entryPoint_inside e sa hpb x y
    have hon : OnAxis (e.opposite.along (p.1 + e.back.1) (p.2 + e.back.2))
        (sb.len e.opposite) := by
      rw [Edge.along_opposite, Edge.along_back, len_opposite]
      exact hinside.along e
    rw [ScreenSize.spot_eq hpb hon, Edge.along_opposite, Edge.along_back]
  rw [← Edge.along_opposite, hq, entryPoint_along _ hpb hpa, hspot, hthere, len_opposite,
    len_opposite]

/-- Of two crossings over the same edge, the one farther along it enters farther along. -/
theorem entry_mono {sa sb : ScreenSize} (hpa : sa.Positive) (hpb : sb.Positive) {e : Edge}
    {x y x' y' : Int32} {p q : Int32 × Int32} (hp : p = entryPoint e sa sb x y)
    (hq : q = entryPoint e sa sb x' y') (hle : sa.spot e x y ≤ sa.spot e x' y') :
    e.along p.1 p.2 ≤ e.along q.1 q.2 := by
  have hla := Int32.lt_iff_toInt_lt.mp (hpa.len e)
  have hlb := Int32.lt_iff_toInt_lt.mp (hpb.len e)
  rw [Int32.toInt_zero] at hla hlb
  rw [Int32.le_iff_toInt_le, hp, hq, entryPoint_along e hpa hpb, entryPoint_along e hpa hpb]
  exact carry_mono hla hlb (Int32.le_iff_toInt_le.mp hle)

variable {l : ScreenLayout} {a b : String} {e : Edge}

/-- What a crossing is, when the sizes and the neighbour over the crossed edge are known. -/
theorem crossing_over {x y margin : Int32} {c : Crossing} {sa sb : ScreenSize}
    (hab : l.neighborOver a c.fromEdge = some b) (hsa : l.sizeOf a = some sa)
    (hsb : l.sizeOf b = some sb) (hc : l.detectCrossing a x y margin = some c) :
    c.target = b ∧ (c.entryX, c.entryY) = entryPoint c.fromEdge sa sb x y := by
  obtain ⟨node, target, hnode, -, hname, htarget, hentry⟩ := detectCrossing_eq_some.mp hc
  have hover : l.neighborOver a c.fromEdge = some c.target := by
    unfold neighborOver
    rw [hnode]
    exact hname
  have ht : c.target = b := Option.some.inj (hover.symm.trans hab)
  unfold sizeOf at hsa hsb
  rw [hnode] at hsa
  rw [← ht, htarget] at hsb
  injection hsa with hsa
  injection hsb with hsb
  rw [← hsa, ← hsb]
  exact ⟨ht, hentry⟩

/-- A position past the first edge crosses to the neighbour there. -/
theorem detectCrossing_over {x y margin : Int32} {sa sb : ScreenSize}
    (hab : l.neighborOver a e = some b) (hsa : l.sizeOf a = some sa) (hsb : l.sizeOf b = some sb)
    (hedge : crossedEdge sa x y margin = some e) :
    l.detectCrossing a x y margin =
      some ⟨b, e, (entryPoint e sa sb x y).1, (entryPoint e sa sb x y).2⟩ := by
  obtain ⟨na, hna, rfl⟩ := Option.map_eq_some_iff.mp hsa
  obtain ⟨nb, hnb, rfl⟩ := Option.map_eq_some_iff.mp hsb
  have hname : na.neighbors.get e = some b := by
    unfold neighborOver at hab
    rw [hna] at hab
    exact hab
  exact detectCrossing_eq_some.mpr ⟨na, nb, hna, hedge, hname, hnb, rfl⟩

end ScreenLayout

namespace ServerMachine

open ScreenLayout

variable {m m₁ : ServerMachine} {ev : LocalEvent} {c : Crossing}

/-- Where a motion that crosses an edge leads. -/
theorem handle_crosses (hm : m.moved ev = some m₁) (hc : m₁.crossing = some c) :
    (m.handle ev).1 = if c.target = m.localScreen then m₁.returned c else m₁.entered c := by
  have hout := handle_outcome m ev
  generalize (m.handle ev).1 = m', (m.handle ev).2 = acts at hout ⊢
  cases hout with
  | motion m₂ _ _ hm₂ ho =>
    obtain rfl : m₂ = m₁ := Option.some.inj (hm₂.symm.trans hm)
    obtain ⟨p, rfl, -⟩ := moved_eq_some hm
    cases ho with
    | stay hnone => cases hnone.symm.trans hc
    | move hnone => cases hnone.symm.trans hc
    | home c' hc' ht =>
      obtain rfl : c' = c := Option.some.inj (hc'.symm.trans hc)
      exact (if_pos ht).symm
    | enter c' hc' ht =>
      obtain rfl : c' = c := Option.some.inj (hc'.symm.trans hc)
      exact (if_neg ht).symm
  | forward msg _ hf => cases (moved_of_forwarded hf).symm.trans hm
  | ignore hnone => cases hnone.symm.trans hm

/-- A motion over the edge to a client screen makes that screen active, with the cursor where the
    edge leads. -/
theorem handle_enters {a b : String} {sa sb : ScreenSize}
    (hab : m.layout.neighborOver a c.fromEdge = some b) (hsa : m.layout.sizeOf a = some sa)
    (hsb : m.layout.sizeOf b = some sb) (hremote : b ≠ m.localScreen) (hactive : m.active = a)
    (hm : m.moved ev = some m₁) (hc : m₁.crossing = some c) :
    (m.handle ev).1 = m₁.entered c ∧ c.target = b ∧
      (c.entryX, c.entryY) = entryPoint c.fromEdge sa sb m₁.cursorX m₁.cursorY := by
  have hhandle := handle_crosses hm hc
  obtain ⟨p, rfl, -⟩ := moved_eq_some hm
  obtain ⟨-, hdetect⟩ := crossing_eq_some hc
  have hdetect' : m.layout.detectCrossing a p.1 p.2 _ = some c := hactive ▸ hdetect
  obtain ⟨ht, hentry⟩ := crossing_over hab hsa hsb hdetect'
  rw [if_neg (ht ▸ hremote)] at hhandle
  exact ⟨hhandle, ht, hentry⟩

/-- One pixel back over an edge that leads to `a` makes `a` active, client's screen or not. -/
theorem handle_returns {a b : String} {e : Edge} {sa sb : ScreenSize} (hpb : sb.Positive)
    (hba : m.layout.neighborOver b e.opposite = some a) (hsa : m.layout.sizeOf a = some sa)
    (hsb : m.layout.sizeOf b = some sb) (hremote : b ≠ m.localScreen) (hactive : m.active = b)
    (hlock : m.switchLocked = false) (hedge : sb.OnEdge m.cursorX m.cursorY e.opposite) :
    (m.handle (.motionRel e.back.1 e.back.2)).1.active = a ∧
    ∃ r, m.layout.detectCrossing b (m.cursorX + e.back.1) (m.cursorY + e.back.2) 0 = some r ∧
      r.target = a ∧ (r.entryX, r.entryY) =
        entryPoint e.opposite sb sa (m.cursorX + e.back.1) (m.cursorY + e.back.2) := by
  have hdetect := detectCrossing_over hba hsb hsa (crossedEdge_back hpb hedge)
  generalize hr : (⟨a, e.opposite, _, _⟩ : Crossing) = r at hdetect
  have hcrossing : (m.withCursor (m.cursorX + e.back.1, m.cursorY + e.back.2)).crossing = some r := by
    rw [← hdetect, ← hactive]
    have hmargin := margin_remote (m := m) (hactive ▸ hremote)
    show (if m.switchLocked then none else m.layout.detectCrossing m.active _ _ m.margin) = _
    rw [hmargin, hlock]
    rfl
  have ht : r.target = a := by rw [← hr]
  refine ⟨?_, r, hdetect, ht, by rw [← hr]⟩
  rw [handle_crosses rfl hcrossing, ht]
  by_cases ha : a = m.localScreen
  · rw [if_pos ha]
    exact ha.symm
  · rw [if_neg ha]
    exact ht

/-- **The way back.**  In every layout with sizes of at least 1x1 in which `a` and `b` are each
    other's neighbours over the edge `e` of `a`, from every state with `a` active and for every
    motion that crosses `e` to the client screen `b`: the cursor arrives on the opposite edge of
    `b`, at a coordinate that is monotone in the one it left `a` at; one pixel back it crosses to
    `a`, on the edge `e` again, and the coordinate there is at most the first one and at least that
    less the quotient of the two lengths, rounded up. -/
theorem travel_back (m m₁ : ServerMachine) (ev : LocalEvent) (c : Crossing) (a b : String) (e : Edge)
    (sa sb : ScreenSize) (hsizes : ∀ name s, m.layout.sizeOf name = some s → s.Positive)
    (hsa : m.layout.sizeOf a = some sa) (hsb : m.layout.sizeOf b = some sb)
    (hab : m.layout.neighborOver a e = some b)
    (hba : m.layout.neighborOver b e.opposite = some a) (hremote : b ≠ m.localScreen)
    (hactive : m.active = a) (hm : m.moved ev = some m₁) (hc : m₁.crossing = some c)
    (he : c.fromEdge = e) :
    let v := sa.spot e m₁.cursorX m₁.cursorY
    let m' := (m.handle ev).1
    let m'' := (m'.handle (.motionRel e.back.1 e.back.2)).1
    m'.active = b ∧ sb.OnEdge m'.cursorX m'.cursorY e.opposite ∧
    (∀ (n₁ : ServerMachine) (d : Crossing), n₁.layout = m.layout → n₁.active = a →
      n₁.crossing = some d → d.fromEdge = e → v ≤ sa.spot e n₁.cursorX n₁.cursorY →
        e.along m'.cursorX m'.cursorY ≤ e.along d.entryX d.entryY) ∧
    m''.active = a ∧
    ∃ r, m'.layout.detectCrossing b (m'.cursorX + e.back.1) (m'.cursorY + e.back.2) 0 = some r ∧
      r.target = a ∧ sa.OnEdge r.entryX r.entryY e ∧
      v.toInt - stride (sa.len e).toInt (sb.len e).toInt ≤ (e.along r.entryX r.entryY).toInt ∧
      (e.along r.entryX r.entryY).toInt ≤ v.toInt := by
  subst he
  have hpa := hsizes a sa hsa
  have hpb := hsizes b sb hsb
  obtain ⟨hstep, ht, hentry⟩ := handle_enters hab hsa hsb hremote hactive hm hc
  obtain ⟨hlock, -⟩ := crossing_eq_some hc
  have hsame : m₁.layout = m.layout ∧ m₁.localScreen = m.localScreen := by
    obtain ⟨p, rfl, -⟩ := moved_eq_some hm
    exact ⟨rfl, rfl⟩
  have hedge : sb.OnEdge c.entryX c.entryY c.fromEdge.opposite := by
    have hon := entryPoint_onEdge c.fromEdge sa hpb m₁.cursorX m₁.cursorY
    rw [← hentry] at hon
    exact hon
  rw [← hsame.1] at hba hsa hsb
  rw [← hsame.2] at hremote
  obtain ⟨hback, r, hdetect, hrt, hrentry⟩ := handle_returns (m := m₁.entered c) hpb
    hba hsa hsb hremote ht hlock hedge
  have hla := Int32.lt_iff_toInt_lt.mp (hpa.len c.fromEdge)
  have hlb := Int32.lt_iff_toInt_lt.mp (hpb.len c.fromEdge)
  rw [Int32.toInt_zero] at hla hlb
  have hreturn := entryPoint_back hpa hpb c.fromEdge hentry hrentry
  intro v m' m''
  have hm' : m' = m₁.entered c := hstep
  refine ⟨?_, ?_, ?_, ?_, ⟨r, ?_, hrt, ?_, ?_, ?_⟩⟩
  · rw [hm']
    exact ht
  · rw [hm']
    exact hedge
  · intro n₁ d hlayout hn hd hde hle
    have hdd := (crossing_eq_some hd).2
    rw [hlayout, hn, ← hsame.1] at hdd
    rw [← hsame.1] at hab
    obtain ⟨-, hdentry⟩ := crossing_over (hde ▸ hab) hsa hsb hdd
    rw [hde] at hdentry
    have hentered := entry_mono hpa hpb hentry hdentry hle
    rw [hm']
    exact hentered
  · show (m'.handle _).1.active = a
    rw [hm']
    exact hback
  · rw [hm']
    exact hdetect
  · have hon := entryPoint_onEdge c.fromEdge.opposite sb hpa (c.entryX + c.fromEdge.back.1)
      (c.entryY + c.fromEdge.back.2)
    rw [Edge.opposite_opposite] at hon
    have hrentry' : (r.entryX, r.entryY) = entryPoint c.fromEdge.opposite sb sa
      (c.entryX + c.fromEdge.back.1) (c.entryY + c.fromEdge.back.2) := hrentry
    rw [← hrentry'] at hon
    exact hon
  · rw [hreturn]
    exact le_carry_back hla hlb
  · rw [hreturn]
    exact carry_back_le hla hlb

/-- From the server's right edge at 540 to the client's left edge at 400, and back to 540. -/
theorem travel_back_right :
    let m := new twoScreens "srv"
    let m' := (m.handle (.motionAbs 1919 540)).1
    m'.active = "lap" ∧ ((⟨1280, 800⟩ : ScreenSize).OnEdge m'.cursorX m'.cursorY .left) ∧
      (m'.handle (.motionRel (-1) 0)).1.active = "srv" := by
  have h := travel_back (new twoScreens "srv") ((new twoScreens "srv").withCursor (1919, 540))
    (.motionAbs 1919 540) ⟨"lap", .right, 0, 400⟩ "srv" "lap" .right ⟨1920, 1080⟩ ⟨1280, 800⟩ ?_
    (by decide) (by decide) (by decide) (by decide) (by decide) (by decide) rfl (by decide) rfl
  · exact ⟨h.1, h.2.1, h.2.2.2.1⟩
  · intro name s hs
    obtain ⟨node, hnode, rfl⟩ := Option.map_eq_some_iff.mp hs
    rcases twoScreens_nodes hnode with ⟨-, rfl⟩ | ⟨-, rfl⟩ <;> decide

end ServerMachine

end SelfKvm
