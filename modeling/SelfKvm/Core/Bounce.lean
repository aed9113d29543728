/-
  No bounce after a switch.

  A cursor that has just arrived must not stand where it would leave again.  The server guards
  against this three times: entry points are scaled into the target's bounds, the margin is 0 on a
  remote screen, and a cursor that comes home lands `inset` pixels inside.  `Settled` is the place
  all three aim for, and `switch_settles` shows that every call that changes the screen ends there,
  over whichever edge it came: the local screen needs four pixels each way for the inset to fit.
-/
import SelfKvm.Core.Server
import SelfKvm.Core.EdgeSearch

namespace SelfKvm

namespace ScreenLayout

variable {l : ScreenLayout} {active : String} {node : ScreenNode} {x y : Int32}

theorem detectCrossing_eq_none {margin : Int32} (hnode : l.nodes active = some node)
    (h : ∀ e, ¬node.size.Past x y margin e) : l.detectCrossing active x y margin = none := by
  cases hc : l.detectCrossing active x y margin with
  | none => rfl
  | some c =>
    obtain ⟨node', -, hnode', hedge, -⟩ := detectCrossing_eq_some.mp hc
    obtain rfl : node = node' := Option.some.inj (hnode.symm.trans hnode')
    rw [crossedEdge_eq_none h] at hedge
    cases hedge

/-- A virtual cursor that is on the screen stays there. -/
theorem no_crossing_inside (hnode : l.nodes active = some node) (h : node.size.Inside x y) :
    l.detectCrossing active x y 0 = none :=
  detectCrossing_eq_none hnode (not_past_inside h)

end ScreenLayout

/-- `x` is a coordinate on an axis of length `n`, and not the first or the last one. -/
def OffEnds (x n : Int32) : Prop := 0 < x.toInt ∧ x.toInt < n.toInt - 1

namespace ScreenLayout

variable {l : ScreenLayout} {active : String} {node : ScreenNode} {x y : Int32}

/-- A real cursor that does not touch the border stays there. -/
theorem no_crossing_interior (hnode : l.nodes active = some node) (hpos : node.size.Positive)
    (hx : OffEnds x node.size.w) (hy : OffEnds y node.size.h) :
    l.detectCrossing active x y 1 = none := by
  apply detectCrossing_eq_none hnode
  obtain ⟨hx₀, hx₁⟩ := hx
  obtain ⟨hy₀, hy₁⟩ := hy
  have hone : (1 : Int32).toInt = 1 := rfl
  intro e
  cases e with
  | left =>
    show ¬x < 1
    rw [Int32.lt_iff_toInt_lt]
    omega
  | right =>
    show ¬node.size.w - 1 ≤ x
    rw [Int32.le_iff_toInt_le, pred_toInt hpos.1]
    omega
  | top =>
    show ¬y < 1
    rw [Int32.lt_iff_toInt_lt]
    omega
  | bottom =>
    show ¬node.size.h - 1 ≤ y
    rw [Int32.le_iff_toInt_le, pred_toInt hpos.2]
    omega

end ScreenLayout

namespace ServerMachine

variable {m m' : ServerMachine} {acts : List ServerAction} {c : Crossing}

/-! ## Where a returning cursor lands -/

theorem ordClamp_bounds (v : Int32) {lo hi : Int32} (h : lo.toInt ≤ hi.toInt) :
    lo.toInt ≤ (ordClamp v lo hi).toInt ∧ (ordClamp v lo hi).toInt ≤ hi.toInt := by
  unfold ordClamp
  by_cases hlo : v < lo
  · rw [if_pos hlo]
    omega
  · rw [if_neg hlo]
    have hlo' := Int32.le_iff_toInt_le.mp (Int32.not_lt.mp hlo)
    by_cases hhi : hi < v
    · rw [if_pos hhi]
      omega
    · rw [if_neg hhi]
      have hhi' := Int32.le_iff_toInt_le.mp (Int32.not_lt.mp hhi)
      omega

/-- The far end of the inset. -/
theorem insetEnd_toInt {n : Int32} (hn : 0 < n.toInt) :
    (max (n - 1 - inset) inset).toInt = max (n.toInt - 3) 2 := by
  have hpred := pred_toInt (Int32.lt_iff_toInt_lt.mpr hn)
  have hinset : inset.toInt = 2 := rfl
  have hlt := n.toInt_lt
  rw [max_toInt, Int32.toInt_sub, hpred, hinset, Int.bmod_eq_of_le]
  · omega
  · omega
  · omega

theorem insetToLocal_of_size {s : ScreenSize} (hs : m.layout.sizeOf m.localScreen = some s)
    (x y : Int32) :
    m.insetToLocal x y =
      (ordClamp x inset (max (s.w - 1 - inset) inset),
        ordClamp y inset (max (s.h - 1 - inset) inset)) := by
  unfold insetToLocal
  rw [hs]

theorem centre_of_size {layout : ScreenLayout} {screen : String} {s : ScreenSize}
    (hs : layout.sizeOf screen = some s) : centre layout screen = (s.w / 2, s.h / 2) := by
  unfold centre
  rw [hs]
  rfl

/-- On four pixels or more the inset keeps off both ends. -/
theorem offEnds_inset {n : Int32} (hn : 4 ≤ n.toInt) (v : Int32) :
    OffEnds (ordClamp v inset (max (n - 1 - inset) inset)) n := by
  have hend := insetEnd_toInt (n := n) (by omega)
  have hinset : inset.toInt = 2 := rfl
  have hle : inset.toInt ≤ (max (n - 1 - inset) inset).toInt := by omega
  have hbounds := ordClamp_bounds v hle
  unfold OffEnds
  omega

theorem half_toInt {n : Int32} (hn : 0 ≤ n.toInt) : (n / 2).toInt = n.toInt / 2 := by
  have htwo : (2 : Int32).toInt = 2 := rfl
  rw [Int32.toInt_div_of_ne_right n 2 (by decide), htwo, Int.tdiv_eq_ediv_of_nonneg hn]

/-- So does the centre. -/
theorem offEnds_half {n : Int32} (hn : 4 ≤ n.toInt) : OffEnds (n / 2) n := by
  have hhalf := half_toInt (n := n) (by omega)
  unfold OffEnds
  omega

/-! ## Room on every screen -/

/-- The sizes for which the entry points are safe. -/
def Roomy (m : ServerMachine) : Prop :=
  ∀ name node, m.layout.nodes name = some node →
    if name = m.localScreen then 4 ≤ node.size.w.toInt ∧ 4 ≤ node.size.h.toInt
    else node.size.Positive

/-- The margin that counts on the active screen. -/
def margin (m : ServerMachine) : Int32 := if m.isRemote then 0 else 1

/-- The cursor is not where the active screen is left. -/
def Settled (m : ServerMachine) : Prop :=
  m.layout.detectCrossing m.active m.cursorX m.cursorY m.margin = none

theorem margin_local (h : m.active = m.localScreen) : m.margin = 1 := by
  unfold margin
  rw [not_isRemote_iff.mpr h]
  rfl

theorem margin_remote (h : m.active ≠ m.localScreen) : m.margin = 0 := by
  unfold margin
  rw [isRemote_iff.mpr h]
  rfl

/-- A crossing is one the layout finds. -/
theorem crossing_eq_some (h : m.crossing = some c) :
    m.switchLocked = false ∧
      m.layout.detectCrossing m.active m.cursorX m.cursorY m.margin = some c := by
  unfold crossing at h
  cases hl : m.switchLocked with
  | true => simp [hl] at h
  | false =>
    simp only [hl, Bool.false_eq_true, if_false] at h
    exact ⟨rfl, h⟩

/-- The local screen off its border is a settled place. -/
theorem settled_home (hroom : m.Roomy) (hr : m.active = m.localScreen)
    (hcursor : ∀ s, m.layout.sizeOf m.localScreen = some s →
      OffEnds m.cursorX s.w ∧ OffEnds m.cursorY s.h) : m.Settled := by
  unfold Settled
  rw [margin_local hr, hr]
  cases hnode : m.layout.nodes m.localScreen with
  | none =>
    cases hc : m.layout.detectCrossing m.localScreen m.cursorX m.cursorY 1 with
    | none => rfl
    | some c =>
      obtain ⟨node, -, hnode', -⟩ := ScreenLayout.detectCrossing_eq_some.mp hc
      rw [hnode] at hnode'
      cases hnode'
  | some node =>
    have hfour := hroom m.localScreen node hnode
    rw [if_pos rfl] at hfour
    have hpos : node.size.Positive := by
      constructor
      · rw [Int32.lt_iff_toInt_lt, Int32.toInt_zero]
        omega
      · rw [Int32.lt_iff_toInt_lt, Int32.toInt_zero]
        omega
    have hsize : m.layout.sizeOf m.localScreen = some node.size := by
      unfold ScreenLayout.sizeOf
      rw [hnode]
      rfl
    obtain ⟨hx, hy⟩ := hcursor node.size hsize
    exact ScreenLayout.no_crossing_interior hnode hpos hx hy

theorem settled_centre (hroom : m.Roomy) (hr : m.active = m.localScreen)
    (hcursor : (m.cursorX, m.cursorY) = centre m.layout m.localScreen) : m.Settled := by
  apply settled_home hroom hr
  intro s hs
  rw [centre_of_size hs] at hcursor
  injection hcursor with hx hy
  rw [hx, hy]
  obtain ⟨node, hnode, rfl⟩ := Option.map_eq_some_iff.mp hs
  have hfour := hroom m.localScreen node hnode
  rw [if_pos rfl] at hfour
  exact ⟨offEnds_half hfour.1, offEnds_half hfour.2⟩

/-! ## Every switch -/

/-- Coming home, over any edge. -/
theorem settled_returned (hroom : m.Roomy) (c : Crossing) : (m.returned c).Settled := by
  apply settled_home (m := m.returned c) hroom rfl
  intro s hs
  have hinset := insetToLocal_of_size (m := m) hs c.entryX c.entryY
  obtain ⟨node, hnode, rfl⟩ := Option.map_eq_some_iff.mp hs
  have hfour := hroom m.localScreen node hnode
  rw [if_pos rfl] at hfour
  show OffEnds (m.insetToLocal c.entryX c.entryY).1 _ ∧
    OffEnds (m.insetToLocal c.entryX c.entryY).2 _
  rw [hinset]
  exact ⟨offEnds_inset hfour.1 _, offEnds_inset hfour.2 _⟩

/-- Arriving on a client's screen. -/
theorem settled_entered (hroom : m.Roomy) {c : Crossing} (hc : m.crossing = some c)
    (ht : c.target ≠ m.localScreen) : (m.entered c).Settled := by
  obtain ⟨-, hdetect⟩ := crossing_eq_some hc
  obtain ⟨-, target, -, -, -, htarget, -⟩ := ScreenLayout.detectCrossing_eq_some.mp hdetect
  have hpos := hroom c.target target htarget
  rw [if_neg ht] at hpos
  unfold Settled
  rw [margin_remote (m := m.entered c) ht]
  exact ScreenLayout.no_crossing_inside htarget
    (ScreenLayout.detectCrossing_inside hdetect htarget hpos)

theorem MotionOutcome.settled (h : MotionOutcome m m' acts) (hroom : m.Roomy) {screen : String}
    (hsw : .activeChanged screen ∈ acts) :
    m'.Settled ∧ ∀ x y, .warpCursor x y ∈ acts → x = m'.cursorX ∧ y = m'.cursorY := by
  have hleaving : ∀ x y, ServerAction.warpCursor x y ∉ m.leaving := by
    intro x y hmem
    rcases m.leaving_cases with ⟨-, hl⟩ | ⟨-, hl⟩ <;> rw [hl] at hmem <;> simp at hmem
  cases h with
  | stay => cases hsw
  | move => simp at hsw
  | home c hc ht =>
    refine ⟨settled_returned hroom c, ?_⟩
    intro x y hmem
    rcases List.mem_append.mp hmem with hl | hrest
    · exact absurd hl (hleaving x y)
    · simpa using hrest
  | enter c hc ht =>
    refine ⟨settled_entered hroom hc ht, ?_⟩
    intro x y hmem
    rcases List.mem_append.mp hmem with hl | hrest
    · exact absurd hl (hleaving x y)
    · unfold grabbing at hrest
      split at hrest <;> simp at hrest

/-- A motion that crosses nothing changes no screen. -/
theorem handle_stays {ev : LocalEvent} (h : ∀ m₁, m.moved ev = some m₁ → m₁.crossing = none) :
    (m.handle ev).1.active = m.active ∧ ∀ screen, .activeChanged screen ∉ (m.handle ev).2 := by
  have hout := handle_outcome m ev
  generalize (m.handle ev).1 = m', (m.handle ev).2 = acts at hout ⊢
  cases hout with
  | motion m₁ _ _ hm ho =>
    have hnone := h m₁ hm
    obtain ⟨p, rfl, -⟩ := moved_eq_some hm
    cases ho with
    | stay => exact ⟨rfl, fun _ hmem => by cases hmem⟩
    | move => exact ⟨rfl, fun _ hmem => by simp at hmem⟩
    | home c hc => cases hnone.symm.trans hc
    | enter c hc => cases hnone.symm.trans hc
  | forward => exact ⟨trackModifiers_active ev, fun _ hmem => by simp at hmem⟩
  | ignore => exact ⟨trackModifiers_active ev, fun _ hmem => by cases hmem⟩

/-- A settled cursor that does not move crosses nothing. -/
theorem Settled.crossing (h : m.Settled) : m.crossing = none := by
  unfold ServerMachine.crossing
  by_cases hl : m.switchLocked
  · rw [if_pos hl]
  · rw [if_neg hl]
    exact h

/-- Every call that changes the screen leaves the cursor settled, and warps to nowhere else. -/
theorem step_settled (hroom : m.Roomy) (op : ServerOp) {screen : String}
    (hsw : .activeChanged screen ∈ (m.step op).2) :
    (m.step op).1.Settled ∧ ∀ x y, .warpCursor x y ∈ (m.step op).2 →
      x = (m.step op).1.cursorX ∧ y = (m.step op).1.cursorY := by
  cases op with
  | handle ev =>
    show (m.handle ev).1.Settled ∧ ∀ x y, .warpCursor x y ∈ (m.handle ev).2 →
      x = (m.handle ev).1.cursorX ∧ y = (m.handle ev).1.cursorY
    have hsw' : .activeChanged screen ∈ (m.handle ev).2 := hsw
    have hout := handle_outcome m ev
    generalize (m.handle ev).1 = m', (m.handle ev).2 = acts at hout hsw' ⊢
    cases hout with
    | motion m₁ _ _ hm ho =>
      obtain ⟨p, rfl, -⟩ := moved_eq_some hm
      exact ho.settled hroom hsw'
    | forward => simp at hsw'
    | ignore => cases hsw'
  | goHome =>
    have hsw' : .activeChanged screen ∈ m.goHome.2 := hsw
    show m.goHome.1.Settled ∧ ∀ x y, .warpCursor x y ∈ m.goHome.2 →
      x = m.goHome.1.cursorX ∧ y = m.goHome.1.cursorY
    by_cases hr : m.active = m.localScreen
    · rw [goHome_local hr] at hsw'
      cases hsw'
    · rw [goHome_remote hr]
      refine ⟨settled_centre hroom rfl rfl, ?_⟩
      intro x y hmem
      rw [List.mem_cons, List.mem_cons] at hmem
      rcases hmem with heq | heq | hmem
      · cases heq
      · injection heq with hx hy
        exact ⟨hx, hy⟩
      · simp at hmem
  | setLock locked => cases hsw
  | toggleLock => cases hsw
  | setScreenSize s w h => cases hsw

/-- A zero motion leaves the cursor where it is, and so does a report of where it is. -/
theorem moved_still {ev : LocalEvent}
    (hev : ev = .motionRel 0 0 ∨ ev = .motionAbs m.cursorX m.cursorY) {m₁ : ServerMachine}
    (hm : m.moved ev = some m₁) : m₁ = m := by
  rcases hev with rfl | rfl
  · injection hm with hm
    rw [← hm, Int32.add_zero, Int32.add_zero]
    rfl
  · unfold moved at hm
    by_cases hr : m.isRemote
    · simp [hr] at hm
    · simp only [hr, Bool.false_eq_true, if_false, Option.some.injEq] at hm
      exact hm.symm

/-- **No bounce.**  For every layout with remote screens of at least 1x1 and a local screen of at
    least 4x4, every state and every call that changes the active screen: the cursor is left where
    the search for a crossing finds none, with the margin that counts there; a warp goes to that
    position; and neither a zero motion nor an absolute motion to it changes the screen again. -/
theorem switch_settles (m : ServerMachine) (op : ServerOp) (hroom : m.Roomy) (screen : String)
    (hsw : .activeChanged screen ∈ (m.step op).2) :
    let m' := (m.step op).1
    m'.layout.detectCrossing m'.active m'.cursorX m'.cursorY (if m'.isRemote then 0 else 1) = none ∧
    (∀ x y, .warpCursor x y ∈ (m.step op).2 → x = m'.cursorX ∧ y = m'.cursorY) ∧
    ∀ ev, ev = .motionRel 0 0 ∨ ev = .motionAbs m'.cursorX m'.cursorY →
      (m'.handle ev).1.active = m'.active ∧ ∀ s, .activeChanged s ∉ (m'.handle ev).2 := by
  obtain ⟨hnone, hwarp⟩ := step_settled hroom op hsw
  refine ⟨hnone, hwarp, ?_⟩
  generalize (m.step op).1 = m' at hnone
  intro ev hev
  apply handle_stays
  intro m₁ hm
  rw [moved_still hev hm]
  exact hnone.crossing

/-- Back to the server's screen, from the left edge of the client's. -/
theorem switch_settles_back :
    let m : ServerMachine := { new twoScreens "srv" with active := "lap", cursorX := 0 }
    let m' := (m.step (.handle (.motionRel (-5) 0))).1
    m'.active = "srv" ∧ m'.layout.detectCrossing m'.active m'.cursorX m'.cursorY
      (if m'.isRemote then 0 else 1) = none := by
  refine ⟨by decide, (switch_settles _ _ ?_ "srv" (by decide)).1⟩
  intro name node hnode
  rcases twoScreens_nodes hnode with ⟨rfl, rfl⟩ | ⟨rfl, rfl⟩ <;> decide

end ServerMachine

end SelfKvm
