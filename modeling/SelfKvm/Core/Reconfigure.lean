/-
  Changing the layout under a session.

  `set_layout` and `set_screen_size` change what the machine knows while the cursor may be anywhere.
  `set_layout` makes the local screen active and returns nothing: no release of the grab, no `Leave`,
  no position; nobody tells the backend until the cursor has changed screens again, which is what
  `LiveSession.stranded` remembers.  `set_screen_size` changes the bounds and leaves the cursor; a
  motion that comes next finds it past an edge it never crossed.

  `settled_iff` and `adopts_iff` give the exact conditions, over all runs of all calls.
-/
import SelfKvm.Core.Discipline
import SelfKvm.Core.Nudges

namespace SelfKvm

/-- The calls on a machine, a change of the layout among them. -/
inductive SessionOp where
  | op (op : ServerOp)
  | setLayout (layout : ScreenLayout)

namespace ServerMachine

/-- Replace the layout; control goes back to the local screen. -/
def setLayout (m : ServerMachine) (layout : ScreenLayout) : ServerMachine :=
  { m with layout, active := m.localScreen }

/-- One call of any kind. -/
def reconfigure (m : ServerMachine) : SessionOp → ServerMachine × List ServerAction
  | .op op => m.step op
  | .setLayout layout => (m.setLayout layout, [])

end ServerMachine

/-! ## What a change of the layout leaves behind -/

/-- The action tells of a change of screens. -/
def ServerAction.announces : ServerAction → Bool
  | .activeChanged _ => true
  | _ => false

/-- A machine, and whether its layout was replaced under a remote session with no change of screens
    announced since. -/
structure LiveSession where
  machine : ServerMachine
  stranded : Bool

namespace LiveSession

def step (s : LiveSession) (op : SessionOp) : LiveSession × List ServerAction :=
  let (m, acts) := s.machine.reconfigure op
  match op with
  | .op _ => (⟨m, s.stranded && !acts.any ServerAction.announces⟩, acts)
  | .setLayout _ => (⟨m, s.stranded || s.machine.isRemote⟩, acts)

def fresh (layout : ScreenLayout) (home : String) : LiveSession :=
  ⟨ServerMachine.new layout home, false⟩

end LiveSession

namespace ServerMachine

variable {m m' : ServerMachine} {acts : List ServerAction}

/-- What replacing the layout should leave: control at home, the grab released, the client that was
    active dismissed, and the cursor on the local screen of the new layout. -/
structure SettledBy (outs : List ServerAction) (m : ServerMachine) (layout : ScreenLayout) :
    Prop where
  home : (m.reconfigure (.setLayout layout)).1.isRemote = false
  released : (outs ++ (m.reconfigure (.setLayout layout)).2).foldl grabStep false = false
  dismissed : m.isRemote = true → .send m.active .leave ∈ (m.reconfigure (.setLayout layout)).2
  inside : ∃ s, layout.sizeOf m.localScreen = some s ∧
    s.Inside (m.reconfigure (.setLayout layout)).1.cursorX
      (m.reconfigure (.setLayout layout)).1.cursorY

/-- A motion from home that changes no screen asks for no grab; one that does asks for the right
    one, whatever was asked before. -/
theorem MotionOutcome.grab_at_home (h : MotionOutcome m m' acts) (hr : m.active = m.localScreen)
    (g : Bool) :
    acts.foldl grabStep g = if acts.any ServerAction.announces then m'.isRemote else g := by
  have hleave : m.leaving = [] := by
    rcases m.leaving_cases with ⟨-, hl⟩ | ⟨hne, -⟩
    · exact hl
    · exact absurd hr hne
  cases h with
  | stay => rfl
  | move => rfl
  | home c hc ht =>
    have hhome : (m.returned c).isRemote = false := not_isRemote_iff.mpr rfl
    rw [hleave, hhome]
    rfl
  | enter c hc ht =>
    have haway : (m.entered c).isRemote = true := isRemote_iff.mpr ht
    rw [hleave, grabbing_local hr, haway]
    rfl

/-- The same for any call. -/
theorem step_grab_at_home (hr : m.active = m.localScreen) (op : ServerOp) (g : Bool) :
    (m.step op).2.foldl grabStep g =
      if (m.step op).2.any ServerAction.announces then (m.step op).1.isRemote else g := by
  cases op with
  | handle ev =>
    show (m.handle ev).2.foldl grabStep g =
      if (m.handle ev).2.any ServerAction.announces then (m.handle ev).1.isRemote else g
    have hout := handle_outcome m ev
    generalize (m.handle ev).1 = m', (m.handle ev).2 = acts at hout ⊢
    cases hout with
    | motion m₁ _ _ hm ho =>
      obtain ⟨p, rfl, -⟩ := moved_eq_some hm
      exact ho.grab_at_home hr g
    | forward msg hne => exact absurd hr hne
    | ignore => rfl
  | goHome =>
    show m.goHome.2.foldl grabStep g = if m.goHome.2.any _ then _ else g
    rw [goHome_local hr]
    rfl
  | _ => rfl

/-- A call that announces nothing leaves control where it is. -/
theorem step_active_of_quiet (op : ServerOp)
    (hquiet : (m.step op).2.any ServerAction.announces = false) :
    (m.step op).1.active = m.active := by
  have hactive := (step_settles m op).active
  have hno : ∀ (as : List ServerAction) (s : String), as.any ServerAction.announces = false →
      as.foldl activeStep s = s := by
    intro as s
    induction as with
    | nil => exact fun _ => rfl
    | cons a as ih =>
      intro h
      rw [List.any_cons, Bool.or_eq_false_iff] at h
      have ha : activeStep s a = s := by
        cases a with
        | activeChanged screen => cases h.1
        | _ => rfl
      rw [List.foldl_cons, ha]
      exact ih h.2
  rw [← hactive]
  exact hno _ _ hquiet

end ServerMachine

namespace LiveSession

open ServerMachine

/-- What the actions of a run say about the session it has led to. -/
structure Grabbed (s : LiveSession) (outs : List ServerAction) : Prop where
  grab : outs.foldl grabStep false = (s.machine.isRemote || s.stranded)
  stranded_home : s.stranded = true → s.machine.active = s.machine.localScreen

/-- **Each call keeps it.** -/
theorem Grabbed.step {s : LiveSession} {outs : List ServerAction} (h : s.Grabbed outs)
    (op : SessionOp) :
    (s.step op).1.Grabbed (outs ++ (s.step op).2) := by
  cases op with
  | op o =>
    show Grabbed ⟨(s.machine.step o).1, s.stranded && !(s.machine.step o).2.any _⟩ (outs ++ _)
    have hgrab := h.grab
    cases hstranded : s.stranded with
    | false =>
      rw [hstranded, Bool.or_false] at hgrab
      refine ⟨?_, fun hfalse => by cases hfalse⟩
      rw [List.foldl_append, hgrab]
      show _ = ((s.machine.step o).1.isRemote ||
        (false && !(s.machine.step o).2.any ServerAction.announces))
      rw [Bool.false_and, Bool.or_false]
      exact (step_settles s.machine o).grab
    | true =>
      have hr := h.stranded_home hstranded
      rw [hstranded, Bool.or_true] at hgrab
      have hstep := step_grab_at_home hr o true
      rw [Bool.true_and]
      cases hquiet : (s.machine.step o).2.any ServerAction.announces with
      | true =>
        rw [hquiet, if_pos rfl] at hstep
        refine ⟨?_, fun hfalse => by cases hfalse⟩
        rw [List.foldl_append, hgrab]
        show (s.machine.step o).2.foldl grabStep true = ((s.machine.step o).1.isRemote || false)
        rw [Bool.or_false]
        exact hstep
      | false =>
        rw [hquiet, if_neg Bool.false_ne_true] at hstep
        refine ⟨?_, fun _ => ?_⟩
        · rw [List.foldl_append, hgrab]
          show (s.machine.step o).2.foldl grabStep true = ((s.machine.step o).1.isRemote || true)
          rw [Bool.or_true]
          exact hstep
        · show (s.machine.step o).1.active = (s.machine.step o).1.localScreen
          rw [step_active_of_quiet o hquiet, (step_settles s.machine o).localScreen]
          exact hr
  | setLayout layout =>
    show Grabbed ⟨s.machine.setLayout layout, s.stranded || s.machine.isRemote⟩ (outs ++ [])
    have hhome : (s.machine.setLayout layout).isRemote = false := not_isRemote_iff.mpr rfl
    refine ⟨?_, fun _ => rfl⟩
    rw [List.append_nil, h.grab]
    show _ = ((s.machine.setLayout layout).isRemote || (s.stranded || s.machine.isRemote))
    rw [hhome, Bool.false_or, Bool.or_comm]

/-- **When replacing the layout settles the session.**  In every state reached by any calls, for
    every new layout: the machine is at home with the grab released, the client that was active
    dismissed and the cursor on the local screen of the new layout, if and only if it was at home
    before, no earlier replacement has left a grab behind, and the cursor lies on the local screen
    of the new layout already. -/
theorem settled_iff (layout : ScreenLayout) (home : String) (ops : List SessionOp)
    (next : ScreenLayout) :
    let s := (Mealy.run step (fresh layout home) ops).1
    SettledBy (Mealy.run step (fresh layout home) ops).2 s.machine next ↔
      s.machine.isRemote = false ∧ s.stranded = false ∧
      ∃ size, next.sizeOf s.machine.localScreen = some size ∧
        size.Inside s.machine.cursorX s.machine.cursorY := by
  have hrun : Grabbed (Mealy.run step (fresh layout home) ops).1
      (Mealy.run step (fresh layout home) ops).2 := by
    apply Mealy.run_induction step (P := fun _ s outs => s.Grabbed outs)
    · have hhome : (new layout home).isRemote = false := not_isRemote_iff.mpr rfl
      refine ⟨?_, fun hfalse => by cases hfalse⟩
      show false = ((new layout home).isRemote || false)
      rw [hhome, Bool.or_false]
    · intro _ s outs op h
      exact h.step op
  intro s
  have hgrab : (Mealy.run step (fresh layout home) ops).2.foldl grabStep false =
      (s.machine.isRemote || s.stranded) := hrun.grab
  constructor
  · rintro ⟨-, hreleased, hdismissed, hinside⟩
    have hlocal : s.machine.isRemote = false := by
      cases hr : s.machine.isRemote with
      | false => rfl
      | true => cases hdismissed hr
    have hfree : (s.machine.isRemote || s.stranded) = false := by
      rw [← hgrab]
      exact (congrArg (List.foldl grabStep false) (List.append_nil _)).symm.trans hreleased
    rw [hlocal, Bool.false_or] at hfree
    exact ⟨hlocal, hfree, hinside⟩
  · rintro ⟨hlocal, hfree, hinside⟩
    refine ⟨not_isRemote_iff.mpr rfl, ?_, fun hr => ?_, hinside⟩
    · refine (congrArg (List.foldl grabStep false) (List.append_nil _)).trans ?_
      rw [hgrab, hlocal, hfree]
      rfl
    · rw [hlocal] at hr
      cases hr

/-- The cursor has gone to the client when the operator applies the layout again. -/
theorem stranded_remote :
    ¬SettledBy
      (Mealy.run step (fresh twoScreens "srv") [.op (.handle (.motionAbs 1919 540))]).2
      (Mealy.run step (fresh twoScreens "srv") [.op (.handle (.motionAbs 1919 540))]).1.machine
      twoScreens := by
  intro h
  exact absurd h.released (by decide)

end LiveSession

/-! ## What a change of a size leaves behind -/

namespace ServerMachine

variable {m m' : ServerMachine} {acts : List ServerAction}

/-- What adopting a size should leave: the cursor on the active screen, so that a relative motion
    crosses only an edge that it carries the cursor past. -/
structure StaysInside (m : ServerMachine) (screen : String) (w h : Int32) : Prop where
  inside : (m.setScreenSize screen w h).OnScreen
  crosses : ∀ dx dy c s, (m.setScreenSize screen w h).layout.sizeOf m.active = some s →
    ((m.setScreenSize screen w h).withCursor (m.cursorX + dx, m.cursorY + dy)).crossing = some c →
    s.Inside m.cursorX m.cursorY ∧ s.Past (m.cursorX + dx) (m.cursorY + dy) 0 c.fromEdge

/-- What is asked of a call: a size of at least 1x1 adopted while a remote screen is active leaves
    the cursor on it. -/
def Adopts (m : ServerMachine) : SessionOp → Prop
  | .op (.setScreenSize screen w h) =>
    m.isRemote = true → 1 ≤ w.toInt → 1 ≤ h.toInt → m.StaysInside screen w h
  | _ => True

/-- The condition: the cursor lies within the size the active screen is given; if another screen is
    resized, the active one has at least 1x1 pixels. -/
def Fits (m : ServerMachine) : SessionOp → Prop
  | .op (.setScreenSize screen w h) =>
    m.isRemote = true → 1 ≤ w.toInt → 1 ≤ h.toInt →
      (screen = m.active → ScreenSize.Inside ⟨w, h⟩ m.cursorX m.cursorY) ∧
      (screen ≠ m.active → ∀ s, m.layout.sizeOf m.active = some s → s.Positive)
  | _ => True

/-- A remote screen that is active is in the layout, and has the cursor if it has any pixels. -/
def Hosted (m : ServerMachine) : Prop :=
  m.active ≠ m.localScreen → ∃ s, m.layout.sizeOf m.active = some s ∧
    (s.Positive → s.Inside m.cursorX m.cursorY)

theorem positive_iff {w h : Int32} : ScreenSize.Positive ⟨w, h⟩ ↔ 1 ≤ w.toInt ∧ 1 ≤ h.toInt := by
  show 0 < w ∧ 0 < h ↔ _
  rw [Int32.lt_iff_toInt_lt, Int32.lt_iff_toInt_lt, Int32.toInt_zero]
  omega

/-- A screen that holds a position has pixels. -/
theorem positive_of_inside {s : ScreenSize} {x y : Int32} (h : s.Inside x y) : s.Positive := by
  obtain ⟨hx, hy⟩ := h
  have hx' := onAxis_iff.mp hx
  have hy' := onAxis_iff.mp hy
  have hpos : ScreenSize.Positive ⟨s.w, s.h⟩ := positive_iff.mpr ⟨by omega, by omega⟩
  exact hpos

/-- From the cursor's place on the active screen the rest follows. -/
theorem staysInside_iff {screen : String} {w h : Int32} (hr : m.isRemote = true) :
    m.StaysInside screen w h ↔ (m.setScreenSize screen w h).OnScreen := by
  constructor
  · exact fun hstays => hstays.inside
  · intro hon
    refine ⟨hon, ?_⟩
    intro dx dy c s hs hc
    obtain ⟨s', hs', hin⟩ := hon
    obtain rfl : s = s' := Option.some.inj (hs.symm.trans hs')
    obtain ⟨-, hdetect⟩ := crossing_eq_some hc
    have hremote : m.active ≠ m.localScreen := isRemote_iff.mp hr
    rw [margin_remote
      (m := (m.setScreenSize screen w h).withCursor (m.cursorX + dx, m.cursorY + dy))
      hremote] at hdetect
    obtain ⟨node, -, hnode, hedge, -⟩ := ScreenLayout.detectCrossing_eq_some.mp hdetect
    have hsize : (m.setScreenSize screen w h).layout.sizeOf m.active = some node.size :=
      Option.map_eq_some_iff.mpr ⟨node, hnode, rfl⟩
    obtain rfl : s = node.size := Option.some.inj (hs.symm.trans hsize)
    exact ⟨hin, (ScreenLayout.crossedEdge_eq_some.mp hedge).1⟩

/-- **One call**: in a hosted state it does what is asked exactly if the size fits. -/
theorem adopts_iff_fits (hm : m.Hosted) (op : SessionOp) : m.Adopts op ↔ m.Fits op := by
  cases op with
  | setLayout layout => exact Iff.rfl
  | op o =>
    cases o with
    | setScreenSize screen w h =>
      show (_ → _ → _ → _) ↔ (_ → _ → _ → _)
      refine forall_congr' fun hr => forall_congr' fun hw => forall_congr' fun hh => ?_
      rw [staysInside_iff hr]
      obtain ⟨s, hs, hinside⟩ := hm (isRemote_iff.mp hr)
      have hsize := sizeOf_setScreenSize m screen w h m.active
      by_cases hscreen : screen = m.active
      · rw [if_pos hscreen.symm, hs] at hsize
        constructor
        · rintro ⟨s', hs', hin⟩
          obtain rfl : (⟨w, h⟩ : ScreenSize) = s' := Option.some.inj (hsize.symm.trans hs')
          exact ⟨fun _ => hin, fun hne => absurd hscreen hne⟩
        · rintro ⟨hfits, -⟩
          exact ⟨⟨w, h⟩, hsize, hfits hscreen⟩
      · rw [if_neg (Ne.symm hscreen), hs] at hsize
        constructor
        · rintro ⟨s', hs', hin⟩
          refine ⟨fun heq => absurd heq hscreen, fun _ s'' hs'' => ?_⟩
          obtain rfl : s = s'' := Option.some.inj (hs.symm.trans hs'')
          obtain rfl : s = s' := Option.some.inj (hsize.symm.trans hs')
          exact positive_of_inside hin
        · rintro ⟨-, hpos⟩
          exact ⟨s, hsize, hinside (hpos hscreen s hs)⟩
    | _ => exact Iff.rfl

/-- A motion leaves the machine hosted. -/
theorem MotionOutcome.hosted (h : MotionOutcome m m' acts)
    (hknown : m.active ≠ m.localScreen → ∃ s, m.layout.sizeOf m.active = some s) : m'.Hosted := by
  cases h with
  | stay hc hr => exact fun hne => absurd hr hne
  | move hc hr =>
    intro _
    obtain ⟨s, hs⟩ := hknown hr
    refine ⟨s, hs, fun hpos => ?_⟩
    show s.Inside (m.layout.clampTo m.active _ _).1 (m.layout.clampTo m.active _ _).2
    rw [clampTo_of_size hs]
    exact inside_clamp hpos _ _
  | home c hc ht => exact fun hne => absurd rfl hne
  | enter c hc ht =>
    intro _
    obtain ⟨-, hdetect⟩ := crossing_eq_some hc
    obtain ⟨-, target, -, -, -, htarget, -⟩ := ScreenLayout.detectCrossing_eq_some.mp hdetect
    exact ⟨target.size, Option.map_eq_some_iff.mpr ⟨target, htarget, rfl⟩,
      fun hpos => ScreenLayout.detectCrossing_inside hdetect htarget hpos⟩

/-- **Every call that fits leaves the machine hosted.** -/
theorem Hosted.reconfigure (hm : m.Hosted) {op : SessionOp} (hfits : m.Fits op) :
    (m.reconfigure op).1.Hosted := by
  cases op with
  | setLayout layout => exact fun hne => absurd rfl hne
  | op o =>
    cases o with
    | handle ev =>
      show (m.handle ev).1.Hosted
      have hout := handle_outcome m ev
      generalize (m.handle ev).1 = m', (m.handle ev).2 = acts at hout ⊢
      have htracked : (m.trackModifiers ev).Hosted := by
        intro hne
        rw [trackModifiers_active, trackModifiers_localScreen] at hne
        rw [trackModifiers_active, trackModifiers_layout, trackModifiers_cursorX,
          trackModifiers_cursorY]
        exact hm hne
      cases hout with
      | motion m₁ _ _ hmoved ho =>
        obtain ⟨p, rfl, -⟩ := moved_eq_some hmoved
        refine ho.hosted fun hne => ?_
        obtain ⟨s, hs, -⟩ := hm hne
        exact ⟨s, hs⟩
      | forward => exact htracked
      | ignore => exact htracked
    | setLock locked => exact hm
    | toggleLock => exact hm
    | goHome =>
      show m.goHome.1.Hosted
      by_cases hr : m.active = m.localScreen
      · rw [goHome_local hr]
        exact hm
      · rw [goHome_remote hr]
        exact fun hne => absurd rfl hne
    | setScreenSize screen w h =>
      show (m.setScreenSize screen w h).Hosted
      intro hne
      have hr : m.isRemote = true := isRemote_iff.mpr hne
      obtain ⟨s, hs, hinside⟩ := hm hne
      have hsize := sizeOf_setScreenSize m screen w h m.active
      by_cases hscreen : screen = m.active
      · rw [if_pos hscreen.symm, hs] at hsize
        refine ⟨⟨w, h⟩, hsize, fun hpos => ?_⟩
        obtain ⟨hw, hh⟩ := positive_iff.mp hpos
        exact (hfits hr hw hh).1 hscreen
      · rw [if_neg (Ne.symm hscreen), hs] at hsize
        exact ⟨s, hsize, hinside⟩

/-- **When adopting a size keeps the cursor on the screen.**  In every run of calls on a new machine
    with any layout: each size of at least 1x1 that is adopted while a remote screen is active
    leaves the cursor on that screen, and a relative motion after it crosses only an edge that it
    carries the cursor past, if and only if each time, when the size is the active screen's, the
    cursor lies within it, and when it is another's, the active screen has at least 1x1 pixels. -/
theorem adopts_iff (layout : ScreenLayout) (home : String) (ops : List SessionOp) :
    Mealy.EveryStep reconfigure (new layout home) ops (fun _ m op => m.Adopts op) ↔
      Mealy.EveryStep reconfigure (new layout home) ops (fun _ m op => m.Fits op) := by
  have hnew : (new layout home).Hosted := fun hne => absurd rfl hne
  constructor
  · intro h
    apply Mealy.everyStep_of_last
    intro pre op hpre hbefore
    have hosted := hbefore.final reconfigure (P := fun _ m => m.Hosted) hnew
      fun _ _ _ hm hfits => hm.reconfigure hfits
    exact (adopts_iff_fits hosted op).mp (h pre op hpre)
  · intro h pre op hpre
    have hosted := h.invariant reconfigure (P := fun _ m => m.Hosted) hnew
      fun _ _ _ hm hfits => hm.reconfigure hfits
    exact (adopts_iff_fits (hosted pre op hpre) op).mpr (h pre op hpre)

/-- The cursor is at (1000, 400) on the client's screen when the client reports 800x600. -/
theorem shrunk_active :
    ¬Mealy.EveryStep reconfigure (new twoScreens "srv")
      [.op (.handle (.motionAbs 1919 540)), .op (.handle (.motionRel 1000 0)),
        .op (.setScreenSize "lap" 800 600)] fun _ m op => m.Adopts op := by
  intro h
  have hstep := h [.op (.handle (.motionAbs 1919 540)), .op (.handle (.motionRel 1000 0))]
    (.op (.setScreenSize "lap" 800 600)) (List.prefix_refl _)
  obtain ⟨s, hs, hin⟩ := (hstep (by decide) (by decide) (by decide)).inside
  obtain rfl : (⟨800, 600⟩ : ScreenSize) = s := Option.some.inj hs
  exact absurd hin (by decide)

end ServerMachine

end SelfKvm
