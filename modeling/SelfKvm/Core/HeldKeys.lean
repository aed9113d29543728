/-
  Keys and buttons held across a crossing.

  A press and its release are routed separately, each to the screen that is active at that moment.
  If the cursor crosses in between, the two go to different screens: the first client keeps the
  key down for ever, the second sees a release it never saw a press for.  Neither machine keeps
  track of what is held, although the key tables ask a receiver to.

  `fingers` is the bookkeeping the two machines do not do: the buttons pressed on the client screen
  the cursor is visiting, failing when that screen is left with one of them down, or when a
  button goes up there that was not pressed during the visit.  `held_keys_exact` says that this is
  the exact condition: every client's injections are well formed, in every interleaving, if and
  only if the bookkeeping never fails.
-/
import SelfKvm.Core.Agreement
import SelfKvm.Core.Discipline

namespace SelfKvm

open ServerMachine ClientMachine Fifo

/-! ## Presses and releases -/

/-- A physical key or a mouse button. -/
inductive Btn where
  | key (b : KeyButton)
  | mouse (b : Int8)
  deriving DecidableEq, Repr

/-- The button a command presses or releases, and which of the two. -/
def InputCommand.touch : InputCommand → Option (Btn × Bool)
  | .mouseButton b pressed => some (.mouse b, pressed)
  | .key _ _ b .down => some (.key b, true)
  | .key _ _ b .up => some (.key b, false)
  | _ => none

/-- The same for an event. -/
def LocalEvent.touch (ev : LocalEvent) : Option (Btn × Bool) :=
  match commandOf ev with
  | [cmd] => cmd.touch
  | _ => none

/-- The buttons down after a press or a release; a release needs a press. -/
def touchDown (down : List Btn) : Option (Btn × Bool) → Option (List Btn)
  | some (b, true) => some (b :: down)
  | some (b, false) => if b ∈ down then some (down.filter (· ≠ b)) else none
  | none => some down

/-- One action of a client: what it injects touches buttons, and none may be down when the cursor
    has left. -/
def touchStep (down : List Btn) : ClientAction → Option (List Btn)
  | .inject cmd => touchDown down cmd.touch
  | .left => if down = [] then some [] else none
  | _ => some down

/-- No phantom release and no stuck button in what a client has done. -/
def Clean (log : List ClientAction) : Prop := (log.foldlM touchStep []).isSome

/-- The events are physically possible: a button is released only when it is down, and pressed only
    when it is up. -/
def physicalStep (down : List Btn) : UserInput → Option (List Btn)
  | .event ev =>
    match ev.touch with
    | some (b, true) => if b ∈ down then none else some (b :: down)
    | touch => touchDown down touch
  | _ => some down

def Physical (is : List UserInput) : Prop := (is.foldlM physicalStep []).isSome

/-! ## The condition -/

/-- The event carries the cursor over an edge. -/
def ServerMachine.crosses (m : ServerMachine) (ev : LocalEvent) : Bool :=
  ((m.moved ev).bind crossing).isSome

/-- The buttons pressed on the client screen during the present visit, after one more input. -/
def ServerMachine.fingers (m : ServerMachine) (held : List Btn) : UserInput → Option (List Btn)
  | .event ev =>
    if m.isRemote then
      if m.crosses ev then
        -- the screen is left: nothing may be down there
        if held = [] then some [] else none
      else
        touchDown held ev.touch
    else
      some []
  | _ => some held

/-- The bookkeeping along a run; `none` once it has failed. -/
def visitHeld (m : ServerMachine) (held : List Btn) : List UserInput → Option (List Btn)
  | [] => some held
  | i :: is => do
    let held ← m.fingers held i
    visitHeld (m.onInput i).1 held is

theorem visitHeld_concat (m : ServerMachine) (held : List Btn) (is : List UserInput)
    (i : UserInput) :
    visitHeld m held (is ++ [i]) =
      (visitHeld m held is).bind fun held => (Mealy.run onInput m is).1.fingers held i := by
  induction is generalizing m held with
  | nil => simp [visitHeld]
  | cons j is ih =>
    rw [List.cons_append, visitHeld, visitHeld, Mealy.run_cons]
    cases m.fingers held j with
    | none => rfl
    | some held' => exact ih _ held'

/-! ## One input, seen by one client -/

theorem crosses_of_still {m : ServerMachine} {ev : LocalEvent} (h : m.moved ev = none) :
    m.crosses ev = false := by
  unfold crosses
  rw [h]
  rfl

theorem crosses_of_moved {m m₁ : ServerMachine} {ev : LocalEvent} (h : m.moved ev = some m₁) :
    m.crosses ev = m₁.crossing.isSome := by
  unfold crosses
  rw [h]
  rfl

/-- A motion touches no button. -/
theorem touch_of_moved {m m₁ : ServerMachine} {ev : LocalEvent} (h : m.moved ev = some m₁) :
    ev.touch = none := by
  cases ev with
  | motionAbs x y => rfl
  | motionRel dx dy => rfl
  | _ => cases h

theorem foldlM_move (c : ClientMachine) (down : List Btn) (x y : Int32) :
    (c.injectIfActive (.mouseMoveAbs x y)).foldlM touchStep down = some down := by
  unfold injectIfActive
  by_cases h : c.entered && (c.acked || !true)
  · rw [if_pos h]
    rfl
  · rw [if_neg h]
    rfl

/-- Injecting what an event stands for touches the event's button. -/
theorem foldlM_commandOf (ev : LocalEvent) (down : List Btn) :
    ((commandOf ev).map ClientAction.inject).foldlM touchStep down = touchDown down ev.touch := by
  cases ev with
  | motionAbs x y => rfl
  | motionRel dx dy => rfl
  | button b pressed => simp [commandOf, touchStep, LocalEvent.touch]
  | key id mask b action => simp [commandOf, touchStep, LocalEvent.touch]
  | wheel x y => rfl

/-- A screen may be left only with nothing held down. -/
theorem foldlM_left (held : List Btn) {acts : List ClientAction}
    (hacts : acts.foldlM touchStep [] = some []) :
    (.left :: acts).foldlM touchStep held = if held = [] then some [] else none := by
  by_cases hheld : held = []
  · rw [if_pos hheld, hheld]
    exact hacts
  · rw [if_neg hheld]
    simp [touchStep, hheld]

/-- What the client of `s` makes of one input: it is entered exactly on its screen, and its buttons
    follow the bookkeeping while the cursor is there. -/
structure Hears (s : String) (m : ServerMachine) (held : List Btn) (i : UserInput)
    (r : ClientMachine × List ClientAction) : Prop where
  entered : r.1.entered = true ↔ (m.onInput i).1.active = s
  touched : r.2.foldlM touchStep (if m.active = s then held else []) =
    if m.active = s then m.fingers held i else some []

section OneClient

variable {home s : String} (hs : s ≠ home)
include hs

/-- A motion, seen by the client of `s`. -/
theorem ServerMachine.MotionOutcome.hears {m m' : ServerMachine} {acts : List ServerAction}
    {c : ClientMachine} (held : List Btn) (hhome : m.localScreen = home)
    (hentered : c.entered = true ↔ m.active = s) (h : MotionOutcome m m' acts) :
    ((Mealy.run ClientMachine.handle c (addressed post s acts)).1.entered = true ↔
      m'.active = s) ∧
    (Mealy.run ClientMachine.handle c (addressed post s acts)).2.foldlM touchStep
        (if m.active = s then held else []) =
      if m.active = s then
        if m.crossing.isSome then (if held = [] then some [] else none) else some held
      else some [] := by
  have hremote : m.active = s → m.active ≠ m.localScreen := by
    rintro rfl
    rw [hhome]
    exact hs
  cases h with
  | stay hc hr =>
    have hne : m.active ≠ s := by
      rw [hr, hhome]
      exact hs.symm
    rw [if_neg hne, if_neg hne]
    exact ⟨hentered, rfl⟩
  | move hc hr =>
    rw [addressed_send]
    by_cases hact : m.active = s
    · rw [if_pos hact, if_pos hact, if_pos hact, hc, Mealy.run_singleton]
      exact ⟨hentered, foldlM_move c held _ _⟩
    · rw [if_neg hact, if_neg hact, if_neg hact]
      exact ⟨hentered, rfl⟩
  | home c' hc ht =>
    have hne : (m.returned c').active ≠ s := by
      show m.localScreen ≠ s
      rw [hhome]
      exact hs.symm
    rw [addressed_append, addressed_leaving]
    by_cases hact : m.active = s
    · rw [if_pos ⟨hremote hact, hact⟩, if_pos hact, if_pos hact, hc]
      exact ⟨⟨(fun h => by cases h), fun h => absurd h hne⟩, foldlM_left held rfl⟩
    · rw [if_neg fun h => hact h.2, if_neg hact, if_neg hact]
      exact ⟨⟨fun h => absurd (hentered.mp h) hact, fun h => absurd h hne⟩, rfl⟩
  | enter c' hc ht =>
    rw [addressed_append, addressed_append, addressed_leaving, addressed_grabbing, addressed_enter,
      List.nil_append]
    by_cases hact : m.active = s
    · rw [if_pos ⟨hremote hact, hact⟩, if_pos hact, if_pos hact, hc]
      by_cases htarget : c'.target = s
      · rw [if_pos htarget]
        exact ⟨⟨fun _ => htarget, fun _ => rfl⟩, foldlM_left held rfl⟩
      · rw [if_neg htarget]
        exact ⟨⟨(fun h => by cases h), fun h => absurd h htarget⟩, foldlM_left held rfl⟩
    · rw [if_neg fun h => hact h.2, if_neg hact, if_neg hact]
      by_cases htarget : c'.target = s
      · rw [if_pos htarget]
        exact ⟨⟨fun _ => htarget, fun _ => rfl⟩, rfl⟩
      · rw [if_neg htarget]
        exact ⟨⟨fun h => absurd (hentered.mp h) hact, fun h => absurd h htarget⟩, rfl⟩

/-- **One input, seen by the client of `s`.** -/
theorem hears_step {m : ServerMachine} {c : ClientMachine} (held : List Btn)
    (hhome : m.localScreen = home) (hentered : c.entered = true ↔ m.active = s) (i : UserInput) :
    Hears s m held i (Mealy.run ClientMachine.handle c (addressed post s (m.onInput i).2)) := by
  have hquiet : ∀ m' : ServerMachine, m'.active = m.active → (c.entered = true ↔ m'.active = s) := by
    intro m' h
    rw [h]
    exact hentered
  have hremote : m.active = s → m.isRemote = true := by
    rintro rfl
    rw [isRemote_iff, hhome]
    exact hs
  cases i with
  | setLock locked =>
    refine ⟨hquiet _ rfl, ?_⟩
    show some (if m.active = s then held else []) = _
    split <;> rfl
  | toggleLock =>
    refine ⟨hquiet _ rfl, ?_⟩
    show some (if m.active = s then held else []) = _
    split <;> rfl
  | event ev =>
    have hfingers : (if m.active = s then m.fingers held (.event ev) else some []) =
        if m.active = s then
          if m.crosses ev then (if held = [] then some [] else none) else touchDown held ev.touch
        else some [] := by
      by_cases hact : m.active = s
      · rw [if_pos hact, if_pos hact]
        unfold fingers
        rw [hremote hact]
        rfl
      · rw [if_neg hact, if_neg hact]
    suffices hsuff : ((Mealy.run ClientMachine.handle c (addressed post s (m.handle ev).2)).1.entered
          = true ↔ (m.handle ev).1.active = s) ∧
        (Mealy.run ClientMachine.handle c (addressed post s (m.handle ev).2)).2.foldlM touchStep
          (if m.active = s then held else []) = if m.active = s then
          if m.crosses ev then (if held = [] then some [] else none) else touchDown held ev.touch
        else some [] from ⟨hsuff.1, hsuff.2.trans hfingers.symm⟩
    generalize hm' : (m.handle ev).1 = m', hacts : (m.handle ev).2 = acts
    have hout := handle_outcome m ev
    rw [hm', hacts] at hout
    cases hout with
    | motion m₁ _ _ hm ho =>
      rw [crosses_of_moved hm, touch_of_moved hm]
      obtain ⟨p, rfl, -⟩ := moved_eq_some hm
      exact MotionOutcome.hears (m := m.withCursor p) hs held hhome hentered ho
    | forward msg hr hf =>
      rw [addressed_send, crosses_of_still (moved_of_forwarded hf)]
      by_cases hact : m.active = s
      · rw [if_pos hact, if_pos hact, if_pos hact, Mealy.run_singleton,
          handle_forwarded (hentered.mpr hact) hf]
        refine ⟨hquiet _ (by simp), ?_⟩
        exact foldlM_commandOf ev held
      · rw [if_neg hact, if_neg hact, if_neg hact]
        exact ⟨hquiet _ (by simp), rfl⟩
    | ignore hm hf =>
      refine ⟨hquiet _ (by simp), ?_⟩
      by_cases hact : m.active = s
      · have htouch : ev.touch = none := by
          rcases hf with hf | hf
          · exact absurd (hact.symm.trans (hf.trans hhome)) hs
          · unfold LocalEvent.touch
            rw [commandOf_of_not_forwarded hf]
        rw [if_pos hact, if_pos hact, crosses_of_still hm, htouch]
        rfl
      · rw [if_neg hact, if_neg hact]
        rfl

end OneClient

/-! ## Whole runs -/

/-- What the client of `s` has done once it has heard everything. -/
def heard (layout : ScreenLayout) (home s : String) (size : ScreenSize) (is : List UserInput) :
    ClientMachine × List ClientAction :=
  Mealy.run ClientMachine.handle (acknowledged s size)
    (addressed post s (Mealy.run onInput (ServerMachine.new layout home) is).2)

theorem heard_concat (layout : ScreenLayout) (home s : String) (size : ScreenSize)
    (is : List UserInput) (i : UserInput) :
    heard layout home s size (is ++ [i]) =
      let m := (Mealy.run onInput (ServerMachine.new layout home) is).1
      let r := Mealy.run ClientMachine.handle (heard layout home s size is).1
        (addressed post s (m.onInput i).2)
      (r.1, (heard layout home s size is).2 ++ r.2) := by
  unfold heard
  rw [Mealy.run_concat, addressed_append, Mealy.run_append]

/-- Home stays home, and nothing is said to the server's own screen. -/
theorem run_home (layout : ScreenLayout) (home : String) (is : List UserInput) :
    (Mealy.run onInput (ServerMachine.new layout home) is).1.localScreen = home ∧
      addressed post home (Mealy.run onInput (ServerMachine.new layout home) is).2 = [] := by
  apply Mealy.run_induction onInput
    (P := fun _ m outs => m.localScreen = home ∧ addressed post home outs = [])
  · exact ⟨rfl, rfl⟩
  · rintro _ m outs i ⟨hhome, houts⟩
    have hs := step_settles m i.op
    refine ⟨hs.localScreen.trans hhome, ?_⟩
    rw [addressed_append, houts, List.nil_append]
    apply List.filterMap_eq_nil_iff.mpr
    intro act hact
    cases act with
    | send screen msg =>
      have hne : screen ≠ home := hhome ▸ hs.remote screen msg hact
      show (if screen = home then some msg else none) = none
      exact if_neg hne
    | _ => rfl

/-- A client is entered exactly while the cursor is on its screen. -/
theorem heard_entered (layout : ScreenLayout) {home s : String} (hs : s ≠ home) (size : ScreenSize)
    (is : List UserInput) :
    (heard layout home s size is).1.entered = true ↔
      (Mealy.run onInput (ServerMachine.new layout home) is).1.active = s := by
  induction is using List.reverseRecOn with
  | nil => exact ⟨(fun h => by cases h), fun h => absurd h hs.symm⟩
  | append_singleton is i ih =>
    obtain ⟨hhome, -⟩ := run_home layout home is
    rw [heard_concat, Mealy.run_concat]
    exact (hears_step hs [] hhome ih i).entered

/-- Where the cursor changes screens, nothing is held afterwards. -/
theorem fingers_changed {m : ServerMachine} {held held' : List Btn} {i : UserInput}
    (h : m.fingers held i = some held') (hne : (m.onInput i).1.active ≠ m.active) : held' = [] := by
  cases i with
  | setLock locked => exact absurd rfl hne
  | toggleLock => exact absurd rfl hne
  | event ev =>
    have hcrosses : m.crosses ev = true := by
      have hne' : (m.handle ev).1.active ≠ m.active := hne
      have hout := handle_outcome m ev
      generalize (m.handle ev).1 = m', (m.handle ev).2 = acts at hne' hout
      cases hout with
      | motion m₁ _ _ hm ho =>
        rw [crosses_of_moved hm]
        obtain ⟨p, rfl, -⟩ := moved_eq_some hm
        cases ho with
        | stay hc hr => exact absurd rfl hne'
        | move hc hr => exact absurd rfl hne'
        | home c hc ht => rw [hc]; rfl
        | enter c hc ht => rw [hc]; rfl
      | forward msg hr hf => exact absurd (trackModifiers_active ev) hne'
      | ignore hm hf => exact absurd (trackModifiers_active ev) hne'
    have h : (if m.isRemote = true then
        if m.crosses ev = true then (if held = [] then some [] else none)
        else touchDown held ev.touch else some []) = some held' := h
    rw [if_pos hcrosses] at h
    by_cases hr : m.isRemote
    · simp only [hr, if_true] at h
      by_cases hheld : held = []
      · rw [if_pos hheld] at h
        injection h with h
        exact h.symm
      · rw [if_neg hheld] at h
        cases h
    · simp only [hr, Bool.false_eq_true, if_false] at h
      injection h with h
      exact h.symm

/-- When the bookkeeping has failed, some client has done wrong; while it has not, every client has
    exactly the visiting buttons down. -/
theorem heard_touch (layout : ScreenLayout) (home : String) (sizes : String → ScreenSize)
    (is : List UserInput) :
    match visitHeld (ServerMachine.new layout home) [] is with
    | some held => ∀ s, s ≠ home →
        (heard layout home s (sizes s) is).2.foldlM touchStep [] =
          some (if (Mealy.run onInput (ServerMachine.new layout home) is).1.active = s then held
            else [])
    | none => ∃ s, s ≠ home ∧ (heard layout home s (sizes s) is).2.foldlM touchStep [] = none := by
  induction is using List.reverseRecOn with
  | nil =>
    intro s hs
    show some [] = some (if home = s then [] else [])
    rw [if_neg hs.symm]
  | append_singleton is i ih =>
    obtain ⟨hhome, -⟩ := run_home layout home is
    rw [visitHeld_concat, Mealy.run_concat]
    cases hheld : visitHeld (ServerMachine.new layout home) [] is with
    | none =>
      -- what went wrong is not undone
      rw [hheld] at ih
      obtain ⟨s, hs, hfail⟩ := ih
      refine ⟨s, hs, ?_⟩
      rw [heard_concat, List.foldlM_append, hfail]
      rfl
    | some held =>
      rw [hheld] at ih
      generalize hm : (Mealy.run onInput (ServerMachine.new layout home) is).1 = m at ih hhome
      have hstep : ∀ s, s ≠ home →
          (heard layout home s (sizes s) (is ++ [i])).2.foldlM touchStep [] =
            if m.active = s then m.fingers held i else some [] := by
        intro s hs
        have hentered := heard_entered layout hs (sizes s) is
        rw [hm] at hentered
        have hhears := (hears_step hs held hhome hentered i).touched
        rw [heard_concat, List.foldlM_append, ih s hs, hm]
        exact hhears
      show match m.fingers held i with
        | some held' => ∀ s, s ≠ home → _ = some (if (m.onInput i).1.active = s then held' else [])
        | none => _
      cases hfingers : m.fingers held i with
      | none =>
        have hr : m.active ≠ home := by
          intro hlocal
          have hlocal' : m.isRemote = false := not_isRemote_iff.mpr (hlocal.trans hhome.symm)
          cases i <;> simp [fingers, hlocal'] at hfingers
        refine ⟨m.active, hr, ?_⟩
        rw [hstep _ hr, if_pos rfl, hfingers]
      | some held' =>
        intro s hs
        rw [hstep s hs]
        have hchanged := fingers_changed hfingers
        by_cases hact : m.active = s
        · rw [if_pos hact, hfingers]
          by_cases hact' : (m.onInput i).1.active = s
          · rw [if_pos hact']
          · rw [if_neg hact', hchanged fun h => hact' (h.trans hact)]
        · rw [if_neg hact]
          by_cases hact' : (m.onInput i).1.active = s
          · rw [if_pos hact', hchanged fun h => hact (h.symm.trans hact')]
          · rw [if_neg hact']

/-- **Exactly when no key gets stuck.**  For any layout and any user inputs: whatever the clients do,
    in every interleaving and at every moment of it, no client ever injects a release without its
    press or keeps a button down after `Leave` — if and only if the bookkeeping does not fail, that
    is, every button pressed on a client screen goes up before that screen is left, and every
    button that goes up on a client screen was pressed during the same visit. -/
theorem held_keys_exact (layout : ScreenLayout) (home : String) (sizes : String → ScreenSize)
    (is : List UserInput) :
    (∀ es, inputs es = is → ∀ s, Clean ((session layout home sizes es).log s)) ↔
      (visitHeld (ServerMachine.new layout home) [] is).isSome = true := by
  have htouch := heard_touch layout home sizes is
  constructor
  · intro hclean
    cases hheld : visitHeld (ServerMachine.new layout home) [] is with
    | some held => rfl
    | none =>
      rw [hheld] at htouch
      obtain ⟨s, hs, hfail⟩ := htouch
      -- let the wronged client hear everything
      obtain ⟨es, hes, hdrained⟩ := exists_drained onInput post ClientMachine.handle
        (ServerMachine.new layout home) (fun s => acknowledged s (sizes s)) is s
      have hlog := system_drained onInput post ClientMachine.handle
        (ServerMachine.new layout home) (fun s => acknowledged s (sizes s)) es hdrained
      have hlog : (session layout home sizes es).log s = (heard layout home s (sizes s) is).2 := by
        rw [hes] at hlog
        exact congrArg Prod.snd hlog
      have hs := hclean es hes s
      unfold Clean at hs
      rw [hlog, hfail] at hs
      cases hs
  · intro hheld es hes s
    cases hvisit : visitHeld (ServerMachine.new layout home) [] is with
    | none =>
      rw [hvisit] at hheld
      cases hheld
    | some held =>
      rw [hvisit] at htouch
      obtain ⟨-, hchannels⟩ := system_split onInput post ClientMachine.handle
        (ServerMachine.new layout home) (fun s => acknowledged s (sizes s)) es
      obtain ⟨taken, hsaid, hheard⟩ := hchannels s
      rw [hes] at hsaid
      have hlog : (session layout home sizes es).log s =
          (Mealy.run ClientMachine.handle (acknowledged s (sizes s)) taken).2 :=
        congrArg Prod.snd hheard
      unfold Clean
      rw [hlog]
      by_cases hs : s = home
      · -- the server's own screen is told nothing
        subst hs
        rw [(run_home layout s is).2] at hsaid
        obtain ⟨rfl, -⟩ := List.append_eq_nil_iff.mp hsaid.symm
        rfl
      · -- what has been heard so far is a prefix of what will be heard
        have hall := htouch s hs
        unfold heard at hall
        rw [hsaid, Mealy.run_append, List.foldlM_append] at hall
        cases hearlier : (Mealy.run ClientMachine.handle (acknowledged s (sizes s)) taken).2.foldlM
            touchStep [] with
        | none =>
          rw [hearlier] at hall
          cases hall
        | some down => rfl

/-- A key is pressed on the laptop's screen and released back home: the laptop keeps it down. -/
theorem key_held_across_crossing :
    ¬ ∀ (layout : ScreenLayout) (home : String) (sizes : String → ScreenSize)
      (es : List (Event String UserInput)), Physical (inputs es) →
      ∀ s, Clean ((session layout home sizes es).log s) := by
  intro hall
  have hclean := hall twoScreens "srv" (fun _ => ⟨1280, 800⟩)
    [.input (.event (.motionAbs 1919 540)), .input (.event (.key 97 0 30 .down)),
      .input (.event (.motionRel (-100) 0)), .input (.event (.key 97 0 30 .up)),
      .deliver "lap", .deliver "lap", .deliver "lap"] (by unfold Physical; decide) "lap"
  revert hclean
  unfold Clean
  decide

end SelfKvm
