/-
  The server brain's discipline: grab, active screen, enter and leave, over whole runs.

  Five kinds of call and three shapes of crossing each emit their own list of actions; a user whose
  keyboard stays grabbed, or a client that is entered twice, would be the result of one action too
  few in one of them.  The proof has the usual two layers.  `Settles` says what a single call does
  to the quantities in question — the last grab, the last announced screen, the sequence number,
  the open visit — and `step_settles` proves it from the list of outcomes in
  `SelfKvm.Core.Server`.  `enter_leave_discipline` is the induction over the run.

  A visit is a client screen's time between `Enter` and `Leave`; `visitStep` is the automaton
  that watches it, and `goHome` closes a visit without a word to the client.
-/
import SelfKvm.Core.Server
import SelfKvm.Base.Mealy

namespace SelfKvm

/-! ## Watching the actions -/

/-- The last `SetGrab` wins. -/
def grabStep (g : Bool) : ServerAction → Bool
  | .setGrab on => on
  | _ => g

/-- The last `ActiveChanged` wins. -/
def activeStep (s : String) : ServerAction → String
  | .activeChanged screen => screen
  | _ => s

/-- The sequence number of an `Enter`. -/
def enterSeq : ServerAction → Option UInt32
  | .send _ (.enter _ _ seq _) => some seq
  | _ => none

/-- The open visit after an action; nothing when the action breaks the discipline. -/
def visitStep (visit : Option String) : ServerAction → Option (Option String)
  | .send screen (.enter ..) => if visit = none then some (some screen) else none
  | .send screen .leave => if visit = some screen then some none else none
  | _ => some visit

/-- What a run shows: each call with the actions it returned. -/
abbrev Trace : Type := List (ServerOp × List ServerAction)

namespace Trace

def actions (t : Trace) : List ServerAction := t.flatMap (·.2)

/-- The last grab asked for; there is none at the start. -/
def grab (t : Trace) : Bool := t.actions.foldl grabStep false

/-- The last screen announced, `home` at the start. -/
def active (home : String) (t : Trace) : String := t.actions.foldl activeStep home

/-- The sequence numbers of all `Enter`s in order. -/
def seqs (t : Trace) : List UInt32 := t.actions.filterMap enterSeq

/-- The visits of the run: every `Enter` opens one when none is open, every `Leave` closes the one
    that is open, and so does a call of `goHome`. -/
def visits (t : Trace) : Option (Option String) :=
  t.foldlM (fun visit (op, acts) =>
    acts.foldlM visitStep (if op = .goHome then none else visit)) none

end Trace

namespace ServerMachine

/-- One call with its actions noted. -/
def traced (m : ServerMachine) (op : ServerOp) : ServerMachine × Trace :=
  ((m.step op).1, [(op, (m.step op).2)])

/-- The visit that should be open. -/
def visit (m : ServerMachine) : Option String := if m.isRemote then some m.active else none

/-! ## One call -/

/-- What one call does to everything that is watched. -/
structure Settles (m : ServerMachine) (op : ServerOp) (m' : ServerMachine)
    (acts : List ServerAction) : Prop where
  localScreen : m'.localScreen = m.localScreen
  grab : acts.foldl grabStep m.isRemote = m'.isRemote
  active : acts.foldl activeStep m.active = m'.active
  known : m'.active = m.localScreen ∨ m'.active = m.active ∨ m'.layout.contains m'.active
  keys : ∀ screen, m'.layout.contains screen = m.layout.contains screen
  remote : ∀ screen msg, .send screen msg ∈ acts → screen ≠ m.localScreen
  input : ∀ screen msg, .send screen msg ∈ acts → msg.isInput = true →
    screen = m.active ∧ screen = m'.active
  seqs : acts.filterMap enterSeq = [] ∧ m'.seq = m.seq ∨
    acts.filterMap enterSeq = [m.seq + 1] ∧ m'.seq = m.seq + 1
  visits : acts.foldlM visitStep (if op = .goHome then none else m.visit) = some m'.visit

theorem visit_local {m : ServerMachine} (h : m.active = m.localScreen) : m.visit = none := by
  unfold visit
  rw [not_isRemote_iff.mpr h]
  rfl

theorem visit_remote {m : ServerMachine} (h : m.active ≠ m.localScreen) :
    m.visit = some m.active := by
  unfold visit
  rw [isRemote_iff.mpr h]
  rfl

/-- A call that changes nothing that is watched. -/
theorem settles_quiet {m m' : ServerMachine} {op : ServerOp} (hop : op ≠ .goHome)
    (hlocal : m'.localScreen = m.localScreen) (hactive : m'.active = m.active)
    (hseq : m'.seq = m.seq) (hkeys : ∀ screen, m'.layout.contains screen = m.layout.contains screen) :
    Settles m op m' [] where
  localScreen := hlocal
  grab := by simp [isRemote, hactive, hlocal]
  active := hactive.symm
  known := .inr (.inl hactive)
  keys := hkeys
  remote := fun _ _ h => by cases h
  input := fun _ _ h => by cases h
  seqs := .inl ⟨rfl, hseq⟩
  visits := by simp [hop, visit, isRemote, hactive, hlocal]

/-- Input that is forwarded to the active client changes nothing either. -/
theorem settles_input {m m' : ServerMachine} {op : ServerOp} {msg : Message} (hop : op ≠ .goHome)
    (hr : m.active ≠ m.localScreen) (hmsg : msg.isInput = true)
    (hlocal : m'.localScreen = m.localScreen) (hactive : m'.active = m.active)
    (hseq : m'.seq = m.seq) (hlayout : m'.layout = m.layout) :
    Settles m op m' [.send m.active msg] where
  localScreen := hlocal
  grab := by simp [grabStep, isRemote, hactive, hlocal]
  active := by simp [activeStep, hactive]
  known := .inr (.inl hactive)
  keys := fun _ => by rw [hlayout]
  remote := by
    intro screen msg' h
    obtain ⟨rfl, -⟩ : screen = m.active ∧ msg' = msg := by simpa using h
    exact hr
  input := by
    intro screen msg' h _
    obtain ⟨rfl, -⟩ : screen = m.active ∧ msg' = msg := by simpa using h
    exact ⟨rfl, hactive.symm⟩
  seqs := .inl ⟨(by cases msg <;> first | rfl | cases hmsg), hseq⟩
  visits := by
    have hstep : visitStep m.visit (.send m.active msg) = some m.visit := by
      cases msg <;> first | rfl | cases hmsg
    have hvisit : m'.visit = m.visit := by simp [visit, isRemote, hactive, hlocal]
    simp [hop, hstep, hvisit]

theorem crossing_known {m : ServerMachine} {c : Crossing} (h : m.crossing = some c) :
    m.layout.contains c.target = true := by
  unfold crossing at h
  by_cases hl : m.switchLocked
  · simp [hl] at h
  · simp only [hl, Bool.false_eq_true, if_false] at h
    obtain ⟨-, target, -, -, -, htarget, -⟩ := ScreenLayout.detectCrossing_eq_some.mp h
    unfold ScreenLayout.contains
    rw [htarget]
    rfl

/-- **Every outcome of a motion keeps the discipline.** -/
theorem MotionOutcome.settles {m m' : ServerMachine} {acts : List ServerAction} {op : ServerOp}
    (hop : op ≠ .goHome) (h : MotionOutcome m m' acts) : Settles m op m' acts := by
  cases h with
  | stay hc hr => exact settles_quiet hop rfl rfl rfl fun _ => rfl
  | move hc hr => exact settles_input hop hr rfl rfl rfl rfl rfl
  | home c hc ht =>
    have hback : (m.returned c).isRemote = false := not_isRemote_iff.mpr rfl
    have hvisit : (m.returned c).visit = none := visit_local rfl
    rcases m.leaving_cases with ⟨hr, hleave⟩ | ⟨hr, hleave⟩
    · rw [hleave]
      refine ⟨rfl, hback.symm, rfl, .inl rfl, fun _ => rfl, ?_, ?_, .inl ⟨rfl, rfl⟩, ?_⟩
      · intro screen msg hmem
        simp at hmem
      · intro screen msg hmem
        simp at hmem
      · rw [if_neg hop, visit_local hr, hvisit]
        rfl
    · rw [hleave]
      refine ⟨rfl, hback.symm, rfl, .inl rfl, fun _ => rfl, ?_, ?_, .inl ⟨rfl, rfl⟩, ?_⟩
      · intro screen msg hmem
        obtain ⟨rfl, -⟩ : screen = m.active ∧ msg = .leave := by simpa using hmem
        exact hr
      · intro screen msg hmem hin
        obtain ⟨-, rfl⟩ : screen = m.active ∧ msg = .leave := by simpa using hmem
        cases hin
      · rw [if_neg hop, visit_remote hr, hvisit]
        simp [visitStep]
  | enter c hc ht =>
    have haway : (m.entered c).isRemote = true := isRemote_iff.mpr ht
    have hvisit : (m.entered c).visit = some c.target := visit_remote ht
    have hknown : m.layout.contains c.target = true := crossing_known hc
    rcases m.leaving_cases with ⟨hr, hleave⟩ | ⟨hr, hleave⟩
    · rw [hleave, grabbing_local hr]
      refine ⟨rfl, haway.symm, rfl, .inr (.inr hknown), fun _ => rfl, ?_, ?_, .inr ⟨rfl, rfl⟩, ?_⟩
      · intro screen msg hmem
        obtain ⟨rfl, -⟩ : screen = c.target ∧ msg = m.enterMsg c := by simpa using hmem
        exact ht
      · intro screen msg hmem hin
        obtain ⟨-, rfl⟩ : screen = c.target ∧ msg = m.enterMsg c := by simpa using hmem
        cases hin
      · rw [if_neg hop, visit_local hr, hvisit]
        rfl
    · rw [hleave, grabbing_remote hr]
      refine ⟨rfl, ?_, rfl, .inr (.inr hknown), fun _ => rfl, ?_, ?_, .inr ⟨rfl, rfl⟩, ?_⟩
      · rw [isRemote_iff.mpr hr, haway]
        rfl
      · intro screen msg hmem
        obtain ⟨rfl, -⟩ | ⟨rfl, -⟩ :
            screen = m.active ∧ msg = .leave ∨ screen = c.target ∧ msg = m.enterMsg c := by
          simpa using hmem
        · exact hr
        · exact ht
      · intro screen msg hmem hin
        obtain ⟨-, rfl⟩ | ⟨-, rfl⟩ :
            screen = m.active ∧ msg = .leave ∨ screen = c.target ∧ msg = m.enterMsg c := by
          simpa using hmem
        · cases hin
        · cases hin
      · rw [if_neg hop, visit_remote hr, hvisit]
        simp [visitStep, enterMsg]

/-- **Every call keeps the discipline.** -/
theorem step_settles (m : ServerMachine) (op : ServerOp) :
    Settles m op (m.step op).1 (m.step op).2 := by
  cases op with
  | handle ev =>
    have hop : ServerOp.handle ev ≠ .goHome := fun h => by cases h
    show Settles m (.handle ev) (m.handle ev).1 (m.handle ev).2
    generalize hm' : (m.handle ev).1 = m', hacts : (m.handle ev).2 = acts
    have hout := handle_outcome m ev
    rw [hm', hacts] at hout
    cases hout with
    | motion m₁ _ _ hm ho =>
      obtain ⟨p, rfl, -⟩ := moved_eq_some hm
      obtain ⟨h1, h2, h3, h4, h5, h6, h7, h8, h9⟩ := ho.settles hop
      exact ⟨h1, h2, h3, h4, h5, h6, h7, h8, h9⟩
    | forward msg hr hf =>
      exact settles_input hop hr (forwarded_isInput hf) (trackModifiers_localScreen ev)
        (trackModifiers_active ev) (trackModifiers_seq ev) (trackModifiers_layout ev)
    | ignore hm hf =>
      exact settles_quiet hop (trackModifiers_localScreen ev) (trackModifiers_active ev)
        (trackModifiers_seq ev) fun screen => by rw [trackModifiers_layout]
  | setLock locked => exact settles_quiet (fun h => by cases h) rfl rfl rfl fun _ => rfl
  | toggleLock => exact settles_quiet (fun h => by cases h) rfl rfl rfl fun _ => rfl
  | setScreenSize screen w h =>
    exact settles_quiet (fun h => by cases h) rfl rfl rfl fun _ => ScreenLayout.contains_modify _ _ _
  | goHome =>
    show Settles m .goHome m.goHome.1 m.goHome.2
    by_cases hr : m.active = m.localScreen
    · rw [goHome_local hr]
      refine ⟨rfl, rfl, rfl, .inr (.inl rfl), fun _ => rfl, ?_, ?_, .inl ⟨rfl, rfl⟩, ?_⟩
      · intro screen msg hmem
        cases hmem
      · intro screen msg hmem
        cases hmem
      · rw [if_pos rfl, visit_local hr]
        rfl
    · rw [goHome_remote hr]
      refine ⟨rfl, ?_, rfl, .inl rfl, fun _ => rfl, ?_, ?_, .inl ⟨rfl, rfl⟩, ?_⟩
      · exact (not_isRemote_iff.mpr rfl).symm
      · intro screen msg hmem
        simp at hmem
      · intro screen msg hmem
        simp at hmem
      · rw [if_pos rfl, visit_local (by rfl)]
        rfl

/-! ## Whole runs -/

/-- Where a run has got to, seen from what it has shown. -/
structure Disciplined (home : String) (m : ServerMachine) (t : Trace) : Prop where
  localScreen : m.localScreen = home
  grab : t.grab = m.isRemote
  active : t.active home = m.active
  known : m.active = home ∨ m.layout.contains m.active = true
  remote : ∀ screen msg, .send screen msg ∈ t.actions → screen ≠ home
  seqs : t.seqs = (List.range t.seqs.length).map fun i => UInt32.ofNat (i + 1)
  seq : m.seq = UInt32.ofNat t.seqs.length
  visits : t.visits = some m.visit

/-- One more call keeps a disciplined run disciplined. -/
theorem Disciplined.step {home : String} {m : ServerMachine} {t : Trace}
    (h : Disciplined home m t) (op : ServerOp) :
    Disciplined home (m.traced op).1 (t ++ (m.traced op).2) := by
  have hs := step_settles m op
  have hacts : Trace.actions (t ++ (m.traced op).2) = t.actions ++ (m.step op).2 := by
    simp [Trace.actions, traced]
  -- one more `Enter` has the next number
  have hcount : (Trace.seqs (t ++ (m.traced op).2) =
      (List.range (Trace.seqs (t ++ (m.traced op).2)).length).map fun i => UInt32.ofNat (i + 1)) ∧
      (m.traced op).1.seq = UInt32.ofNat (Trace.seqs (t ++ (m.traced op).2)).length := by
    have hseqs : Trace.seqs (t ++ (m.traced op).2) = t.seqs ++ (m.step op).2.filterMap enterSeq := by
      unfold Trace.seqs
      rw [hacts, List.filterMap_append]
    rcases hs.seqs with ⟨hnone, hseq⟩ | ⟨hone, hseq⟩
    · rw [hseqs, hnone, List.append_nil]
      exact ⟨h.seqs, hseq.trans h.seq⟩
    · rw [hseqs, hone, List.length_append, List.length_singleton, UInt32.ofNat_add, ← h.seq]
      refine ⟨?_, hseq⟩
      rw [List.range_succ, List.map_append, ← h.seqs, h.seq, List.map_singleton, UInt32.ofNat_add]
      rfl
  refine ⟨hs.localScreen.trans h.localScreen, ?_, ?_, ?_, ?_, ?_, ?_, ?_⟩
  · have hgrab := h.grab
    unfold Trace.grab at hgrab ⊢
    rw [hacts, List.foldl_append, hgrab]
    exact hs.grab
  · have hactive := h.active
    unfold Trace.active at hactive ⊢
    rw [hacts, List.foldl_append, hactive]
    exact hs.active
  · rcases hs.known with hk | hk | hk
    · exact .inl (hk.trans h.localScreen)
    · rcases h.known with hk' | hk'
      · exact .inl (hk.trans hk')
      · right
        show (m.step op).1.layout.contains (m.step op).1.active = true
        rw [hk, hs.keys]
        exact hk'
    · exact .inr hk
  · intro screen msg hmem
    rw [hacts] at hmem
    rcases List.mem_append.mp hmem with hmem | hmem
    · exact h.remote screen msg hmem
    · rw [← h.localScreen]
      exact hs.remote screen msg hmem
  · exact hcount.1
  · exact hcount.2
  · have hvisits := h.visits
    unfold Trace.visits at hvisits ⊢
    rw [List.foldlM_append, hvisits]
    simp only [traced, Option.bind_eq_bind, Option.bind_some, List.foldlM_cons, List.foldlM_nil,
      hs.visits]
    rfl

/-- **Grab and enter/leave discipline.**  On a fresh machine with any layout, after any calls:

    the last grab asked for is `is_remote`; the active screen is home or in the layout, and it is
    the last one announced; whatever is sent goes to a remote screen, and input only to the screen
    that is active around the call that sends it; the `Enter`s are numbered 1, 2, 3, ... modulo
    `2^32`; and every `Enter` is closed by one `Leave` to the same screen, or by a `go_home`, before
    the next one — the visit still open is the active screen's. -/
theorem enter_leave_discipline (layout : ScreenLayout) (home : String) (ops : List ServerOp) :
    let m := (Mealy.run traced (new layout home) ops).1
    let t : Trace := (Mealy.run traced (new layout home) ops).2
    t.grab = m.isRemote ∧
    (m.active = home ∨ m.layout.contains m.active = true) ∧ m.active = t.active home ∧
    (∀ screen msg, .send screen msg ∈ t.actions → screen ≠ home) ∧
    (∀ op screen msg, .send screen msg ∈ (m.step op).2 → msg.isInput = true →
      screen = m.active ∧ screen = (m.step op).1.active) ∧
    (t.seqs = (List.range t.seqs.length).map fun i => UInt32.ofNat (i + 1)) ∧
    t.visits = some (if m.isRemote then some m.active else none) := by
  have hrun : Disciplined home (Mealy.run traced (new layout home) ops).1
      (Mealy.run traced (new layout home) ops).2 := by
    apply Mealy.run_induction traced (P := fun _ m t => Disciplined home m t)
    · have hlocal : (new layout home).active = (new layout home).localScreen := rfl
      refine ⟨rfl, (not_isRemote_iff.mpr hlocal).symm, rfl, .inl rfl, ?_, rfl, rfl, ?_⟩
      · intro screen msg hmem
        cases hmem
      · rw [visit_local hlocal]
        rfl
    · intro _ m t op h
      exact h.step op
  exact ⟨hrun.grab, hrun.known, hrun.active.symm, hrun.remote,
    fun op screen msg => (step_settles _ op).input screen msg, hrun.seqs, hrun.visits⟩

end ServerMachine

end SelfKvm
