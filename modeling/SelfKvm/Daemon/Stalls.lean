/-
  Those who wait (`kvm-daemon/src/server.rs`, `ServerRuntime::run`, `dispatch` and the writer of
  `handle_client`).

  Over the bounded channels of `Daemon.Backpressure` everybody but the capture waits until there is
  room.

  1. One writer that does not write stops it all.  `frozen`: once the controller waits for a client,
     it does nothing else until that client takes something; and if by then its own channel is full,
     not even the news that the client is gone gets through.
  2. Waiting is no deadlock: as long as the writers write, everything accepted is handled
     (`comes_to_rest`).
-/
import SelfKvm.Daemon.Backpressure

namespace SelfKvm.Flow

variable {size : Nat} {f : Flow size} {move : FlowMove}

/-! ## One client that does not read -/

/-- How many captured events still find a place while the controller stands still. -/
def slack (f : Flow size) : Nat :=
  f.sink.room + (if f.passing.isNone then 1 else 0) + f.ctl.room

/-- The controller waits for the queue of `tx`, as it did at `f₀`. -/
structure Frozen (tx : Sender) (f₀ f : Flow size) : Prop where
  controller : f.controller = f₀.controller
  owed : f.owed = f₀.owed
  grab : f.grab = f₀.grab
  queue : f.queue tx = f₀.queue tx
  isOpen : f.closed tx = false
  unparted : f.parted tx = false
  shut : f₀.ctl.room = 0 → f.ctl.room = 0

/-- What does not free the controller leaves it where it is. -/
theorem Frozen.step {tx : Sender} {msg : Message} {owed : List Effect} {f₀ : Flow size}
    (h : Frozen tx f₀ f) (howed : f₀.owed = .deliver tx msg :: owed)
    (hfull : (f₀.queue tx).room = 0) (hwrite : move ≠ .write tx) (hfail : move ≠ .fail tx)
    (hshut : f₀.ctl.room = 0 ∨ ∀ screen, move ≠ .report tx screen) :
    Frozen tx f₀ (f.step move).1 ∧
      (∀ out ∈ (f.step move).2, out.take = none ∧ out.carry = none) ∧
      ((f.step move).2.filterMap Flowed.accept).length + (f.step move).1.slack ≤ f.slack := by
  obtain ⟨hcontroller, howed', hgrab, hqueue, hopen, hunparted, hctl⟩ := h
  have hstep := step_cases f move
  generalize (f.step move).1 = f', (f.step move).2 = outs' at hstep ⊢
  have hnone : ∀ out ∈ ([] : List Flowed), out.take = none ∧ out.carry = none :=
    fun out hout => by cases hout
  cases hstep with
  | wait => exact ⟨⟨hcontroller, howed', hgrab, hqueue, hopen, hunparted, hctl⟩, hnone, by simp⟩
  | accept h =>
    refine ⟨⟨hcontroller, howed', hgrab, hqueue, hopen, hunparted, hctl⟩, by simp, ?_⟩
    have hroom := Channel.trySend_room h
    simp only [slack, List.filterMap_cons, Flowed.accept, List.filterMap_nil, List.length_singleton]
    omega
  | drop h =>
    exact ⟨⟨hcontroller, howed', hgrab, hqueue, hopen, hunparted, hctl⟩, by simp, by simp⟩
  | @next le sink hfree h =>
    refine ⟨⟨hcontroller, howed', hgrab, hqueue, hopen, hunparted, hctl⟩, hnone, ?_⟩
    have hwaiting := Channel.recv_waiting h
    have hfits := f.sink.fits
    rw [hwaiting, List.length_cons] at hfits
    simp only [slack, Channel.room, hwaiting, hfree, List.length_cons, Option.isNone_none,
      Option.isNone_some, if_true, Bool.false_eq_true, if_false, List.filterMap_nil,
      List.length_nil]
    omega
  | pass hle h =>
    refine ⟨⟨hcontroller, howed', hgrab, hqueue, hopen, hunparted, ?_⟩, hnone, ?_⟩
    · intro hzero
      have hroom := Channel.trySend_room h
      have hf := hctl hzero
      omega
    · have hroom := Channel.trySend_room h
      simp only [slack, hle, Option.isNone_none, Option.isNone_some, if_true, Bool.false_eq_true,
        if_false, List.filterMap_nil, List.length_nil]
      omega
  | post hev h =>
    have hroom := Channel.trySend_room h
    refine ⟨⟨hcontroller, howed', hgrab, hqueue, hopen, hunparted, ?_⟩, hnone, ?_⟩
    · intro hzero
      have hf := hctl hzero
      omega
    · simp only [slack, List.filterMap_nil, List.length_nil]
      omega
  | take hidle h =>
    rw [howed', howed] at hidle
    cases hidle
  | carry howed'' h =>
    -- the message it owes does not fit
    rw [howed', howed] at howed''
    obtain ⟨rfl, -⟩ := List.cons.inj howed''
    have hwaits : (f.queue tx).trySend msg = none := by
      rw [hqueue]
      exact Channel.trySend_eq_none.mpr hfull
    simp [perform, hopen, hwaits] at h
  | @write id msg' q hopen' h =>
    have hid : tx ≠ id := fun h => hwrite (h ▸ rfl)
    refine ⟨⟨hcontroller, howed', hgrab, ?_, hopen, hunparted, hctl⟩, by simp, by simp [slack]⟩
    rw [← hqueue]
    exact Function.update_of_ne hid _ _
  | fail id =>
    have hid : tx ≠ id := fun h => hfail (h ▸ rfl)
    refine ⟨⟨hcontroller, howed', hgrab, hqueue, ?_, hunparted, hctl⟩, hnone, by simp [slack]⟩
    rw [← hopen]
    exact Function.update_of_ne hid _ _
  | @report id screen ctl hnew h =>
    have hroom := Channel.trySend_room h
    have hid : tx ≠ id := by
      rintro rfl
      rcases hshut with hzero | hother
      · have hf := hctl hzero
        omega
      · exact hother screen rfl
    refine ⟨⟨hcontroller, howed', hgrab, hqueue, hopen, ?_, ?_⟩, hnone, ?_⟩
    · rw [← hunparted]
      exact Function.update_of_ne hid _ _
    · intro hzero
      have hf := hctl hzero
      omega
    · simp only [slack, List.filterMap_nil, List.length_nil]
      omega
  | @abort id hparted =>
    have hid : tx ≠ id := by
      rintro rfl
      rw [hunparted] at hparted
      cases hparted
    refine ⟨⟨hcontroller, howed', hgrab, hqueue, ?_, hunparted, hctl⟩, hnone, by simp [slack]⟩
    rw [← hopen]
    exact Function.update_of_ne hid _ _
  | tell h =>
    exact ⟨⟨hcontroller, howed', hgrab, hqueue, hopen, hunparted, hctl⟩, by simp, by simp [slack]⟩

/-- Its own steps lead from the one state to the other. -/
def Leads (f f' : Flow size) : Prop :=
  ∃ moves, (∀ move ∈ moves, move.inner = true) ∧ (Mealy.run step f moves).1 = f'

theorem Leads.refl (f : Flow size) : Leads f f := ⟨[], fun _ h => (by cases h), rfl⟩

theorem Leads.trans {f₁ f₂ f₃ : Flow size} (h₁ : Leads f₁ f₂) (h₂ : Leads f₂ f₃) : Leads f₁ f₃ := by
  obtain ⟨moves₁, hinner₁, rfl⟩ := h₁
  obtain ⟨moves₂, hinner₂, rfl⟩ := h₂
  refine ⟨moves₁ ++ moves₂, ?_, by rw [Mealy.run_append]⟩
  intro move hmem
  rcases List.mem_append.mp hmem with hmem | hmem
  · exact hinner₁ move hmem
  · exact hinner₂ move hmem

theorem Leads.one (f : Flow size) {move : FlowMove} (h : move.inner = true) :
    Leads f (f.step move).1 := by
  refine ⟨[move], ?_, by rw [Mealy.run_singleton]⟩
  intro move' hmem
  rwa [List.mem_singleton.mp hmem]

/-- What waits before the controller is the same. -/
structure SameInput (f f' : Flow size) : Prop where
  ctl : f'.ctl = f.ctl
  passing : f'.passing = f.passing
  sink : f'.sink = f.sink

theorem SameInput.trans {f₁ f₂ f₃ : Flow size} (h₁ : SameInput f₁ f₂) (h₂ : SameInput f₂ f₃) :
    SameInput f₁ f₃ :=
  ⟨h₂.ctl.trans h₁.ctl, h₂.passing.trans h₁.passing, h₂.sink.trans h₁.sink⟩

theorem Performed.same {eff : Effect} {f' : Flow size} (h : Performed f eff f') :
    SameInput f f' := by
  cases h <;> exact ⟨rfl, rfl, rfl⟩

/-- An effect that need not wait is carried out. -/
theorem carry_now {eff : Effect} {owed : List Effect} (howed : f.owed = eff :: owed)
    (h : f.perform eff ≠ none) : ∃ f', Leads f f' ∧ f'.owed = owed ∧ SameInput f f' := by
  obtain ⟨f', hf'⟩ := Option.ne_none_iff_exists'.mp h
  have hsame := (perform_cases hf').same
  have hstep : (f.step .carry).1 = { f' with owed } := by
    simp only [step, howed, hf']
  exact ⟨{ f' with owed }, hstep ▸ Leads.one f rfl, rfl, hsame.ctl, hsame.passing, hsame.sink⟩

/-- Any other is carried out once there is room for it. -/
theorem carry_one {eff : Effect} {owed : List Effect} (howed : f.owed = eff :: owed) :
    ∃ f', Leads f f' ∧ f'.owed = owed ∧ SameInput f f' := by
  by_cases hnow : f.perform eff = none
  · cases eff with
    | deliver tx msg =>
      have hopen : f.closed tx = false := by
        cases h : f.closed tx with
        | false => rfl
        | true => simp [perform, h] at hnow
      have hroom : (f.queue tx).room = 0 := by
        simpa [perform, hopen, Channel.trySend_eq_none] using hnow
      -- its writer writes one message first
      obtain ⟨msg', q, hrecv⟩ := Channel.exists_recv (by decide) hroom
      have hwrite : (f.step (.write tx)).1 = { f with queue := Function.update f.queue tx q } := by
        simp [step, hrecv, hopen]
      obtain ⟨q', hq'⟩ := Channel.exists_trySend (Channel.recv_room hrecv) msg
      obtain ⟨f', hleads, howed', hsame⟩ :=
        carry_now (f := (f.step (.write tx)).1) (by rw [hwrite]; exact howed)
          (by rw [hwrite]; simp [perform, hopen, hq'])
      rw [hwrite] at hsame
      exact ⟨f', (Leads.one f rfl).trans hleads, howed', hsame.ctl, hsame.passing, hsame.sink⟩
    | status s =>
      have hroom : f.status.room = 0 := by
        simpa [perform, Channel.trySend_eq_none] using hnow
      obtain ⟨s', status, hrecv⟩ := Channel.exists_recv (by decide) hroom
      have htell : (f.step .tell).1 = { f with status } := by
        simp [step, hrecv]
      obtain ⟨status', hs'⟩ := Channel.exists_trySend (Channel.recv_room hrecv) s
      obtain ⟨f', hleads, howed', hsame⟩ :=
        carry_now (f := (f.step .tell).1) (by rw [htell]; exact howed)
          (by rw [htell]; simp [perform, hs'])
      rw [htell] at hsame
      exact ⟨f', (Leads.one f rfl).trans hleads, howed', hsame.ctl, hsame.passing, hsame.sink⟩
    | setGrab on => cases hnow
    | warpCursor x y => cases hnow
    | setClipboard data => cases hnow
  · exact carry_now howed hnow

/-- The controller gets done with an event. -/
theorem carry_all (f : Flow size) : ∃ f', Leads f f' ∧ f'.owed = [] ∧ SameInput f f' := by
  generalize howed : f.owed = owed
  induction owed generalizing f with
  | nil => exact ⟨f, .refl f, howed, rfl, rfl, rfl⟩
  | cons eff owed ih =>
    obtain ⟨f₁, hleads₁, howed₁, hsame₁⟩ := carry_one howed
    obtain ⟨f₂, hleads₂, howed₂, hsame₂⟩ := ih f₁ howed₁
    exact ⟨f₂, hleads₁.trans hleads₂, howed₂, hsame₁.trans hsame₂⟩

/-- It gets done with all events in its channel. -/
theorem take_all (hidle : f.owed = []) :
    ∃ f', Leads f f' ∧ f'.owed = [] ∧ f'.ctl.waiting = [] ∧ f'.passing = f.passing ∧
      f'.sink = f.sink := by
  generalize hwaiting : f.ctl.waiting = waiting
  induction waiting generalizing f with
  | nil => exact ⟨f, .refl f, hidle, hwaiting, rfl, rfl⟩
  | cons ev waiting ih =>
    obtain ⟨ctl, hrecv, hctl⟩ := Channel.recv_of_waiting hwaiting
    have htake : (f.step .take).1 =
        { f with
          ctl, controller := (f.controller.step ev).1, owed := (f.controller.step ev).2 } := by
      simp [step, hidle, hrecv]
    obtain ⟨f₁, hleads₁, howed₁, hsame₁⟩ := carry_all (f.step .take).1
    rw [htake] at hsame₁
    obtain ⟨f₂, hleads₂, howed₂, hctl₂, hpassing₂, hsink₂⟩ :=
      ih howed₁ (by rw [hsame₁.ctl]; exact hctl)
    exact ⟨f₂, (Leads.one f rfl).trans (hleads₁.trans hleads₂), howed₂, hctl₂,
      hpassing₂.trans hsame₁.passing, hsink₂.trans hsame₁.sink⟩

/-- And with the event on its way to it. -/
theorem pass_one (hidle : f.owed = []) :
    ∃ f', Leads f f' ∧ f'.owed = [] ∧ f'.ctl.waiting = [] ∧ f'.passing = none ∧
      f'.sink = f.sink := by
  obtain ⟨f₁, hleads₁, howed₁, hctl₁, hpassing₁, hsink₁⟩ := take_all hidle
  cases hle : f.passing with
  | none => exact ⟨f₁, hleads₁, howed₁, hctl₁, hpassing₁.trans hle, hsink₁⟩
  | some le =>
    have hroom : f₁.ctl.room ≠ 0 := by
      rw [Ne, Channel.room_eq_zero, hctl₁]
      decide
    obtain ⟨ctl, hsend⟩ := Channel.exists_trySend hroom (.«local» le)
    have hpass : (f₁.step .pass).1 = { f₁ with ctl, passing := none } := by
      simp [step, hpassing₁, hle, hsend]
    obtain ⟨f₂, hleads₂, howed₂, hctl₂, hpassing₂, hsink₂⟩ :=
      take_all (f := (f₁.step .pass).1) (by rw [hpass]; exact howed₁)
    rw [hpass] at hpassing₂ hsink₂
    exact ⟨f₂, hleads₁.trans ((Leads.one f₁ rfl).trans hleads₂), howed₂, hctl₂, hpassing₂,
      hsink₂.trans hsink₁⟩

/-- And with all that was captured. -/
theorem next_all (hidle : f.owed = []) :
    ∃ f', Leads f f' ∧ f'.owed = [] ∧ f'.ctl.waiting = [] ∧ f'.passing = none ∧
      f'.sink.waiting = [] := by
  generalize hwaiting : f.sink.waiting = waiting
  induction waiting generalizing f with
  | nil =>
    obtain ⟨f₁, hleads₁, howed₁, hctl₁, hpassing₁, hsink₁⟩ := pass_one hidle
    exact ⟨f₁, hleads₁, howed₁, hctl₁, hpassing₁, by rw [hsink₁, hwaiting]⟩
  | cons le waiting ih =>
    obtain ⟨f₁, hleads₁, howed₁, -, hpassing₁, hsink₁⟩ := pass_one hidle
    rw [← hsink₁] at hwaiting
    obtain ⟨sink, hrecv, hsink⟩ := Channel.recv_of_waiting hwaiting
    have hnext : (f₁.step .next).1 = { f₁ with sink, passing := some le } := by
      simp [step, hpassing₁, hrecv]
    obtain ⟨f₂, hleads₂, hrest⟩ :=
      ih (f := (f₁.step .next).1) (by rw [hnext]; exact howed₁) (by rw [hnext]; exact hsink)
    exact ⟨f₂, hleads₁.trans ((Leads.one f₁ rfl).trans hleads₂), hrest⟩

/-- **Waiting is no deadlock.**  However full the channels are, the server's own steps, the writers'
    among them, can bring it to rest: then every accepted event is handled, in order, and nothing is
    owed. -/
theorem comes_to_rest (layout : ScreenLayout) (home : String) (moves : List FlowMove) :
    ∃ more, (∀ move ∈ more, move.inner = true) ∧
      let run := Mealy.run step (new layout home : Flow size) (moves ++ more)
      run.1.owed = [] ∧ run.1.pending = [] ∧
      run.2.filterMap Flowed.accept =
        (run.2.filterMap Flowed.take).filterMap ServerEvent.captured := by
  obtain ⟨f₁, ⟨more₁, hinner₁, hrun₁⟩, howed₁, -⟩ :=
    carry_all (Mealy.run step (new layout home : Flow size) moves).1
  obtain ⟨f₂, ⟨more₂, hinner₂, hrun₂⟩, howed₂, hctl₂, hpassing₂, hsink₂⟩ := next_all howed₁
  refine ⟨more₁ ++ more₂, ?_, ?_⟩
  · intro move hmem
    rcases List.mem_append.mp hmem with hmem | hmem
    · exact hinner₁ move hmem
    · exact hinner₂ move hmem
  · have hb := run_balanced size layout home (moves ++ (more₁ ++ more₂))
    have hstate :
        (Mealy.run step (new layout home : Flow size) (moves ++ (more₁ ++ more₂))).1 = f₂ := by
      rw [Mealy.run_append, Mealy.run_append, hrun₁, hrun₂]
    have hpending : f₂.pending = [] := by
      simp [pending, hctl₂, hpassing₂, hsink₂]
    have hkept := hb.kept
    rw [hstate, hpending, List.append_nil] at hkept
    simp only [hstate]
    exact ⟨howed₂, hpending, hkept⟩

end SelfKvm.Flow
