/-
  The runtimes of the app (`src-tauri/src/lib.rs`, `start_server`, `start_client`, `stop_inner`).

  The state has room for one runtime.  A start first stops the one that is registered, but it lets go
  of the lock before it registers its own, and another start may do the same meanwhile.

  1. `orphans_exactly`: a runtime is lost, running and out of reach of every later command, exactly
     if a start registers its runtime while another one is registered.
  2. `one_at_a_time`: if no command begins before the last has returned, that cannot happen, and at
     rest the state says what runs: one runtime, and the captured input goes to it if it is a server.
-/
import SelfKvm.App.Sessions

namespace SelfKvm.App

variable {display : Option (Int32 × Int32)} {bind : Binder} {s s' : App} {id : Nat}
  {move : AppMove}

/-! ## Runtimes that are lost -/

/-- The runtime was spawned and is not registered, and its command has returned: no command will
    ever abort it. -/
def Lost (s : App) (id : Nat) : Prop :=
  s.task ≠ some id ∧ s.calls id = .returned true ∧ ∃ t, s.tasks id = some t ∧ t.aborted = false

/-- It is lost, and nothing has ended it. -/
def Orphan (s : App) (id : Nat) : Prop :=
  s.task ≠ some id ∧ s.calls id = .returned true ∧
    ∃ t, s.tasks id = some t ∧ t.aborted = false ∧ t.finished = false

/-- A start registers its runtime in the place of another one. -/
def Overwrites (s : App) (move : AppMove) (id : Nat) : Prop :=
  s.task = some id ∧ (∃ t, s.tasks id = some t ∧ t.finished = false) ∧
    ∃ j ok job, move = .proceed j ok ∧ s.calls j = .registering job

/-- What an orphan is depends on little. -/
theorem orphan_congr (hcalls : s'.calls id = s.calls id) (htasks : s'.tasks id = s.tasks id)
    (htask : s'.task = s.task) : Orphan s' id ↔ Orphan s id := by
  unfold Orphan
  rw [hcalls, htasks, htask]

/-- A command that has not spawned its runtime makes no orphan. -/
theorem Sound.orphan_goes {j : Nat} {call : AppCall} (hs : Sound s)
    (hearly : (s.calls j).early = true)
    (hcalls : ∀ k, s'.calls k = if k = j then call else s.calls k) (htasks : s'.tasks = s.tasks)
    (htask : s'.task = s.task) : Orphan s' id ↔ Orphan s id := by
  by_cases hid : id = j
  · have hnone := hs.early hearly
    constructor
    · rintro ⟨-, -, t, ht, -⟩
      rw [htasks, hid, hnone] at ht
      cases ht
    · rintro ⟨-, -, t, ht, -⟩
      rw [hid, hnone] at ht
      cases ht
  · exact orphan_congr (by rw [hcalls, if_neg hid]) (by rw [htasks]) htask

/-- **What makes an orphan.** -/
theorem Sound.orphan_step (hs : Sound s) (h : RunStep s s' move) :
    (Orphan s' id → Orphan s id ∨ Overwrites s move id) ∧
    (Overwrites s move id → Orphan s' id) := by
  -- most steps change nothing about it, and register nothing
  have hframe : (Orphan s' id → Orphan s id) → ¬Overwrites s move id →
      (Orphan s' id → Orphan s id ∨ Overwrites s move id) ∧
      (Overwrites s move id → Orphan s' id) :=
    fun himp hnot => ⟨fun ho => .inl (himp ho), fun hover => absurd hover hnot⟩
  cases h with
  | still hidle hcalls htasks htask hmode =>
    refine hframe (orphan_congr (by rw [hcalls]) (by rw [htasks]) htask).mp ?_
    rintro ⟨-, -, j, ok, job, hmove, hregistering⟩
    have hbusy := hidle j ok hmove
    rw [hregistering] at hbusy
    cases hbusy
  | goes hearly hcall hmove hcalls htasks htask hmode =>
    refine hframe (hs.orphan_goes hearly hcalls htasks htask).mp ?_
    rintro ⟨-, -, j, ok, job, hmove', hregistering⟩
    rw [hmove j ok hmove'] at hregistering
    rw [hregistering] at hearly
    cases hearly
  | @halts j t cmd ok h hregistered hcalls htasks htask hmode =>
    refine hframe ?_ ?_
    · rintro ⟨-, hreturned, v, hv, haborted, hfinished⟩
      have hjid : id ≠ j := by
        rintro rfl
        rw [hcalls, if_pos rfl] at hreturned
        cases hreturned
      have hid : id ≠ t := by
        rintro rfl
        obtain ⟨u, hu, -⟩ := hs.registered id hregistered
        rw [htasks, if_pos rfl, hu, Option.map_some] at hv
        injection hv with hv
        rw [← hv] at haborted
        cases haborted
      rw [hcalls, if_neg hjid] at hreturned
      rw [htasks, if_neg hid] at hv
      exact ⟨fun htask' => hid (Option.some.inj (htask'.symm.trans hregistered)), hreturned, v, hv,
        haborted, hfinished⟩
    · rintro ⟨-, -, k, ok', job, hmove, hregistering⟩
      injection hmove with hk
      rw [← hk, h] at hregistering
      cases hregistering
  | @spawns j job ok h hcalls htasks htask hmode =>
    refine hframe ?_ ?_
    · rintro ⟨hne, hreturned, v, hv, hlive⟩
      have hid : id ≠ j := by
        rintro rfl
        rw [hcalls, if_pos rfl] at hreturned
        cases hreturned
      rw [hcalls, if_neg hid] at hreturned
      rw [htasks, if_neg hid] at hv
      exact ⟨htask ▸ hne, hreturned, v, hv, hlive⟩
    · rintro ⟨-, -, k, ok', job', hmove, hregistering⟩
      injection hmove with hk
      rw [← hk, h] at hregistering
      cases hregistering
  | @registers j job ok h hcalls htasks htask hmode =>
    -- whoever was registered is so no longer
    constructor
    · rintro ⟨hne, hreturned, t, ht, haborted, hfinished⟩
      have hid : id ≠ j := fun h => hne (h ▸ htask)
      rw [hcalls, if_neg hid] at hreturned
      rw [htasks] at ht
      by_cases hregistered : s.task = some id
      · exact .inr ⟨hregistered, ⟨t, ht, hfinished⟩, j, ok, job, rfl, h⟩
      · exact .inl ⟨hregistered, hreturned, t, ht, haborted, hfinished⟩
    · rintro ⟨hregistered, ⟨t, ht, hfinished⟩, -⟩
      obtain ⟨u, hu, haborted, hreturned, -⟩ := hs.registered id hregistered
      obtain rfl : t = u := Option.some.inj (ht.symm.trans hu)
      have hid : j ≠ id := hs.registered_ne hregistered h fun h => by cases h
      refine ⟨fun h => hid (Option.some.inj (htask.symm.trans h)), ?_, t, htasks ▸ ht, haborted,
        hfinished⟩
      rw [hcalls, if_neg hid.symm, hreturned]
  | @runs _ j t u h hjob haborted _ hfinished hpolling hmove hcalls htasks htask hmode =>
    refine hframe ?_ ?_
    · by_cases hid : id = j
      · subst hid
        rintro ⟨hne, hreturned, v, hv, hua, huf⟩
        rw [htasks, if_pos rfl] at hv
        injection hv with hv
        subst hv
        refine ⟨htask ▸ hne, hcalls ▸ hreturned, t, h, haborted ▸ hua, ?_⟩
        cases hf : t.finished with
        | false => rfl
        | true =>
          rw [hfinished hf] at huf
          cases huf
      · exact (orphan_congr (by rw [hcalls]) (by rw [htasks, if_neg hid]) htask).mp
    · rintro ⟨-, -, k, ok', job, hmove', -⟩
      rw [hmove'] at hmove
      cases hmove

/-- **What is lost stays lost.** -/
theorem Lost.step (hl : Lost s id) (h : RunStep s s' move) : Lost s' id := by
  obtain ⟨hne, hreturned, t, ht, haborted⟩ := hl
  -- it is another command that goes on
  have hother : ∀ {j call}, s.calls j = call → call ≠ .returned true → id ≠ j := by
    rintro j call hj hcall rfl
    exact hcall (hj.symm.trans hreturned)
  cases h with
  | still _ hcalls htasks htask _ =>
    exact ⟨htask ▸ hne, hcalls ▸ hreturned, t, htasks ▸ ht, haborted⟩
  | @goes _ j _ hearly _ _ hcalls htasks htask _ =>
    have hid : id ≠ j := by
      rintro rfl
      rw [hreturned] at hearly
      cases hearly
    exact ⟨htask ▸ hne, by rw [hcalls, if_neg hid, hreturned], t, htasks ▸ ht, haborted⟩
  | halts h hregistered hcalls htasks htask _ =>
    have hid := hother h fun h => by cases h
    refine ⟨?_, by rw [hcalls, if_neg hid, hreturned], t, ?_, haborted⟩
    · rw [htask]
      exact fun h => by cases h
    · rw [htasks, if_neg, ht]
      rintro rfl
      exact hne hregistered
  | spawns h hcalls htasks htask _ =>
    have hid := hother h fun h => by cases h
    exact ⟨htask ▸ hne, by rw [hcalls, if_neg hid, hreturned], t, by rw [htasks, if_neg hid, ht],
      haborted⟩
  | registers h hcalls htasks htask _ =>
    have hid := hother h fun h => by cases h
    refine ⟨?_, by rw [hcalls, if_neg hid, hreturned], t, htasks ▸ ht, haborted⟩
    rw [htask]
    exact fun h => hid (Option.some.inj h).symm
  | @runs _ j u u' h _ hua _ _ _ _ hcalls htasks htask _ =>
    by_cases hid : id = j
    · subst hid
      obtain rfl : u = t := Option.some.inj (h.symm.trans ht)
      exact ⟨htask ▸ hne, hcalls ▸ hreturned, u', by rw [htasks, if_pos rfl], hua.trans haborted⟩
    · exact ⟨htask ▸ hne, hcalls ▸ hreturned, t, by rw [htasks, if_neg hid, ht], haborted⟩

variable (display bind)

/-- **Lost runtimes, exactly.**  However commands and runtimes are interleaved: there is never an
    orphan if and only if no start registers its runtime in the place of another that has not ended;
    and what is once an orphan is never aborted, whatever is asked for later. -/
theorem orphans_exactly (moves : List AppMove) :
    ((∀ js, js <+: moves → ∀ id, ¬Orphan (Mealy.run (step display bind) new js).1 id) ↔
      Mealy.EveryStep (step display bind) new moves fun _ s move => ∀ id, ¬Overwrites s move id) ∧
    ∀ more id, Orphan (Mealy.run (step display bind) new moves).1 id →
      ∃ t, (Mealy.run (step display bind) new (moves ++ more)).1.tasks id = some t ∧
        t.aborted = false := by
  constructor
  · constructor
    · intro hnone js move hpre id hover
      have hs := run_sound display bind js
      have hstep := run_runStep display bind js move
      refine hnone (js ++ [move]) hpre id ?_
      rw [Mealy.run_concat]
      exact (hs.orphan_step hstep).2 hover
    · intro hevery js hpre
      have hjs := hevery.of_prefix _ hpre
      clear hevery hpre
      induction js using List.reverseRecOn with
      | nil =>
        rintro id ⟨-, -, t, ht, -⟩
        cases ht
      | append_singleton js move ih =>
        intro id ho
        obtain ⟨hbefore, hlast⟩ := (Mealy.everyStep_concat _).mp hjs
        have hs := run_sound display bind js
        have hstep := run_runStep display bind js move
        rw [Mealy.run_concat] at ho
        rcases (hs.orphan_step hstep).1 ho with ho | hover
        · exact ih hbefore id ho
        · exact hlast id hover
  · rintro more id ⟨htask, hret, t, ht, haborted, -⟩
    have hlost : Lost (Mealy.run (step display bind) new (moves ++ more)).1 id := by
      induction more using List.reverseRecOn with
      | nil =>
        rw [List.append_nil]
        exact ⟨htask, hret, t, ht, haborted⟩
      | append_singleton more move ih =>
        rw [← List.append_assoc, Mealy.run_concat]
        exact ih.step (run_runStep display bind _ move)
    obtain ⟨-, -, lost⟩ := hlost
    exact lost

variable {display bind}

/-! ## One command at a time -/

/-- The runtime that should get the captured input. -/
def plugged (s : App) : Option Nat := if s.mode = some .server then s.task else none

/-- What a command that is under way relies on when nobody interferes. -/
def Fits (s : App) (id : Nat) : AppCall → Prop
  | .halting _ => s.sink = s.plugged
  | .unplugging _ => s.task = none
  | .releasing _ => s.task = none ∧ s.sink = none
  | .binding _ => s.task = none ∧ s.sink = none
  | .capturing _ => s.task = none ∧ s.sink = none
  | .plugging _ => s.task = none ∧ s.sink = none
  | .spawning job => s.task = none ∧ s.sink = if job.role = .server then some id else none
  | .registering job => s.task = none ∧ s.sink = if job.role = .server then some id else none
  | .idle => True
  | .returned _ => True

/-- At most one command is under way, and the state is as it left it. -/
structure Orderly (s : App) : Prop where
  single : ∀ i j, (s.calls i).busy = true → (s.calls j).busy = true → i = j
  owned : ∀ id t, s.tasks id = some t → t.aborted = false →
    s.task = some id ∨ s.calls id = .registering t.job
  fits : ∀ id, Fits s id (s.calls id)
  resting : (∀ id, (s.calls id).busy = false) → s.sink = s.plugged

/-- At first nothing is under way. -/
theorem orderly_new : Orderly new where
  single := fun _ _ h => by cases h
  owned := fun _ _ h => by cases h
  fits := fun _ => trivial
  resting := fun _ => rfl

/-- A command that is not under way fits. -/
theorem fits_of_not_busy {call : AppCall} (h : call.busy = false) : Fits s id call := by
  cases call <;> first | exact trivial | cases h

/-- The one command that is under way goes on. -/
theorem Orderly.next {call : AppCall} (ho : Orderly s) (hbusy : (s.calls id).busy = true)
    (hcalls : ∀ k, s'.calls k = if k = id then call else s.calls k)
    (howned : ∀ k t, s'.tasks k = some t → t.aborted = false →
      s'.task = some k ∨ s'.calls k = .registering t.job)
    (hfits : Fits s' id call) (hrest : call.busy = false → s'.sink = s'.plugged) : Orderly s' := by
  have hothers : ∀ k, k ≠ id → (s'.calls k).busy = false := by
    intro k hk
    rw [hcalls, if_neg hk]
    cases hkbusy : (s.calls k).busy with
    | false => rfl
    | true => exact absurd (ho.single k id hkbusy hbusy) hk
  have honly : ∀ k, (s'.calls k).busy = true → k = id := by
    intro k hk
    by_contra hne
    rw [hothers k hne] at hk
    cases hk
  refine ⟨?_, howned, ?_, ?_⟩
  · intro i j hi hj
    rw [honly i hi, honly j hj]
  · intro k
    by_cases hk : k = id
    · rw [hcalls, if_pos hk, hk]
      exact hfits
    · exact fits_of_not_busy (hothers k hk)
  · intro hall
    have hid := hall id
    rw [hcalls, if_pos rfl] at hid
    exact hrest hid

/-- While a command that has spawned nothing is under way, every runtime but the registered one was
    aborted. -/
theorem Orderly.only {k : Nat} {t : AppTask} (ho : Orderly s) (hbusy : (s.calls id).busy = true)
    (hne : ∀ job, s.calls id ≠ .registering job) (h : s.tasks k = some t)
    (haborted : t.aborted = false) : s.task = some k := by
  rcases ho.owned k t h haborted with htask | hcall
  · exact htask
  · have hk : k = id := ho.single k id (by rw [hcall]; rfl) hbusy
    rw [hk] at hcall
    exact absurd hcall (hne t.job)

/-- **One step** keeps the app orderly, if no command begins while another is under way. -/
theorem Orderly.step {outs : List AppSeen} (ho : Orderly s) (hs : Sound s)
    (h : AppStep display bind s move s' outs)
    (halone : ∀ id cmd, move = .invoke id cmd → ∀ j, (s.calls j).busy = false) : Orderly s' := by
  -- a command goes on, and neither spawns nor ends a runtime
  have hgoes : ∀ {id call call'}, s.calls id = call → call.busy = true →
      (∀ job, call ≠ .registering job) →
      (∀ k, s'.calls k = if k = id then call' else s.calls k) → s'.tasks = s.tasks →
      s'.task = s.task → Fits s' id call' → (call'.busy = false → s'.sink = s'.plugged) →
      Orderly s' := by
    rintro id _ call' rfl hbusy hne hcalls htasks htask hfits hrest
    refine ho.next hbusy hcalls (fun k t hk haborted => ?_) hfits hrest
    rw [htasks] at hk
    rw [htask]
    exact .inl (ho.only hbusy hne hk haborted)
  have hfits : ∀ {id call}, s.calls id = call → Fits s id call := fun h => h ▸ ho.fits _
  have hunplugged : s.task = none → s.plugged = none := by
    intro htask
    unfold plugged
    rw [hs.unmoded htask, if_neg (fun h => by cases h)]
  cases h with
  | same => exact ho
  | @invoke id cmd h =>
    have hnone := halone id cmd rfl
    have hbusy : ∀ k, ((s.setCall id (.halting cmd)).calls k).busy = true → k = id := by
      intro k hk
      by_contra hne
      rw [setCall_calls, if_neg hne, hnone k] at hk
      cases hk
    refine ⟨fun i j hi hj => (hbusy i hi).trans (hbusy j hj).symm, ?_, ?_, ?_⟩
    · intro k t hk haborted
      rcases ho.owned k t hk haborted with htask | hcall
      · exact .inl htask
      · have hkbusy := hnone k
        rw [hcall] at hkbusy
        cases hkbusy
    · intro k
      by_cases hk : k = id
      · rw [setCall_calls, if_pos hk]
        exact ho.resting hnone
      · refine fits_of_not_busy ?_
        rw [setCall_calls, if_neg hk]
        exact hnone k
    · intro hall
      have hid := hall id
      rw [setCall_calls, if_pos rfl] at hid
      cases hid
  | @haltNone id cmd ok h htask =>
    exact hgoes h rfl (fun _ h => by cases h) (setCall_calls _ id _) rfl htask.symm rfl
      fun h => by cases h
  | @halt id t cmd ok h htask =>
    obtain ⟨hcalls, -, -⟩ := abort_same s t
    have hne : ∀ job, s.calls id ≠ .registering job := fun job hj => by cases h.symm.trans hj
    refine @Orderly.next s _ id (.unplugging cmd) ho (by rw [h]; rfl) (fun k => ?_) ?_ rfl
      fun h => by cases h
    · rw [setCall_calls, ← hcalls]
    · intro k u hk haborted
      have hk' : (s.abort t).tasks k = some u := hk
      rw [abort_tasks] at hk'
      by_cases hkt : k = t
      · rw [if_pos hkt] at hk'
        obtain ⟨v, -, rfl⟩ := Option.map_eq_some_iff.mp hk'
        cases haborted
      · rw [if_neg hkt] at hk'
        have honly := ho.only (by rw [h]; rfl) hne hk' haborted
        exact absurd (Option.some.inj (honly.symm.trans htask)) hkt
  | @unplug id cmd ok h =>
    exact hgoes h rfl (fun _ h => by cases h) (setCall_calls _ id _) rfl rfl ⟨hfits h, rfl⟩
      fun h => by cases h
  | @release id cmd call ok h hcall =>
    obtain ⟨htask, hsink⟩ := hfits h
    refine hgoes h rfl (fun _ h => by cases h) (setCall_calls _ id _) rfl rfl ?_ ?_
    · cases hcall with
      | stopped => exact trivial
      | client setup => exact ⟨htask, hsink⟩
      | server hconfig => exact ⟨htask, hsink⟩
      | refused hconfig => exact trivial
    · exact fun _ => hsink.trans (hunplugged htask).symm
  | @bind id config addr ok h =>
    exact hgoes h rfl (fun _ h => by cases h) (setCall_calls _ id _) rfl rfl (hfits h)
      fun h => by cases h
  | @unbound id config ok h =>
    obtain ⟨htask, hsink⟩ := hfits h
    exact hgoes h rfl (fun _ h => by cases h) (setCall_calls _ id _) rfl rfl trivial
      fun _ => hsink.trans (hunplugged htask).symm
  | @captured id config ok h =>
    exact hgoes h rfl (fun _ h => by cases h) (setCall_calls _ id _) rfl rfl (hfits h)
      fun h => by cases h
  | @capture id config ok h =>
    exact hgoes h rfl (fun _ h => by cases h) (setCall_calls _ id _) rfl rfl (hfits h)
      fun h => by cases h
  | @blind id config ok h =>
    obtain ⟨htask, hsink⟩ := hfits h
    exact hgoes h rfl (fun _ h => by cases h) (setCall_calls _ id _) rfl rfl trivial
      fun _ => hsink.trans (hunplugged htask).symm
  | @plug id config ok h =>
    obtain ⟨htask, -⟩ := hfits h
    exact hgoes h rfl (fun _ h => by cases h) (setCall_calls _ id _) rfl rfl ⟨htask, rfl⟩
      fun h => by cases h
  | @spawn id job ok h =>
    have hne : ∀ job, s.calls id ≠ .registering job := fun job hj => by cases h.symm.trans hj
    refine ho.next (by rw [h]; rfl) (setCall_calls _ id _) ?_ (hfits h) fun h => by cases h
    intro k t hk haborted
    have hk' : (s.setTask id (.new job)).tasks k = some t := hk
    rw [setTask_tasks] at hk'
    by_cases hkid : k = id
    · rw [if_pos hkid] at hk'
      injection hk' with hk'
      right
      rw [setCall_calls, if_pos hkid, ← hk']
      rfl
    · rw [if_neg hkid] at hk'
      exact .inl (ho.only (by rw [h]; rfl) hne hk' haborted)
  | @register id job ok h =>
    obtain ⟨htask, hsink⟩ := hfits h
    refine ho.next (by rw [h]; rfl) (setCall_calls _ id _) ?_ trivial ?_
    · intro k t hk haborted
      rcases ho.owned k t hk haborted with hregistered | hcall
      · rw [htask] at hregistered
        cases hregistered
      · have hk : k = id := ho.single k id (by rw [hcall]; rfl) (by rw [h]; rfl)
        exact .inl (congrArg some hk.symm)
    · intro _
      show s.sink = if some job.role = some .server then some id else none
      rw [hsink]
      simp only [Option.some.injEq]
  | @fail id t ok h hbegun =>
    refine ⟨ho.single, ?_, ho.fits, ho.resting⟩
    intro k u hk haborted
    have hk' : (s.setTask id { t with finished := true }).tasks k = some u := hk
    rw [setTask_tasks] at hk'
    by_cases hkid : k = id
    · rw [if_pos hkid] at hk'
      injection hk' with hk'
      subst hk'
      exact ho.owned k t (hkid ▸ h) haborted
    · rw [if_neg hkid] at hk'
      exact ho.owned k u hk' haborted
  | @polled id t t' _ h hpolled =>
    refine ⟨ho.single, ?_, ho.fits, ho.resting⟩
    intro k u hk haborted
    rw [setTask_tasks] at hk
    by_cases hkid : k = id
    · rw [if_pos hkid] at hk
      injection hk with hk
      subst hk
      rw [hpolled.job]
      exact ho.owned k t (hkid ▸ h) (hpolled.aborted ▸ haborted)
    · rw [if_neg hkid] at hk
      exact ho.owned k u hk haborted
  | grab => exact ⟨ho.single, ho.owned, ho.fits, ho.resting⟩

/-- **One command at a time.**  If no command begins before the last has returned, then at rest,
    whatever was asked for and however it ended: every runtime but the registered one was aborted,
    the mode is the role of the registered one, and the captured input goes to it if it is a server
    and to nobody if not. -/
theorem one_at_a_time (moves : List AppMove)
    (halone : Mealy.EveryStep (step display bind) new moves fun _ s move =>
      ∀ id cmd, move = .invoke id cmd → ∀ j, (s.calls j).busy = false)
    (hrest : ∀ id, ((Mealy.run (step display bind) new moves).1.calls id).busy = false) :
    let s := (Mealy.run (step display bind) new moves).1
    (∀ id t, s.tasks id = some t → t.aborted = false → s.task = some id) ∧
    (∀ id, s.task = some id →
      ∃ t, s.tasks id = some t ∧ t.aborted = false ∧ s.mode = some t.job.role) ∧
    s.sink = if s.mode = some .server then s.task else none := by
  have hs := run_sound display bind moves
  have ho : Orderly (Mealy.run (step display bind) new moves).1 := by
    clear hrest hs
    induction moves using List.reverseRecOn with
    | nil => exact orderly_new
    | append_singleton moves move ih =>
      obtain ⟨hbefore, hlast⟩ := (Mealy.everyStep_concat _).mp halone
      rw [Mealy.run_concat]
      exact (ih hbefore).step (run_sound display bind moves) (step_cases _ move) hlast
  refine ⟨?_, ?_, ho.resting hrest⟩
  · intro id t ht haborted
    rcases ho.owned id t ht haborted with htask | hcall
    · exact htask
    · have hbusy := hrest id
      rw [hcall] at hbusy
      cases hbusy
  · intro id htask
    obtain ⟨t, ht, haborted, -, hmode⟩ := hs.registered id htask
    exact ⟨t, ht, haborted, hmode⟩

/-- A client is started, and nobody interferes. -/
theorem one_at_a_time_client :
    let s := (Mealy.run (step none fun _ _ _ _ => none) new
      [.invoke 0 (.startClient ⟨"192.168.1.10:24800", "laptop", 1280, 800, false⟩),
        .proceed 0 true, .proceed 0 true, .proceed 0 true, .proceed 0 true, .proceed 0 true]).1
    (∀ id t, s.tasks id = some t → t.aborted = false → s.task = some id) ∧
    (∀ id, s.task = some id →
      ∃ t, s.tasks id = some t ∧ t.aborted = false ∧ s.mode = some t.job.role) ∧
    s.sink = if s.mode = some .server then s.task else none := by
  refine one_at_a_time _ ?_ ?_
  · simp only [Mealy.everyStep_cons]
    exact ⟨fun _ _ _ _ => rfl, fun _ _ h => (by cases h), fun _ _ h => (by cases h),
      fun _ _ h => (by cases h), fun _ _ h => (by cases h), fun _ _ h => (by cases h),
      Mealy.everyStep_nil _⟩
  · intro id
    by_cases hid : id = 0
    · rw [hid]
      rfl
    · simp [Mealy.run_cons, step, proceed, new, setCall, setTask, hid, AppCall.busy]

end SelfKvm.App
