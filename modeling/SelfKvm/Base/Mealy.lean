/-
  Machines that answer every input with a list of outputs, and what holds over their runs.

  A program of this kind is a function `step : σ → ι → σ × List ο`.  `run` feeds it a list of inputs
  and collects the outputs in order.  A property of a whole run relates three things: the inputs
  so far, the state reached and the outputs so far; `run_induction` is the rule for such a
  property, and every invariant of this development is an instance of it.  What a history says of
  its latest events is `Since`.
-/
import Mathlib.Data.List.Induction

namespace SelfKvm.Mealy

variable {σ ι ο : Type} (step : σ → ι → σ × List ο)

/-- Feed the inputs one after the other. -/
def run (s : σ) : List ι → σ × List ο
  | [] => (s, [])
  | i :: is =>
    let (s, out) := step s i
    let (s, outs) := run s is
    (s, out ++ outs)

@[simp] theorem run_nil (s : σ) : run step s [] = (s, []) := rfl

theorem run_cons (s : σ) (i : ι) (is : List ι) :
    run step s (i :: is) =
      ((run step (step s i).1 is).1, (step s i).2 ++ (run step (step s i).1 is).2) := rfl

@[simp] theorem run_singleton (s : σ) (i : ι) : run step s [i] = step s i := by
  rw [run_cons, run_nil, List.append_nil]

/-- A run in two parts. -/
theorem run_append (s : σ) (is js : List ι) :
    run step s (is ++ js) =
      ((run step (run step s is).1 js).1, (run step s is).2 ++ (run step (run step s is).1 js).2) := by
  induction is generalizing s with
  | nil => rfl
  | cons i is ih => rw [List.cons_append, run_cons, ih, run_cons, List.append_assoc]

/-- One more input at the end of a run. -/
theorem run_concat (s : σ) (is : List ι) (i : ι) :
    run step s (is ++ [i]) =
      ((step (run step s is).1 i).1, (run step s is).2 ++ (step (run step s is).1 i).2) := by
  rw [run_append, run_singleton]

/-- Machines that move alike reach the same state, whatever they put out. -/
theorem run_state_congr {ο' : Type} {step : σ → ι → σ × List ο} {step' : σ → ι → σ × List ο'}
    (h : ∀ s i, (step s i).1 = (step' s i).1) (s : σ) (is : List ι) :
    (run step s is).1 = (run step' s is).1 := by
  induction is generalizing s with
  | nil => rfl
  | cons i is ih => rw [run_cons, run_cons, h, ih]

/-- **Two machines in step.**  If `R` relates the states, and one step of either machine keeps it and
    puts out the same, the inputs of the one and the outputs of the other translated, so do runs. -/
theorem run_lockstep {τ κ ω : Type} {step : σ → ι → σ × List ο} {step' : τ → κ → τ × List ω}
    (f : κ → ι) (g : ο → ω) {R : σ → τ → Prop}
    (hstep : ∀ s t k, R s t →
      R (step s (f k)).1 (step' t k).1 ∧ (step s (f k)).2.map g = (step' t k).2)
    {s : σ} {t : τ} (h : R s t) (ks : List κ) :
    R (run step s (ks.map f)).1 (run step' t ks).1 ∧
      (run step s (ks.map f)).2.map g = (run step' t ks).2 := by
  induction ks generalizing s t with
  | nil => exact ⟨h, rfl⟩
  | cons k ks ih =>
    obtain ⟨hR, hout⟩ := hstep s t k h
    obtain ⟨hR', hout'⟩ := ih hR
    rw [List.map_cons, run_cons, run_cons]
    refine ⟨hR', ?_⟩
    rw [List.map_append, hout, hout']

/-- **The history rule.**  What holds before the first input and is kept by every step, whatever
    went before, holds of every run. -/
theorem run_induction {P : List ι → σ → List ο → Prop} {s₀ : σ} (h₀ : P [] s₀ [])
    (hstep : ∀ is s outs i, P is s outs → P (is ++ [i]) (step s i).1 (outs ++ (step s i).2))
    (is : List ι) : P is (run step s₀ is).1 (run step s₀ is).2 := by
  induction is using List.reverseRecOn with
  | nil => exact h₀
  | append_singleton is i ih =>
    rw [run_concat]
    exact hstep is _ _ i ih

/-- `C` holds of every step of the run: of the outputs so far, the state before the step and its
    input. -/
def EveryStep (s₀ : σ) (is : List ι) (C : List ο → σ → ι → Prop) : Prop :=
  ∀ js i, js ++ [i] <+: is → C (run step s₀ js).2 (run step s₀ js).1 i

theorem EveryStep.mono {s₀ : σ} {is : List ι} {C C' : List ο → σ → ι → Prop}
    (h : EveryStep step s₀ is C) (himp : ∀ outs s i, C outs s i → C' outs s i) :
    EveryStep step s₀ is C' := by
  intro js i hpre
  exact himp _ _ _ (h js i hpre)

theorem EveryStep.of_prefix {s₀ : σ} {is js : List ι} {C : List ο → σ → ι → Prop}
    (h : EveryStep step s₀ is C) (hpre : js <+: is) : EveryStep step s₀ js C := by
  intro ks i hks
  exact h ks i (hks.trans hpre)

/-- What holds of every step holds of the steps after a first part. -/
theorem EveryStep.of_append {s₀ : σ} {is js : List ι} {C : List ο → σ → ι → Prop}
    (h : EveryStep step s₀ (is ++ js) C) :
    EveryStep step (run step s₀ is).1 js fun outs s i => C ((run step s₀ is).2 ++ outs) s i := by
  intro ks i hpre
  have hall : is ++ ks ++ [i] <+: is ++ js := by
    rw [List.append_assoc]
    exact (List.prefix_append_right_inj is).mpr hpre
  have hstep := h (is ++ ks) i hall
  rw [run_append] at hstep
  exact hstep

theorem everyStep_nil {s₀ : σ} {C : List ο → σ → ι → Prop} : EveryStep step s₀ [] C := by
  intro js i hpre
  exact absurd (List.prefix_nil.mp hpre) (List.append_ne_nil_of_right_ne_nil js (List.cons_ne_nil i []))

/-- It holds of a run exactly if it holds of the first step and of the rest. -/
theorem everyStep_cons {s₀ : σ} {i : ι} {is : List ι} {C : List ο → σ → ι → Prop} :
    EveryStep step s₀ (i :: is) C ↔
      C [] s₀ i ∧ EveryStep step (step s₀ i).1 is fun outs s j => C ((step s₀ i).2 ++ outs) s j := by
  constructor
  · intro h
    refine ⟨h [] i (List.prefix_append [i] is), ?_⟩
    have happend : EveryStep step s₀ ([i] ++ is) C := h
    have hrest := happend.of_append step
    rw [run_singleton] at hrest
    exact hrest
  · rintro ⟨hi, his⟩ js j hpre
    cases js with
    | nil =>
      obtain ⟨rfl, -⟩ := List.cons_prefix_cons.mp hpre
      exact hi
    | cons k ks =>
      obtain ⟨rfl, hks⟩ := List.cons_prefix_cons.mp hpre
      exact his ks j hks

/-- It holds of a run with one more input exactly if it holds of that step, too. -/
theorem everyStep_concat {s₀ : σ} {is : List ι} {i : ι} {C : List ο → σ → ι → Prop} :
    EveryStep step s₀ (is ++ [i]) C ↔
      EveryStep step s₀ is C ∧ C (run step s₀ is).2 (run step s₀ is).1 i := by
  constructor
  · intro h
    exact ⟨h.of_prefix step (List.prefix_append is [i]), h is i (List.prefix_refl _)⟩
  · rintro ⟨his, hi⟩ js j hpre
    rcases List.prefix_concat_iff.mp hpre with heq | hpre
    · obtain ⟨rfl, hj⟩ := List.append_inj' heq rfl
      injection hj with hj
      rw [hj]
      exact hi
    · exact his js j hpre

/-- **To show it of a step, it may be assumed of all steps before.** -/
theorem everyStep_of_last {s₀ : σ} {is : List ι} {C : List ο → σ → ι → Prop}
    (h : ∀ js i, js ++ [i] <+: is → EveryStep step s₀ js C →
      C (run step s₀ js).2 (run step s₀ js).1 i) : EveryStep step s₀ is C := by
  induction is using List.reverseRecOn with
  | nil => exact everyStep_nil step
  | append_singleton is i ih =>
    have his := ih fun js j hpre => h js j (hpre.trans (List.prefix_append is [i]))
    exact (everyStep_concat step).mpr ⟨his, h is i (List.prefix_refl _) his⟩

/-- **The conditional history rule.**  What holds before the first input, and is kept by every step
    that meets a condition, holds after a run whose steps all meet it. -/
theorem EveryStep.final {s₀ : σ} {is : List ι} {C : List ο → σ → ι → Prop}
    {P : List ο → σ → Prop} (h : EveryStep step s₀ is C) (h₀ : P [] s₀)
    (hstep : ∀ outs s i, P outs s → C outs s i → P (outs ++ (step s i).2) (step s i).1) :
    P (run step s₀ is).2 (run step s₀ is).1 := by
  induction is using List.reverseRecOn with
  | nil => exact h₀
  | append_singleton js j ih =>
    rw [run_concat]
    have hjs := h.of_prefix step (List.prefix_append js [j])
    exact hstep _ _ j (ih hjs) (h js j (List.prefix_refl _))

/-- It holds before each step, too. -/
theorem EveryStep.invariant {s₀ : σ} {is : List ι} {C : List ο → σ → ι → Prop}
    {P : List ο → σ → Prop} (h : EveryStep step s₀ is C) (h₀ : P [] s₀)
    (hstep : ∀ outs s i, P outs s → C outs s i → P (outs ++ (step s i).2) (step s i).1) :
    EveryStep step s₀ is fun outs s _ => P outs s := by
  intro js i hpre
  exact (h.of_prefix step ((List.prefix_append js [i]).trans hpre)).final step h₀ hstep

/-- **The rule of progress.**  What has been reached is kept, and each step of a path gets one stage
    further from wherever at least the stage before it was reached; then a run that takes the steps
    of the path in their order, with anything in between, reaches the last stage. -/
theorem run_reaches {P : Nat → σ → Prop} {Q : ι → Prop} {path is : List ι}
    (hkeep : ∀ n s i, Q i → P n s → P n (step s i).1)
    (hclimb : ∀ n i, path[n]? = some i → ∀ s, P n s → P (n + 1) (step s i).1)
    (hpath : path.Sublist is) (hQ : ∀ i ∈ is, Q i) {s : σ} (h₀ : P 0 s) :
    P path.length (run step s is).1 := by
  -- what is left of the path, from the stage that is reached
  have hrest : ∀ rest : List ι, rest.Sublist is → ∀ n, rest = path.drop n → n ≤ path.length →
      ∀ s, P n s → P path.length (run step s is).1 := by
    clear h₀ hpath
    induction is with
    | nil =>
      intro rest hrest n hdrop hn s hs
      have hempty : path.length - n = 0 := by
        rw [← List.length_drop, ← hdrop, List.sublist_nil.mp hrest, List.length_nil]
      rwa [show path.length = n by omega]
    | cons i is ih =>
      intro rest hrest n hdrop hn s hs
      have hQ' : ∀ j ∈ is, Q j := fun j hj => hQ j (List.mem_cons_of_mem i hj)
      rw [run_cons]
      cases hrest with
      | cons _ hsub =>
        have hkept := hkeep n s i (hQ i List.mem_cons_self) hs
        exact ih hQ' rest hsub n hdrop hn _ hkept
      | cons_cons _ hsub =>
        have hlt : n < path.length := by
          by_contra hge
          rw [List.drop_of_length_le (by omega)] at hdrop
          cases hdrop
        rw [List.drop_eq_getElem_cons hlt] at hdrop
        injection hdrop with hi hdrop
        have hget : path[n]? = some i := by rw [List.getElem?_eq_getElem hlt, hi]
        exact ih hQ' _ hsub (n + 1) hdrop hlt _ (hclimb n i hget s hs)
  exact hrest path hpath 0 rfl (Nat.zero_le _) s h₀

/-! ## Histories -/

section

variable {α : Type} {q p : α → Prop} {history : List α} {x : α}

/-- Something of the kind `p` happened, and since then only what is of the kind `q`. -/
def Since (q p : α → Prop) (history : List α) : Prop :=
  ∃ before x after, history = before ++ x :: after ∧ p x ∧ ∀ y ∈ after, q y

theorem not_since_nil : ¬Since q p [] := by
  rintro ⟨before, x, after, h, -⟩
  exact absurd h.symm (List.append_ne_nil_of_right_ne_nil before (List.cons_ne_nil x after))

/-- What one more event changes. -/
theorem since_concat : Since q p (history ++ [x]) ↔ p x ∨ q x ∧ Since q p history := by
  constructor
  · rintro ⟨before, y, after, h, hy, hafter⟩
    rcases List.eq_nil_or_concat after with rfl | ⟨after, last, rfl⟩
    · obtain ⟨-, hlast⟩ := List.append_inj' h rfl
      injection hlast with hlast
      exact .inl (hlast ▸ hy)
    · rw [List.concat_eq_append] at h hafter
      rw [← List.cons_append, ← List.append_assoc] at h
      obtain ⟨hhistory, hlast⟩ := List.append_inj' h rfl
      injection hlast with hlast
      refine .inr ⟨?_, before, y, after, hhistory, hy, ?_⟩
      · rw [hlast]
        exact hafter last (List.mem_append_right after (List.mem_singleton_self last))
      · exact fun z hz => hafter z (List.mem_append_left [last] hz)
  · rintro (hx | ⟨hx, before, y, after, rfl, hy, hafter⟩)
    · exact ⟨history, x, [], rfl, hx, fun _ hz => (by cases hz)⟩
    · refine ⟨before, y, after ++ [x], by rw [List.append_assoc, List.cons_append], hy, ?_⟩
      intro z hz
      rcases List.mem_append.mp hz with hz | hz
      · exact hafter z hz
      · rw [List.mem_singleton.mp hz]
        exact hx

end

end SelfKvm.Mealy
