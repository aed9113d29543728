/-
  One machine that talks to many over reliable first-in-first-out channels.

  The speaker's outputs are messages with an address or something private (`post`); every address
  has a queue and a listener, a machine of its own.  The environment interleaves freely: it gives
  the speaker an input, or lets one listener take the oldest message of its queue.

  `system_split` reduces this to two sequential runs.  Whatever the interleaving, the speaker is
  where its inputs alone would have taken it, each queue holds what was addressed to the listener
  and not yet taken, and the listener is where the taken messages alone would have taken it.  So
  when a queue is empty, listener and speaker can be compared as if every message had arrived at
  once (`system_drained`).
-/
import SelfKvm.Base.Mealy
import Mathlib.Logic.Function.Basic

namespace SelfKvm.Fifo

open Mealy

variable {α μ σ ι ο κ τ : Type}

/-- The speaker, and for each address a queue, a listener and what the listener has put out. -/
structure System (α μ σ κ τ : Type) where
  speaker : σ
  queue : α → List μ
  listener : α → κ
  log : α → List τ

/-- What the environment does next. -/
inductive Event (α ι : Type) where
  | input (i : ι)
  | deliver (a : α)

/-- The speaker's inputs among the events. -/
def inputs : List (Event α ι) → List ι
  | [] => []
  | .input i :: es => i :: inputs es
  | .deliver _ :: es => inputs es

theorem inputs_append (es fs : List (Event α ι)) : inputs (es ++ fs) = inputs es ++ inputs fs := by
  induction es with
  | nil => rfl
  | cons e es ih =>
    cases e with
    | input i => exact congrArg (i :: ·) ih
    | deliver a => exact ih

theorem inputs_replicate (n : Nat) (a : α) :
    inputs (List.replicate n (Event.deliver (ι := ι) a)) = [] := by
  induction n with
  | zero => rfl
  | succ n ih => exact ih

theorem inputs_map (is : List ι) : inputs (is.map (Event.input (α := α))) = is := by
  induction is with
  | nil => rfl
  | cons i is ih => exact congrArg (i :: ·) ih

variable [DecidableEq α] (say : σ → ι → σ × List ο) (post : ο → Option (α × μ)) (hear : κ → μ → κ × List τ)

/-- The messages among the outputs that are addressed to `a`, in order. -/
def addressed (a : α) (outs : List ο) : List μ :=
  outs.filterMap fun o =>
    match post o with
    | some (b, m) => if b = a then some m else none
    | none => none

theorem addressed_append (a : α) (outs outs' : List ο) :
    addressed post a (outs ++ outs') = addressed post a outs ++ addressed post a outs' :=
  List.filterMap_append

/-- One event. -/
def System.step (S : System α μ σ κ τ) : Event α ι → System α μ σ κ τ
  | .input i =>
    { S with
      speaker := (say S.speaker i).1
      queue := fun a => S.queue a ++ addressed post a (say S.speaker i).2 }
  | .deliver a =>
    match S.queue a with
    | [] => S
    | m :: rest =>
      { S with
        queue := Function.update S.queue a rest
        listener := Function.update S.listener a (hear (S.listener a) m).1
        log := Function.update S.log a (S.log a ++ (hear (S.listener a) m).2) }

/-- A sequence of events. -/
def System.run (S : System α μ σ κ τ) (es : List (Event α ι)) : System α μ σ κ τ :=
  es.foldl (System.step say post hear) S

/-- Nothing said, nothing under way. -/
def System.init (s₀ : σ) (l₀ : α → κ) : System α μ σ κ τ := ⟨s₀, fun _ => [], l₀, fun _ => []⟩

/-- **Every interleaving is two sequential runs per channel**: what the speaker said to `a` is what
    `a` has taken followed by what is still queued, and `a` has run on what it took. -/
theorem system_split (s₀ : σ) (l₀ : α → κ) (es : List (Event α ι)) :
    let S := System.run say post hear (System.init s₀ l₀) es
    S.speaker = (Mealy.run say s₀ (inputs es)).1 ∧
    ∀ a, ∃ taken, addressed post a (Mealy.run say s₀ (inputs es)).2 = taken ++ S.queue a ∧
      (S.listener a, S.log a) = Mealy.run hear (l₀ a) taken := by
  induction es using List.reverseRecOn with
  | nil => exact ⟨rfl, fun a => ⟨[], rfl, rfl⟩⟩
  | append_singleton es e ih =>
    simp only [System.run, List.foldl_append, List.foldl_cons, List.foldl_nil] at ih ⊢
    generalize List.foldl (System.step say post hear) (System.init s₀ l₀) es = S at ih
    obtain ⟨hspeaker, hchannels⟩ := ih
    cases e with
    | input i =>
      rw [inputs_append, show inputs [Event.input (α := α) i] = [i] from rfl, run_concat, ← hspeaker]
      refine ⟨rfl, ?_⟩
      intro a
      obtain ⟨taken, hsaid, hheard⟩ := hchannels a
      refine ⟨taken, ?_, hheard⟩
      show addressed post a _ = taken ++ (S.queue a ++ _)
      rw [addressed_append, hsaid, List.append_assoc]
    | deliver b =>
      rw [inputs_append, show inputs [Event.deliver (ι := ι) b] = [] from rfl, List.append_nil]
      cases hq : S.queue b with
      | nil =>
        have hstep : S.step say post hear (.deliver b) = S := by
          simp only [System.step, hq]
        rw [hstep]
        exact ⟨hspeaker, hchannels⟩
      | cons m rest =>
        simp only [System.step, hq]
        refine ⟨hspeaker, ?_⟩
        intro a
        obtain ⟨taken, hsaid, hheard⟩ := hchannels a
        by_cases hab : a = b
        · -- the channel that moved: its oldest message changes sides
          subst hab
          refine ⟨taken ++ [m], ?_, ?_⟩
          · rw [hsaid, hq, Function.update_self, List.append_assoc, List.singleton_append]
          · rw [Function.update_self, Function.update_self, run_concat, ← hheard]
        · refine ⟨taken, ?_, ?_⟩
          · rw [hsaid, Function.update_of_ne hab]
          · rw [Function.update_of_ne hab, Function.update_of_ne hab]
            exact hheard

/-- **A drained channel has no memory of the interleaving**: its listener has run on everything the
    speaker ever addressed to it. -/
theorem system_drained (s₀ : σ) (l₀ : α → κ) (es : List (Event α ι)) {a : α}
    (hq : (System.run say post hear (System.init s₀ l₀) es).queue a = []) :
    ((System.run say post hear (System.init s₀ l₀) es).listener a,
        (System.run say post hear (System.init s₀ l₀) es).log a)
      = Mealy.run hear (l₀ a) (addressed post a (Mealy.run say s₀ (inputs es)).2) := by
  obtain ⟨-, hchannels⟩ := system_split say post hear s₀ l₀ es
  obtain ⟨taken, hsaid, hheard⟩ := hchannels a
  rw [hq, List.append_nil] at hsaid
  rw [hsaid]
  exact hheard

/-- Deliveries take the front of the queue. -/
theorem queue_delivered {S : System α μ σ κ τ} {a : α} {front rest : List μ}
    (h : S.queue a = front ++ rest) :
    (System.run say post hear S (List.replicate front.length (.deliver a))).queue a = rest := by
  induction front generalizing S with
  | nil => exact h
  | cons m front ih =>
    rw [List.length_cons, List.replicate_succ]
    show (System.run say post hear (S.step say post hear (.deliver a)) _).queue a = rest
    apply ih
    rw [List.cons_append] at h
    simp only [System.step, h, Function.update_self]

/-- **Every message gets its turn**: whatever is said to `a`, some interleaving has delivered the
    front of it and no more. -/
theorem exists_queue (s₀ : σ) (l₀ : α → κ) (is : List ι) {a : α} {front rest : List μ}
    (h : addressed post a (Mealy.run say s₀ is).2 = front ++ rest) :
    ∃ es, inputs es = is ∧
      (System.run say post hear (System.init s₀ l₀) es).queue a = rest := by
  have hsaid : ∀ (s : σ) (S : System α μ σ κ τ), S.speaker = s →
      (System.run say post hear S (is.map .input)).queue a
        = S.queue a ++ addressed post a (Mealy.run say s is).2 := by
    clear h
    induction is with
    | nil => exact fun s S _ => (List.append_nil _).symm
    | cons i is ih =>
      rintro _ S rfl
      rw [Mealy.run_cons, addressed_append, ← List.append_assoc]
      exact ih _ (S.step say post hear (.input i)) rfl
  refine ⟨is.map .input ++ List.replicate front.length (.deliver a), ?_, ?_⟩
  · rw [inputs_append, inputs_replicate, inputs_map, List.append_nil]
  · rw [System.run, List.foldl_append]
    refine queue_delivered say post hear (S := System.run say post hear _ (is.map .input)) ?_
    rw [hsaid s₀ _ rfl, h]
    rfl

/-- Every channel can be drained: deliver as often as there are messages. -/
theorem exists_drained (s₀ : σ) (l₀ : α → κ) (is : List ι) (a : α) :
    ∃ es, inputs es = is ∧
      (System.run say post hear (System.init s₀ l₀) es).queue a = [] :=
  exists_queue say post hear s₀ l₀ is (List.append_nil _).symm

end SelfKvm.Fifo
