/-
  Switches seen through a map.

  Someone flips switches; what is heard of a flip is the lamp that `f` assigns to the switch, if any,
  and which way it went.  A switch or a lamp is on if the last that was heard of it says so.

  If `f` is injective where it is defined, the lamps are what the switches are.  Otherwise two
  switches may share a lamp: it is then as the last flip of either leaves it.

  1. A lamp that is on always has a switch that is on (`exists_on`): nothing stays lit by itself.
  2. A lamp whose switch is on may be off: exactly from the moment on that a switch was turned off
     while another with the same lamp was on.  `mirrors_throughout_iff` says that lamps and switches
     agree at every moment of a run exactly if this never happens.
-/
import SelfKvm.Base.Mealy

namespace SelfKvm.Switches

variable {α β : Type} (f : α → Option β) {flips : List (α × Bool)} {a x : α} {y : β} {b : Bool}

/-- The last flip of the switch has turned it on. -/
def On (flips : List (α × Bool)) (x : α) : Prop :=
  Mealy.Since (fun flip => flip.1 ≠ x) (· = (x, true)) flips

/-- What is heard of the flips. -/
def through (flips : List (α × Bool)) : List (β × Bool) :=
  flips.filterMap fun flip => (f flip.1).map (·, flip.2)

/-- Lamps and switches agree. -/
def Mirrors (flips : List (α × Bool)) : Prop :=
  ∀ y, On (through f flips) y ↔ ∃ x, f x = some y ∧ On flips x

/-- Turning `a` off turns off a lamp that another switch has on. -/
def Robs (flips : List (α × Bool)) (a : α) : Prop :=
  ∃ x, x ≠ a ∧ f x = f a ∧ f a ≠ none ∧ On flips x

@[simp] theorem not_on_nil : ¬On ([] : List (α × Bool)) x := Mealy.not_since_nil

/-- One more flip of a switch decides about it. -/
theorem on_concat_self : On (flips ++ [(x, b)]) x ↔ b = true := by
  unfold On
  rw [Mealy.since_concat]
  simp

/-- One more flip of another switch changes nothing. -/
theorem on_concat_of_ne (h : a ≠ x) : On (flips ++ [(a, b)]) x ↔ On flips x := by
  unfold On
  rw [Mealy.since_concat]
  simp [h]

theorem through_append (flips flips' : List (α × Bool)) :
    through f (flips ++ flips') = through f flips ++ through f flips' := List.filterMap_append

theorem through_concat_none (h : f a = none) (b : Bool) :
    through f (flips ++ [(a, b)]) = through f flips := by
  rw [through_append, through, through]
  simp [h]

theorem through_concat_some (h : f a = some y) (b : Bool) :
    through f (flips ++ [(a, b)]) = through f flips ++ [(y, b)] := by
  rw [through_append, through, through]
  simp [h]

/-- **No lamp is on by itself.** -/
theorem exists_on (h : On (through f flips) y) : ∃ x, f x = some y ∧ On flips x := by
  induction flips using List.reverseRecOn with
  | nil => exact absurd h not_on_nil
  | append_singleton flips flip ih =>
    obtain ⟨a, b⟩ := flip
    -- a switch that lights `y` and is not the one flipped stays as it was
    have hkept : f a ≠ some y → On (through f flips) y →
        ∃ x, f x = some y ∧ On (flips ++ [(a, b)]) x := by
      intro hne hon
      obtain ⟨x, hx, hxon⟩ := ih hon
      have hax : a ≠ x := by
        rintro rfl
        exact hne hx
      exact ⟨x, hx, (on_concat_of_ne hax).mpr hxon⟩
    cases ha : f a with
    | none =>
      rw [through_concat_none f ha] at h
      exact hkept (by rw [ha]; exact (Option.some_ne_none y).symm) h
    | some z =>
      rw [through_concat_some f ha] at h
      by_cases hz : z = y
      · subst hz
        exact ⟨a, ha, on_concat_self.mpr (on_concat_self.mp h)⟩
      · rw [on_concat_of_ne hz] at h
        exact hkept (by rw [ha]; exact fun heq => hz (Option.some.inj heq)) h

/-- **One flip**: the lamps go on agreeing with the switches exactly if it robs none of its light. -/
theorem Mirrors.concat_iff (h : Mirrors f flips) :
    Mirrors f (flips ++ [(a, b)]) ↔ (b = false → ¬Robs f flips a) := by
  constructor
  · rintro hafter rfl ⟨x, hxa, hfx, hsome, hon⟩
    obtain ⟨y, hy⟩ := Option.ne_none_iff_exists'.mp hsome
    have hlit := (hafter y).mpr ⟨x, hfx.trans hy, (on_concat_of_ne hxa.symm).mpr hon⟩
    rw [through_concat_some f hy, on_concat_self] at hlit
    cases hlit
  · intro hrob y
    refine ⟨exists_on f, ?_⟩
    rintro ⟨x, hx, hon⟩
    by_cases hax : a = x
    · subst hax
      rw [through_concat_some f hx, on_concat_self]
      exact on_concat_self.mp hon
    · rw [on_concat_of_ne hax] at hon
      have hlit := (h y).mpr ⟨x, hx, hon⟩
      cases ha : f a with
      | none => rwa [through_concat_none f ha]
      | some z =>
        rw [through_concat_some f ha]
        by_cases hz : z = y
        · -- the lamp is shared, so the flip must have turned it on
          subst hz
          rw [on_concat_self]
          cases b with
          | true => rfl
          | false =>
            have hnone : f a ≠ none := by rw [ha]; exact Option.some_ne_none z
            exact absurd ⟨x, Ne.symm hax, hx.trans ha.symm, hnone, hon⟩ (hrob rfl)
        · rwa [on_concat_of_ne hz]

theorem mirrors_nil : Mirrors f [] := by
  intro y
  simp [through]

/-- **Exactly when lamps and switches agree at every moment**, for a machine that puts out at most
    one flip a step. -/
theorem mirrors_throughout_iff {σ ι : Type} (step : σ → ι → σ × List (α × Bool))
    (hone : ∀ s i, (step s i).2 = [] ∨ ∃ flip, (step s i).2 = [flip]) (s₀ : σ) (is : List ι) :
    (∀ js, js <+: is → Mirrors f (Mealy.run step s₀ js).2) ↔
      Mealy.EveryStep step s₀ is fun flips s i =>
        ∀ a, (a, false) ∈ (step s i).2 → ¬Robs f flips a := by
  -- one step: what is put out is a flip, or nothing
  have hstep : ∀ flips s i, Mirrors f flips → (Mirrors f (flips ++ (step s i).2) ↔
      ∀ a, (a, false) ∈ (step s i).2 → ¬Robs f flips a) := by
    intro flips s i h
    rcases hone s i with hout | ⟨⟨a, b⟩, hout⟩
    · rw [hout, List.append_nil]
      exact ⟨fun _ a hmem => (by cases hmem), fun _ => h⟩
    · rw [hout, h.concat_iff f]
      refine ⟨?_, fun hall hb => hall a (by rw [hb]; exact List.mem_singleton_self _)⟩
      intro hrob c hmem
      obtain ⟨rfl, hb⟩ := Prod.mk.inj (List.mem_singleton.mp hmem)
      exact hrob hb.symm
  constructor
  · intro hall js i hpre
    have hbefore := hall js ((List.prefix_append js _).trans hpre)
    have hafter := hall _ hpre
    rw [Mealy.run_concat] at hafter
    exact (hstep _ _ i hbefore).mp hafter
  · intro hevery js hpre
    induction js using List.reverseRecOn with
    | nil => exact mirrors_nil f
    | append_singleton js i ih =>
      rw [Mealy.run_concat]
      exact (hstep _ _ i (ih ((List.prefix_append js _).trans hpre))).mpr (hevery js i hpre)

end SelfKvm.Switches
