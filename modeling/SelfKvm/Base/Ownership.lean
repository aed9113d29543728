/-
  A table shared by agents, each of which owns some of its entries.

  Agents that create, rewrite and remove entries of one table stay out of each other's way when each
  change is to a name the agent owns or to a name that is free.  `Split base own table` says what
  the table then is: the entries of the start, untouched, and beside them the entries of the
  agents, each of one agent only.  `Split.set` is the only rule; creating, rewriting and removing
  are cases of it, and a renaming is two of them.
-/
import Mathlib.Logic.Function.Basic

namespace SelfKvm.Ownership

variable {ι N C : Type}

/-- `table` is `base` with what the agents own beside it. -/
structure Split (base : N → Option C) (own : ι → N → Option C) (table : N → Option C) : Prop where
  kept : ∀ n c, base n = some c → table n = some c
  /-- Nobody owns what was there at the start. -/
  fresh : ∀ i n c, own i n = some c → base n = none
  held : ∀ i n c, own i n = some c → table n = some c
  apart : ∀ i j n c c', own i n = some c → own j n = some c' → i = j
  covered : ∀ n c, table n = some c → base n = some c ∨ ∃ i, own i n = some c

/-- At the start nobody owns anything. -/
theorem Split.init (base : N → Option C) : Split base (fun (_ : ι) _ => none) base where
  kept := fun _ _ h => h
  fresh := fun _ _ _ h => by cases h
  held := fun _ _ _ h => by cases h
  apart := fun _ _ _ _ _ h => by cases h
  covered := fun _ _ h => .inl h

/-- A name that is free or `i`'s was not there at the start. -/
theorem Split.base_none {base table : N → Option C} {own : ι → N → Option C}
    (h : Split base own table) {i : ι} {n : N} (hn : table n = none ∨ own i n ≠ none) :
    base n = none := by
  rcases hn with hn | hn
  · cases hb : base n with
    | none => rfl
    | some c =>
      rw [h.kept n c hb] at hn
      cases hn
  · obtain ⟨c, hc⟩ := Option.ne_none_iff_exists'.mp hn
    exact h.fresh i n c hc

/-- A name that is free or `i`'s is nobody else's. -/
theorem Split.own_none {base table : N → Option C} {own : ι → N → Option C}
    (h : Split base own table) {i j : ι} {n : N} (hn : table n = none ∨ own i n ≠ none)
    (hj : j ≠ i) : own j n = none := by
  cases hc : own j n with
  | none => rfl
  | some c =>
    rcases hn with hn | hn
    · rw [h.held j n c hc] at hn
      cases hn
    · obtain ⟨c', hc'⟩ := Option.ne_none_iff_exists'.mp hn
      exact absurd (h.apart j i n c c' hc hc') hj

variable [DecidableEq ι] [DecidableEq N]

/-- **The rule.**  An agent may set a name that is free or its own to anything, or to nothing. -/
theorem Split.set {base table : N → Option C} {own : ι → N → Option C} (h : Split base own table)
    (i : ι) (n : N) (hn : table n = none ∨ own i n ≠ none) (v : Option C) :
    Split base (Function.update own i (Function.update (own i) n v))
      (Function.update table n v) := by
  -- the new possessions, name by name
  have hown : ∀ j m, Function.update own i (Function.update (own i) n v) j m =
      if m = n then (if j = i then v else none) else own j m := by
    intro j m
    by_cases hj : j = i
    · subst hj
      rw [Function.update_self, if_pos rfl]
      by_cases hm : m = n
      · rw [hm, Function.update_self, if_pos rfl]
      · rw [Function.update_of_ne hm, if_neg hm]
    · rw [Function.update_of_ne hj]
      by_cases hm : m = n
      · rw [if_pos hm, if_neg hj, hm]
        exact h.own_none hn hj
      · rw [if_neg hm]
  -- what somebody owns under `n` is now `v`, and it is `i` who owns it
  have hset : ∀ j c, Function.update own i (Function.update (own i) n v) j n = some c →
      j = i ∧ v = some c := by
    intro j c hj
    rw [hown, if_pos rfl] at hj
    by_cases hji : j = i
    · rw [if_pos hji] at hj
      exact ⟨hji, hj⟩
    · rw [if_neg hji] at hj
      cases hj
  constructor
  · intro m c hm
    have hne : m ≠ n := by
      rintro rfl
      rw [h.base_none hn] at hm
      cases hm
    rw [Function.update_of_ne hne]
    exact h.kept m c hm
  · intro j m c hj
    by_cases hm : m = n
    · rw [hm]
      exact h.base_none hn
    · rw [hown, if_neg hm] at hj
      exact h.fresh j m c hj
  · intro j m c hj
    by_cases hm : m = n
    · subst hm
      rw [Function.update_self]
      exact (hset j c hj).2
    · rw [hown, if_neg hm] at hj
      rw [Function.update_of_ne hm]
      exact h.held j m c hj
  · intro j k m c c' hj hk
    by_cases hm : m = n
    · subst hm
      exact (hset j c hj).1.trans (hset k c' hk).1.symm
    · rw [hown, if_neg hm] at hj hk
      exact h.apart j k m c c' hj hk
  · intro m c hm
    by_cases hmn : m = n
    · rw [hmn, Function.update_self] at hm
      right
      refine ⟨i, ?_⟩
      rw [hown, if_pos hmn, if_pos rfl]
      exact hm
    · rw [Function.update_of_ne hmn] at hm
      rcases h.covered m c hm with hb | ⟨j, hj⟩
      · exact .inl hb
      · right
        refine ⟨j, ?_⟩
        rw [hown, if_neg hmn]
        exact hj

/-- The entry `n` and nothing else. -/
def only (n : N) (c : C) : N → Option C := Function.update (fun _ => none) n (some c)

@[simp] theorem only_self (n : N) (c : C) : only n c n = some c := Function.update_self ..

theorem only_of_ne {n m : N} (h : m ≠ n) (c : C) : only n c m = none := Function.update_of_ne h ..

/-- Whoever owns one entry owns no other. -/
theorem eq_of_only {n m : N} {c c' : C} (h : only n c m = some c') : m = n ∧ c' = c := by
  by_cases hm : m = n
  · subst hm
    rw [only_self] at h
    injection h with h
    exact ⟨rfl, h.symm⟩
  · rw [only_of_ne hm] at h
    cases h

@[simp] theorem only_update (n : N) (c c' : C) :
    Function.update (only n c) n (some c') = only n c' := Function.update_idem ..

@[simp] theorem only_remove (n : N) (c : C) :
    Function.update (only n c) n none = fun _ => none := by
  unfold only
  rw [Function.update_idem]
  exact Function.update_eq_self n _

/-- An entry that takes the place of another one. -/
theorem only_rename {n m : N} (h : m ≠ n) (c c' : C) :
    Function.update (Function.update (only n c) m (some c')) n none = only m c' := by
  rw [Function.update_comm h, only_remove]
  rfl

end SelfKvm.Ownership
