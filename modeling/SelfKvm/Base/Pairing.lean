/-
  Ports, each wired to at most one other.

  A wiring `m : α → Option α` says for each port where its wire leads.  It is `Mutual` when every
  wire leads back: what `p` is wired to is wired to `p`.  Programs break this by rewiring one end
  of a pair and forgetting the other.  `rewire m S f` replaces what is known of the ports in `S`
  and leaves the others alone, and `mutual_rewire_iff` says which replacements are harmless:
  exactly those that do not cut a wire from `S` to the outside.
-/
import Mathlib.Logic.Function.Basic

namespace SelfKvm.Pairing

variable {α : Type} {m : α → Option α}

/-- Every wire leads back. -/
def Mutual (m : α → Option α) : Prop := ∀ p q, m p = some q → m q = some p

/-- No wire leads out of `S`. -/
def Closed (m : α → Option α) (S : α → Prop) : Prop := ∀ p q, S p → m p = some q → S q

/-- The ports in `S` are wired anew. -/
def rewire (m : α → Option α) (S : α → Prop) [DecidablePred S] (f : α → Option α) (p : α) :
    Option α :=
  if S p then f p else m p

theorem rewire_of_mem {S : α → Prop} [DecidablePred S] {f : α → Option α} {p : α} (h : S p) :
    rewire m S f p = f p := if_pos h

theorem rewire_of_not_mem {S : α → Prop} [DecidablePred S] {f : α → Option α} {p : α} (h : ¬S p) :
    rewire m S f p = m p := if_neg h

/-- **Rewiring keeps the pairs exactly if it cuts no wire to the outside.** -/
theorem mutual_rewire_iff {S : α → Prop} [DecidablePred S] {f : α → Option α} (hm : Mutual m)
    (hf : ∀ p q, S p → f p = some q → S q ∧ f q = some p) :
    Mutual (rewire m S f) ↔ Closed m S := by
  constructor
  · intro h p q hp hpq
    by_contra hq
    -- the outer end of the wire still leads in
    have hback : rewire m S f q = some p := (rewire_of_not_mem hq).trans (hm p q hpq)
    have hinner : f p = some q := (rewire_of_mem hp).symm.trans (h q p hback)
    exact hq (hf p q hp hinner).1
  · intro hclosed p q hpq
    by_cases hp : S p
    · rw [rewire_of_mem hp] at hpq
      obtain ⟨hq, hqp⟩ := hf p q hp hpq
      exact (rewire_of_mem hq).trans hqp
    · rw [rewire_of_not_mem hp] at hpq
      have hqp := hm p q hpq
      have hq : ¬S q := fun hq => hp (hclosed q p hq hqp)
      exact (rewire_of_not_mem hq).trans hqp

end SelfKvm.Pairing
