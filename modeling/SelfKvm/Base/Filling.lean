/-
  Tables that a loop fills by overwriting.

  Some loops write the same entry of a table again and again, and never take one out.  If every
  value that is written is one a relation `T` allows, and `T` allows at most one value for each key,
  then nothing that is overwritten is lost, and the order of the writes does not matter.  `Fills`
  says of a piece of a program which entries are there after it; it composes along sequences,
  branches and loops, and `Fills.exact` reads the whole table off at the end.
-/

namespace SelfKvm.Filling

variable {σ α β ι : Type} (read : σ → α → Option β) (T : α → β → Prop)

/-- Every entry is one that `T` allows. -/
def Sound (s : σ) : Prop := ∀ p v, read s p = some v → T p v

/-- From `s` to `s'` no wrong value is written, no entry is taken out, and what `covers` names is
    filled. -/
structure Fills (covers : α → Prop) (s s' : σ) : Prop where
  sound : Sound read T s → Sound read T s'
  kept : ∀ p, (read s p).isSome → (read s' p).isSome
  filled : ∀ p, covers p → (read s' p).isSome

variable {read T} {covers covers' : α → Prop} {s s' s'' : σ}

/-- Doing nothing fills nothing. -/
theorem Fills.refl (s : σ) : Fills read T (fun _ => False) s s :=
  ⟨id, fun _ h => h, fun _ h => h.elim⟩

/-- What is covered by less is covered. -/
theorem Fills.mono (h : Fills read T covers s s') (himp : ∀ p, covers' p → covers p) :
    Fills read T covers' s s' :=
  ⟨h.sound, h.kept, fun p hp => h.filled p (himp p hp)⟩

/-- One after the other. -/
theorem Fills.trans (h : Fills read T covers s s') (h' : Fills read T covers' s' s'') :
    Fills read T (fun p => covers p ∨ covers' p) s s'' := by
  refine ⟨fun hs => h'.sound (h.sound hs), fun p hp => h'.kept p (h.kept p hp), ?_⟩
  rintro p (hp | hp)
  · exact h'.kept p (h.filled p hp)
  · exact h'.filled p hp

/-- In one branch only. -/
theorem Fills.ite {c : Prop} [Decidable c] (h : c → Fills read T covers s s') :
    Fills read T (fun p => c ∧ covers p) s (if c then s' else s) := by
  by_cases hc : c
  · rw [if_pos hc]
    exact (h hc).mono fun _ hp => hp.2
  · rw [if_neg hc]
    exact (Fills.refl s).mono fun _ hp => hc hp.1

/-- **In a loop**, under an invariant of its own. -/
theorem Fills.foldl {I : σ → Prop} {op : σ → ι → σ} {covers : ι → α → Prop} (is : List ι)
    (hop : ∀ s i, i ∈ is → I s → I (op s i) ∧ Fills read T (covers i) s (op s i)) {s : σ} (h : I s) :
    I (is.foldl op s) ∧ Fills read T (fun p => ∃ i ∈ is, covers i p) s (is.foldl op s) := by
  induction is generalizing s with
  | nil =>
    refine ⟨h, (Fills.refl s).mono ?_⟩
    rintro p ⟨i, hi, -⟩
    cases hi
  | cons i is ih =>
    obtain ⟨hI, hi⟩ := hop s i List.mem_cons_self h
    obtain ⟨hI', his⟩ := ih (fun s j hj => hop s j (List.mem_cons_of_mem i hj)) hI
    refine ⟨hI', (hi.trans his).mono ?_⟩
    rintro p ⟨j, hj, hp⟩
    rcases List.mem_cons.mp hj with rfl | hj
    · exact .inl hp
    · exact .inr ⟨j, hj, hp⟩

/-- **The whole table**: if each key has at most one value, and each that has one is covered, the
    table is the relation. -/
theorem Fills.exact (h : Fills read T covers s s') (hs : Sound read T s)
    (hunique : ∀ p v w, T p v → T p w → v = w) (hcover : ∀ p v, T p v → covers p) {p : α} {v : β} :
    read s' p = some v ↔ T p v := by
  constructor
  · exact h.sound hs p v
  · intro hT
    obtain ⟨w, hw⟩ := Option.isSome_iff_exists.mp (h.filled p (hcover p v hT))
    rw [hunique p v w hT (h.sound hs p w hw)]
    exact hw

end SelfKvm.Filling
