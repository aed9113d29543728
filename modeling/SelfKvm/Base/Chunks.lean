/-
  Cutting a list into blocks, and reading a stream block by block.

  `chunks n bs` cuts `bs` into blocks of `n`, the last one possibly shorter.  Together the blocks
  are the list (`chunks_flatten`), none is empty and none is longer than `n`
  (`chunks_mem_length`), and there are `⌈length / n⌉` of them (`chunks_length`).

  `Delivers.readLoop_chunks` ties this to byte sources: filling a buffer of `n` again and again
  from a source worth `bs` gives these blocks one after the other, whatever the source's own
  pieces were.
-/
import SelfKvm.Base.Source

namespace SelfKvm.Source

variable {β ε : Type}

/-- Blocks of `n` tokens, the last one possibly shorter. -/
def chunks (n : Nat) (bs : List β) : List (List β) :=
  if 0 < n ∧ 0 < bs.length then
    bs.take n :: chunks n (bs.drop n)
  else
    []
termination_by bs.length
decreasing_by
  rw [List.length_drop]
  omega

@[simp] theorem chunks_nil (n : Nat) : chunks n ([] : List β) = [] := by
  unfold chunks
  simp

/-- A nonempty list starts with a block, and the rest is cut in the same way. -/
theorem chunks_of_pos {n : Nat} {bs : List β} (hn : 0 < n) (hbs : 0 < bs.length) :
    chunks n bs = bs.take n :: chunks n (bs.drop n) := by
  rw [chunks, if_pos ⟨hn, hbs⟩]

/-- The blocks in order are the list. -/
theorem chunks_flatten {n : Nat} (hn : 0 < n) (bs : List β) : (chunks n bs).flatten = bs := by
  induction bs using chunks.induct n with
  | case1 bs h ih => rw [chunks_of_pos h.1 h.2, List.flatten_cons, ih, List.take_append_drop]
  | case2 bs h =>
    have hbs : bs = [] := List.eq_nil_of_length_eq_zero (by omega)
    rw [hbs, chunks_nil, List.flatten_nil]

/-- No block is empty, and none is longer than `n`. -/
theorem chunks_mem_length {n : Nat} {bs c : List β} (hc : c ∈ chunks n bs) :
    0 < c.length ∧ c.length ≤ n := by
  induction bs using chunks.induct n with
  | case1 bs h ih =>
    rw [chunks_of_pos h.1 h.2] at hc
    rcases List.mem_cons.mp hc with rfl | hc
    · rw [List.length_take]
      omega
    · exact ih hc
  | case2 bs h =>
    rw [chunks, if_neg h] at hc
    cases hc

/-- There are as many blocks as the length divided by `n`, rounded up. -/
theorem chunks_length {n : Nat} (hn : 0 < n) (bs : List β) :
    (chunks n bs).length = (bs.length + n - 1) / n := by
  induction bs using chunks.induct n with
  | case1 bs h ih =>
    obtain ⟨-, hbs⟩ := h
    rw [chunks_of_pos hn hbs, List.length_cons, ih, List.length_drop]
    by_cases hle : n ≤ bs.length
    · rw [show bs.length + n - 1 = bs.length - n + n - 1 + n by omega, Nat.add_div_right _ hn]
    · rw [show bs.length - n + n - 1 = n - 1 by omega, Nat.div_eq_of_lt (by omega),
        show bs.length + n - 1 = bs.length - 1 + n by omega, Nat.add_div_right _ hn,
        Nat.div_eq_of_lt (by omega)]
  | case2 bs h =>
    have hbs : bs = [] := List.eq_nil_of_length_eq_zero (by omega)
    rw [hbs, chunks_nil]
    exact (Nat.div_eq_of_lt (by simp; omega)).symm

/-- **One filled buffer is one block.**  From a source worth `bs`, the loop returns the first block,
    leaving a source worth the other blocks. -/
theorem Delivers.readLoop_chunks {src : Answers β ε} {bs : List β} (h : Delivers src bs) {n : Nat}
    (hn : 0 < n) (hbs : 0 < bs.length) :
    ∃ src', Source.readLoop src n = (.ok (bs.take n), src') ∧ 0 < (bs.take n).length ∧
      Delivers src' (bs.drop n) ∧ chunks n bs = bs.take n :: chunks n (bs.drop n) := by
  obtain ⟨src', hloop, h'⟩ := h.readLoop n
  refine ⟨src', hloop, ?_, h', chunks_of_pos hn hbs⟩
  rw [List.length_take]
  omega

/-- When everything is used up, the loop returns nothing. -/
theorem Delivers.readLoop_nil {src : Answers β ε} (h : Delivers src []) (n : Nat) :
    ∃ src', Source.readLoop src n = (.ok [], src') := by
  obtain ⟨src', hloop, -⟩ := h.readLoop n
  rw [List.take_nil] at hloop
  exact ⟨src', hloop⟩

/-! ## Reading uses a source up -/

/-- How much is still to come: the tokens, and one for every answer. -/
def weight : Answers β ε → Nat
  | [] => 0
  | .error _ :: src => weight src + 1
  | .ok c :: src => weight src + c.length + 1

theorem read_weight_le {src src' : Answers β ε} {room : Nat} {r : Except ε (List β)}
    (h : Source.read src room = (r, src')) : weight src' ≤ weight src := by
  cases src with
  | nil =>
    obtain ⟨-, rfl⟩ := Prod.mk.inj h
    exact Nat.le_refl _
  | cons a src =>
    cases a with
    | error e =>
      obtain ⟨-, rfl⟩ := Prod.mk.inj h
      exact Nat.le_succ _
    | ok c =>
      by_cases hc : c.length ≤ room
      · rw [Source.read, if_pos hc] at h
        obtain ⟨-, rfl⟩ := Prod.mk.inj h
        simp only [weight]
        omega
      · rw [Source.read, if_neg hc] at h
        obtain ⟨-, rfl⟩ := Prod.mk.inj h
        simp only [weight, List.length_drop]
        omega

/-- A read that gave something left less behind. -/
theorem read_weight_lt {src src' : Answers β ε} {room : Nat} {c : List β}
    (h : Source.read src room = (.ok c, src')) (hc : 0 < c.length) : weight src' < weight src := by
  cases src with
  | nil =>
    obtain ⟨hc', -⟩ := Prod.mk.inj h
    cases hc'
    cases hc
  | cons a src =>
    cases a with
    | error e => cases (Prod.mk.inj h).1
    | ok d =>
      by_cases hd : d.length ≤ room
      · rw [Source.read, if_pos hd] at h
        obtain ⟨-, rfl⟩ := Prod.mk.inj h
        simp only [weight]
        omega
      · rw [Source.read, if_neg hd] at h
        obtain ⟨hc', rfl⟩ := Prod.mk.inj h
        cases hc'
        rw [List.length_take] at hc
        simp only [weight, List.length_drop]
        omega

theorem readLoop_weight_le {src src' : Answers β ε} {room : Nat} {r : Except ε (List β)}
    (h : Source.readLoop src room = (r, src')) : weight src' ≤ weight src := by
  induction room using Nat.strongRecOn generalizing src r src' with
  | ind room ih =>
    unfold Source.readLoop at h
    split at h
    · split at h
      · rename_i e src₁ hread
        obtain ⟨-, rfl⟩ := Prod.mk.inj h
        exact read_weight_le hread
      · rename_i d src₁ hread
        have hle := read_weight_le hread
        split at h
        · rename_i hd
          split at h
          all_goals
            rename_i src₂ hloop
            obtain ⟨-, rfl⟩ := Prod.mk.inj h
            exact Nat.le_trans (ih _ (by omega) hloop) hle
        · obtain ⟨-, rfl⟩ := Prod.mk.inj h
          exact hle
    · obtain ⟨-, rfl⟩ := Prod.mk.inj h
      exact Nat.le_refl _

/-- A filled buffer was paid for by the source. -/
theorem readLoop_weight_lt {src src' : Answers β ε} {room : Nat} {c : List β}
    (h : Source.readLoop src room = (.ok c, src')) (hc : 0 < c.length) :
    weight src' < weight src := by
  unfold Source.readLoop at h
  split at h
  · split at h
    · cases (Prod.mk.inj h).1
    · rename_i d src₁ hread
      split at h
      · rename_i hd
        have hlt := read_weight_lt hread hd
        split at h
        · cases (Prod.mk.inj h).1
        · rename_i src₂ hloop
          obtain ⟨-, rfl⟩ := Prod.mk.inj h
          exact Nat.lt_of_le_of_lt (readLoop_weight_le hloop) hlt
      · obtain ⟨hc', -⟩ := Prod.mk.inj h
        cases hc'
        cases hc
  · obtain ⟨hc', -⟩ := Prod.mk.inj h
    cases hc'
    cases hc

end SelfKvm.Source
