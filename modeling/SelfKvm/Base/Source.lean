/-
  Byte sources that answer a read with as much as they please.

  A socket or a file gives the bytes of one stream, but each `read` may return fewer of them than
  the caller's buffer has room for.  Programs hide this behind a loop that keeps reading until the
  buffer is full or the stream is over.  `readLoop` is that loop; `Delivers src bs` says what a
  source is worth — it will hand over exactly the tokens `bs` and then report the end, in pieces
  nobody knows.  The one fact programs need is `Delivers.readLoop`: the loop takes the first `room`
  tokens off the stream, however it was cut, and leaves a source worth the rest.

  A source is the list of its future answers.  An answer that does not fit is cut by `read`, so a
  list covers every way in which reads can be short.
-/

namespace SelfKvm.Source

/-- The answers a stream will give, in order; after the last one it is at its end. -/
abbrev Answers (β ε : Type) : Type := List (Except ε (List β))

variable {β ε : Type}

/-- One `read` into a buffer with room for `room` tokens.  No token at all means the end. -/
def read (src : Answers β ε) (room : Nat) : Except ε (List β) × Answers β ε :=
  match src with
  | [] => (.ok [], [])
  | .error e :: src => (.error e, src)
  | .ok c :: src =>
    if c.length ≤ room then (.ok c, src) else (.ok (c.take room), .ok (c.drop room) :: src)

/-- Read until `room` tokens have arrived, the stream ends or a read fails. -/
def readLoop (src : Answers β ε) (room : Nat) : Except ε (List β) × Answers β ε :=
  if 0 < room then
    match read src room with
    | (.error e, src) => (.error e, src)
    | (.ok c, src) =>
      if 0 < c.length then
        match readLoop src (room - c.length) with
        | (.error e, src) => (.error e, src)
        | (.ok cs, src) => (.ok (c ++ cs), src)
      else
        (.ok [], src)
  else
    (.ok [], src)
termination_by room

/-! ## What a source is worth -/

/-- `Delivers src bs` — no read of `src` fails or is empty, and together they give `bs`. -/
inductive Delivers : Answers β ε → List β → Prop
  | done : Delivers [] []
  | read {src : Answers β ε} {c bs : List β} (hc : 0 < c.length) (h : Delivers src bs) :
      Delivers (.ok c :: src) (c ++ bs)

/-- Every list of tokens is worth what it holds when it comes in one piece. -/
theorem delivers_whole {bs : List β} (h : 0 < bs.length) : Delivers (ε := ε) [.ok bs] bs := by
  have hd : Delivers (ε := ε) [.ok bs] (bs ++ []) := .read h .done
  rwa [List.append_nil] at hd

/-- A read gives a nonempty piece off the front, unless there is nothing left. -/
theorem Delivers.read_cases {src : Answers β ε} {bs : List β} (h : Delivers src bs) {room : Nat}
    (hroom : 0 < room) :
    (bs = [] ∧ Source.read src room = (.ok [], src)) ∨
    ∃ n src', 0 < n ∧ n ≤ room ∧ n ≤ bs.length ∧
      Source.read src room = (.ok (bs.take n), src') ∧ Delivers src' (bs.drop n) := by
  cases h with
  | done => exact .inl ⟨rfl, rfl⟩
  | @read src c bs hc h =>
    right
    by_cases hle : c.length ≤ room
    · refine ⟨c.length, src, hc, hle, ?_, ?_, ?_⟩
      · rw [List.length_append]
        omega
      · show (if c.length ≤ room then _ else _) = _
        rw [if_pos hle, List.take_left]
      · rwa [List.drop_left]
    · -- the answer is longer than the buffer: its tail is the next answer
      have hlt : room < c.length := by omega
      have hpos : 0 < (c.drop room).length := by
        rw [List.length_drop]
        omega
      refine ⟨room, .ok (c.drop room) :: src, hroom, Nat.le_refl _, ?_, ?_, ?_⟩
      · rw [List.length_append]
        omega
      · show (if c.length ≤ room then _ else _) = _
        rw [if_neg hle, List.take_append_of_le_length (Nat.le_of_lt hlt)]
      · rw [List.drop_append_of_le_length (Nat.le_of_lt hlt)]
        exact .read hpos h

/-- **The loop undoes the cutting**: it returns the first `room` tokens of the stream, or all of
    them when there are fewer, and leaves a source worth the rest. -/
theorem Delivers.readLoop {src : Answers β ε} {bs : List β} (h : Delivers src bs) (room : Nat) :
    ∃ src', Source.readLoop src room = (.ok (bs.take room), src') ∧
      Delivers src' (bs.drop room) := by
  induction room using Nat.strongRecOn generalizing src bs with
  | ind room ih =>
    unfold Source.readLoop
    by_cases hroom : 0 < room
    · rw [if_pos hroom]
      rcases h.read_cases hroom with ⟨rfl, hread⟩ | ⟨n, src', hn, hle, hlen, hread, h'⟩
      · rw [hread, List.take_nil, List.drop_nil]
        exact ⟨src, rfl, h⟩
      · obtain ⟨src'', hloop, h''⟩ := ih (room - n) (by omega) h'
        have hlen' : (bs.take n).length = n := List.length_take_of_le hlen
        rw [hread]
        simp only [hlen', hn, if_true, hloop]
        refine ⟨src'', ?_, ?_⟩
        · rw [← List.take_add, Nat.add_sub_cancel' hle]
        · rwa [List.drop_drop, Nat.add_sub_cancel' hle] at h''
    · obtain rfl : room = 0 := by omega
      rw [if_neg hroom]
      exact ⟨src, rfl, h⟩

/-! ## How much is read -/

/-- A read gives no more than the buffer has room for. -/
theorem read_length_le {src src' : Answers β ε} {room : Nat} {c : List β}
    (h : Source.read src room = (.ok c, src')) : c.length ≤ room := by
  unfold Source.read at h
  split at h
  · obtain ⟨hc, -⟩ := Prod.mk.inj h
    cases hc
    exact Nat.zero_le _
  · cases (Prod.mk.inj h).1
  · split at h
    · rename_i hle
      obtain ⟨hc, -⟩ := Prod.mk.inj h
      cases hc
      exact hle
    · obtain ⟨hc, -⟩ := Prod.mk.inj h
      cases hc
      rw [List.length_take]
      omega

/-- Nor does the loop, whatever the source answers. -/
theorem readLoop_length_le {src src' : Answers β ε} {room : Nat} {c : List β}
    (h : Source.readLoop src room = (.ok c, src')) : c.length ≤ room := by
  induction room using Nat.strongRecOn generalizing src c src' with
  | ind room ih =>
    unfold Source.readLoop at h
    split at h
    · split at h
      · cases (Prod.mk.inj h).1
      · rename_i d src₁ hread
        have hle := read_length_le hread
        split at h
        · split at h
          · cases (Prod.mk.inj h).1
          · rename_i hd cs src₂ hloop
            obtain ⟨hc, -⟩ := Prod.mk.inj h
            cases hc
            have hrest := ih _ (by omega) hloop
            rw [List.length_append]
            omega
        · obtain ⟨hc, -⟩ := Prod.mk.inj h
          cases hc
          exact Nat.zero_le _
    · obtain ⟨hc, -⟩ := Prod.mk.inj h
      cases hc
      exact Nat.zero_le _

end SelfKvm.Source
