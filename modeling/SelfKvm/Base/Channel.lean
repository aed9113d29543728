/-
  Bounded channels.

  A channel of capacity `n` is a list of at most `n` values that wait to be taken, and the bound is
  part of the value.  A sender that does not wait is turned away by a full channel (`trySend`); one
  that waits is modelled by a step that can be taken only while there is room.
-/
import Mathlib.Data.List.Basic

namespace SelfKvm

/-- What was sent and not taken: at most `n` values, the oldest first. -/
structure Channel (n : Nat) (α : Type) where
  waiting : List α
  fits : waiting.length ≤ n

namespace Channel

variable {n : Nat} {α : Type} {c c' : Channel n α} {a : α}

/-- A channel is what waits in it. -/
@[ext] theorem ext (h : c.waiting = c'.waiting) : c = c' := by
  cases c
  cases c'
  cases h
  rfl

def empty : Channel n α := ⟨[], Nat.zero_le n⟩

@[simp] theorem empty_waiting : (empty : Channel n α).waiting = [] := rfl

/-- How many more it takes. -/
def room (c : Channel n α) : Nat := n - c.waiting.length

/-- Send without waiting. -/
def trySend (c : Channel n α) (a : α) : Option (Channel n α) :=
  if h : c.waiting.length < n then
    some ⟨c.waiting ++ [a], by rw [List.length_append]; exact h⟩
  else
    none

/-- The oldest value, and the channel without it. -/
def recv : Channel n α → Option (α × Channel n α)
  | ⟨[], _⟩ => none
  | ⟨a :: rest, h⟩ => some (a, ⟨rest, Nat.le_of_succ_le h⟩)

/-- A channel is full when it holds as much as it may. -/
theorem room_eq_zero : c.room = 0 ↔ c.waiting.length = n := by
  have hfits := c.fits
  show n - c.waiting.length = 0 ↔ _
  omega

/-- **Only a full channel turns a sender away.** -/
theorem trySend_eq_none : c.trySend a = none ↔ c.room = 0 := by
  have hfits := c.fits
  rw [room_eq_zero]
  unfold trySend
  split
  · exact ⟨fun h => (by cases h), fun h => by omega⟩
  · exact ⟨fun _ => (by omega), fun _ => rfl⟩

/-- What is sent comes last. -/
theorem trySend_waiting (h : c.trySend a = some c') : c'.waiting = c.waiting ++ [a] := by
  unfold trySend at h
  split at h
  · injection h with h
    rw [← h]
  · cases h

/-- A value that is sent takes a place. -/
theorem trySend_room (h : c.trySend a = some c') : c'.room + 1 = c.room := by
  have hfits' := c'.fits
  have hwaiting := trySend_waiting h
  rw [hwaiting, List.length_append, List.length_singleton] at hfits'
  show n - c'.waiting.length + 1 = n - c.waiting.length
  rw [hwaiting, List.length_append, List.length_singleton]
  omega

/-- Where there is room, sending succeeds. -/
theorem exists_trySend (h : c.room ≠ 0) (a : α) : ∃ c', c.trySend a = some c' := by
  cases hsend : c.trySend a with
  | none => exact absurd (trySend_eq_none.mp hsend) h
  | some c' => exact ⟨c', rfl⟩

/-- Nothing is taken only where nothing waits. -/
theorem recv_eq_none : c.recv = none ↔ c.waiting = [] := by
  obtain ⟨waiting, hfits⟩ := c
  cases waiting with
  | nil => exact ⟨fun _ => rfl, fun _ => rfl⟩
  | cons a rest => exact ⟨fun h => (by cases h), fun h => by cases h⟩

/-- **What is taken came first**, and the rest still waits. -/
theorem recv_waiting (h : c.recv = some (a, c')) : c.waiting = a :: c'.waiting := by
  obtain ⟨waiting, hfits⟩ := c
  cases waiting with
  | nil => cases h
  | cons b rest =>
    injection h with h
    obtain ⟨rfl, rfl⟩ := Prod.mk.inj h
    rfl

/-- If something waits, it can be taken. -/
theorem recv_of_waiting {rest : List α} (h : c.waiting = a :: rest) :
    ∃ c', c.recv = some (a, c') ∧ c'.waiting = rest := by
  cases hrecv : c.recv with
  | none =>
    rw [recv_eq_none.mp hrecv] at h
    cases h
  | some p =>
    obtain ⟨b, c'⟩ := p
    have hwaiting := recv_waiting hrecv
    rw [h] at hwaiting
    obtain ⟨rfl, rfl⟩ := List.cons.inj hwaiting
    exact ⟨c', rfl, rfl⟩

/-- A channel of some capacity takes something once a value was taken from it. -/
theorem recv_room (h : c.recv = some (a, c')) : c'.room ≠ 0 := by
  have hfits := c.fits
  rw [recv_waiting h, List.length_cons] at hfits
  rw [Ne, room_eq_zero]
  omega

/-- Where nothing fits, something waits, unless nothing ever fits. -/
theorem exists_recv (hn : 0 < n) (h : c.room = 0) : ∃ a c', c.recv = some (a, c') := by
  rw [room_eq_zero] at h
  cases hrecv : c.recv with
  | none =>
    rw [recv_eq_none.mp hrecv, List.length_nil] at h
    omega
  | some p => exact ⟨p.1, p.2, rfl⟩

end Channel

end SelfKvm
