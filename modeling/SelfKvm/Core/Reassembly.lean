/-
  The receiver's judge over whole runs of calls.

  `accept` tests six conditions around two fields that it assigns one after the other, and one of the
  tests is the checked addition whose result it assigns first.  `acceptInPlace` keeps that order;
  `acceptInPlace_run` shows that it agrees with the pure `accept`, which has a new state only where
  it has an answer.  So an error leaves the state as it was, and a caller that goes on after errors
  ends where it would have ended without the rejected calls (`run_kept`).  What the state stands
  for is `Accounted`, by the payloads of the calls that were kept.
-/
import SelfKvm.Core.FileTransfer
import SelfKvm.Base.Mealy

namespace SelfKvm

/-- The calls on a transfer that has begun. -/
inductive ReassemblerCall where
  | accept (id seq : UInt32) (data : List UInt8)
  | complete (id count : UInt32)
  deriving DecidableEq, Repr

/-- The chunk a call brings. -/
def ReassemblerCall.payload : ReassemblerCall → Option (List UInt8)
  | .accept _ _ data => some data
  | .complete _ _ => none

namespace FileReassembler

/-! ## The assignments in their place -/

/-- Return early with an error. -/
def rejectIf (p : Prop) [Decidable p] (e : FileError) : EStateM FileError FileReassembler Unit :=
  if p then throw e else pure ()

/-- `accept` with its assignments where the source has them. -/
def acceptInPlace (id seq : UInt32) (data : List UInt8) :
    EStateM FileError FileReassembler (List UInt8) := do
  let self ← get
  rejectIf (id ≠ self.id) (.idMismatch self.id id)
  rejectIf (seq ≠ self.nextSeq) (.outOfOrder self.nextSeq seq)
  rejectIf data.isEmpty (.emptyChunk seq)
  rejectIf (data.length > maxChunkSize) (.chunkTooLarge data.length maxChunkSize)
  let newTotal := self.received + UInt64.ofNat data.length
  rejectIf (newTotal > self.declaredSize) (.sizeOverflow newTotal self.declaredSize)
  -- `checked_add`
  rejectIf (self.nextSeq.toNat + 1 ≥ 2 ^ 32) .tooManyChunks
  modify fun self => { self with nextSeq := self.nextSeq + 1 }
  modify fun self => { self with received := newTotal }
  return data

theorem rejectIf_bind {α : Type} (p : Prop) [Decidable p] (e : FileError)
    (f : Unit → EStateM FileError FileReassembler α) (re : FileReassembler) :
    (rejectIf p e >>= f).run re = if p then .error e re else (f ()).run re := by
  unfold rejectIf
  by_cases hp : p
  · rw [if_pos hp, if_pos hp]
    rfl
  · rw [if_neg hp, if_neg hp]
    rfl

/-- **The assignments come after the last test**: the state changes only with an answer. -/
theorem acceptInPlace_run (re : FileReassembler) (id seq : UInt32) (data : List UInt8) :
    (acceptInPlace id seq data).run re =
      match re.accept id seq data with
      | .ok (bytes, re') => .ok bytes re'
      | .error e => .error e re := by
  have hget : (acceptInPlace id seq data).run re = (do
      rejectIf (id ≠ re.id) (.idMismatch re.id id)
      rejectIf (seq ≠ re.nextSeq) (.outOfOrder re.nextSeq seq)
      rejectIf data.isEmpty (.emptyChunk seq)
      rejectIf (data.length > maxChunkSize) (.chunkTooLarge data.length maxChunkSize)
      rejectIf (re.received + UInt64.ofNat data.length > re.declaredSize)
        (.sizeOverflow (re.received + UInt64.ofNat data.length) re.declaredSize)
      rejectIf (re.nextSeq.toNat + 1 ≥ 2 ^ 32) .tooManyChunks
      modify fun self => { self with nextSeq := self.nextSeq + 1 }
      modify fun self => { self with received := re.received + UInt64.ofNat data.length }
      return data : EStateM FileError FileReassembler (List UInt8)).run re := rfl
  rw [hget]
  simp only [rejectIf_bind]
  unfold accept
  by_cases hid : id ≠ re.id
  · rw [if_pos hid, if_pos hid]
  rw [if_neg hid, if_neg hid]
  by_cases hseq : seq ≠ re.nextSeq
  · rw [if_pos hseq, if_pos hseq]
  rw [if_neg hseq, if_neg hseq]
  by_cases hempty : data.isEmpty = true
  · rw [if_pos hempty, if_pos hempty]
  rw [if_neg hempty, if_neg hempty]
  by_cases hmax : data.length > maxChunkSize
  · rw [if_pos hmax, if_pos hmax]
  rw [if_neg hmax, if_neg hmax]
  by_cases hfits : re.received + UInt64.ofNat data.length > re.declaredSize
  · rw [if_pos hfits]
    simp only [hfits, if_true]
  rw [if_neg hfits]
  by_cases hcount : re.nextSeq.toNat + 1 ≥ 2 ^ 32
  · rw [if_pos hcount]
    simp only [hfits, hcount, if_true, if_false]
  · rw [if_neg hcount]
    simp only [hfits, hcount, if_false]
    rfl

/-! ## Runs -/

/-- One call and its answer; the end has no bytes to return. -/
def answer (re : FileReassembler) : ReassemblerCall → FileReassembler × Except FileError (List UInt8)
  | .accept id seq data =>
    match (acceptInPlace id seq data).run re with
    | .ok bytes re => (re, .ok bytes)
    | .error e re => (re, .error e)
  | .complete id count => (re, (re.complete id count).map fun _ => [])

/-- One call; the caller goes on whatever the answer is. -/
def call (re : FileReassembler) (c : ReassemblerCall) :
    FileReassembler × List (Except FileError (List UInt8)) :=
  ((re.answer c).1, [(re.answer c).2])

/-- The calls of a run that were not rejected. -/
def kept (re : FileReassembler) : List ReassemblerCall → List ReassemblerCall
  | [] => []
  | c :: calls =>
    if (re.answer c).2.isOk then
      c :: kept (re.answer c).1 calls
    else
      kept (re.answer c).1 calls

variable {re : FileReassembler} {datas : List (List UInt8)}

/-- **A call that fails leaves the state as it was.** -/
theorem answer_error {c : ReassemblerCall} (h : (re.answer c).2.isOk = false) :
    (re.answer c).1 = re := by
  cases c with
  | accept id seq data =>
    unfold answer at h ⊢
    simp only [acceptInPlace_run] at h ⊢
    cases hacc : re.accept id seq data with
    | error e => rfl
    | ok p =>
      rw [hacc] at h
      cases h
  | complete id count => rfl

/-- A call that succeeds is accounted for by what it brought, and changes no identity. -/
theorem answer_ok (h : Accounted re datas) {c : ReassemblerCall}
    (hok : (re.answer c).2.isOk = true) :
    Accounted (re.answer c).1 (datas ++ c.payload.toList) ∧ (re.answer c).1.id = re.id ∧
      (re.answer c).1.declaredSize = re.declaredSize := by
  cases c with
  | accept id seq data =>
    unfold answer at hok ⊢
    simp only [acceptInPlace_run] at hok ⊢
    cases hacc : re.accept id seq data with
    | error e =>
      rw [hacc] at hok
      cases hok
    | ok p =>
      obtain ⟨bytes, re'⟩ := p
      obtain ⟨haccept, -, rfl⟩ := (accept_eq_ok h).mp hacc
      exact ⟨h.next haccept, rfl, rfl⟩
  | complete id count =>
    refine ⟨?_, rfl, rfl⟩
    show Accounted re (datas ++ [])
    rw [List.append_nil]
    exact h

/-- **Errors are as if the calls had not been made.** -/
theorem run_kept (re : FileReassembler) (calls : List ReassemblerCall) :
    (Mealy.run call re (kept re calls)).1 = (Mealy.run call re calls).1 := by
  induction calls generalizing re with
  | nil => rfl
  | cons c calls ih =>
    unfold kept
    rw [Mealy.run_cons]
    show _ = (Mealy.run call (re.answer c).1 calls).1
    by_cases hok : (re.answer c).2.isOk
    · rw [if_pos hok, Mealy.run_cons]
      exact ih _
    · rw [if_neg hok, answer_error (Bool.eq_false_iff.mpr hok)]
      exact ih re

/-- Each call keeps the account. -/
theorem run_accounted (h : Accounted re datas) (calls : List ReassemblerCall) :
    Accounted (Mealy.run call re calls).1
        (datas ++ (kept re calls).filterMap ReassemblerCall.payload) ∧
      (Mealy.run call re calls).1.id = re.id ∧
      (Mealy.run call re calls).1.declaredSize = re.declaredSize := by
  induction calls generalizing re datas with
  | nil => exact ⟨by rw [kept, List.filterMap_nil, List.append_nil]; exact h, rfl, rfl⟩
  | cons c calls ih =>
    rw [Mealy.run_cons]
    show Accounted (Mealy.run call (re.answer c).1 calls).1 _ ∧
      (Mealy.run call (re.answer c).1 calls).1.id = _ ∧
      (Mealy.run call (re.answer c).1 calls).1.declaredSize = _
    unfold kept
    by_cases hok : (re.answer c).2.isOk
    · obtain ⟨hacc, hid, hsize⟩ := answer_ok h hok
      obtain ⟨hacc', hid', hsize'⟩ := ih hacc
      have hpayload : (c :: kept (re.answer c).1 calls).filterMap ReassemblerCall.payload =
          c.payload.toList ++ (kept (re.answer c).1 calls).filterMap ReassemblerCall.payload := by
        cases c <;> rfl
      rw [if_pos hok, hpayload, ← List.append_assoc]
      exact ⟨hacc', hid'.trans hid, hsize'.trans hsize⟩
    · rw [if_neg hok, answer_error (Bool.eq_false_iff.mpr hok)]
      exact ih h

/-- **Exact accounting, atomic errors.**  For every transfer that begins, with any size and limit,
    and any calls on it, going on after errors, in the state they lead to: a call that fails leaves
    that state alone, and the calls that failed before might as well not have been made; the total
    and the sequence number are those of the chunks accepted; the total is at most the declared size
    and at most the number of chunks times their maximal size, which is below `2^54`, so that
    adding a permitted chunk does not overflow; and the end passes exactly with the right id and
    count when everything is there. -/
theorem accounting_exact {id : UInt32} {name : String} {size limit : UInt64} {re₀ : FileReassembler}
    (h : begin id name size limit = .ok re₀) (calls : List ReassemblerCall) :
    let re := (Mealy.run call re₀ calls).1
    let datas := (kept re₀ calls).filterMap ReassemblerCall.payload
    (∀ c e, (re.answer c).2 = .error e → (re.answer c).1 = re) ∧
    (Mealy.run call re₀ (kept re₀ calls)).1 = re ∧
    re.received.toNat = datas.flatten.length ∧ re.nextSeq.toNat = datas.length ∧
    re.received.toNat ≤ min size.toNat (re.nextSeq.toNat * maxChunkSize) ∧
    min size.toNat (re.nextSeq.toNat * maxChunkSize) < 2 ^ 54 ∧
    (∀ data : List UInt8, data.length ≤ maxChunkSize →
      re.received.toNat + data.length < 2 ^ 64) ∧
    ∀ id' count, re.complete id' count = .ok () ↔
      id' = id ∧ count.toNat = datas.length ∧ re.received = size := by
  obtain ⟨base, -, -, rfl⟩ := begin_eq_ok.mp h
  obtain ⟨hacc, hid, hsize⟩ := run_accounted (Accounted.fresh id base size) calls
  rw [List.nil_append] at hacc
  intro re datas
  have hbound : re.received.toNat ≤ datas.length * maxChunkSize := by
    rw [hacc.total]
    exact length_flatten_le fun d hd => (hacc.bounds d hd).2
  have hcount : datas.length < 2 ^ 32 := hacc.length_lt
  have hmax : datas.length * maxChunkSize ≤ (2 ^ 32 - 1) * maxChunkSize :=
    Nat.mul_le_mul_right _ (by omega)
  have hconst : (2 ^ 32 - 1) * maxChunkSize < 2 ^ 54 := by decide
  have hdeclared : re.received.toNat ≤ size.toNat := by
    have hle := hacc.declared
    rw [hsize] at hle
    rw [hacc.total]
    exact hle
  refine ⟨?_, run_kept _ calls, hacc.total, hacc.seq, ?_, ?_, ?_, ?_⟩
  · intro c e he
    apply answer_error
    rw [he]
    rfl
  · rw [hacc.seq]
    exact Nat.le_min.mpr ⟨hdeclared, hbound⟩
  · rw [hacc.seq]
    exact Nat.lt_of_le_of_lt (Nat.min_le_right _ _) (Nat.lt_of_le_of_lt hmax hconst)
  · intro data hdata
    have hchunk : maxChunkSize < 2 ^ 22 := by decide
    omega
  · intro id' count
    rw [complete_eq_ok hacc]
    show id' = re.id ∧ _ ∧ _ = re.declaredSize.toNat ↔ _
    rw [show re.id = id from hid, show re.declaredSize = size from hsize, ← hacc.total,
      UInt64.toNat_inj]

/-- Three bytes, an empty chunk that is rejected, and the end. -/
theorem accounting_exact_small :
    let re₀ : FileReassembler := ⟨7, "a", 3, 0, 0⟩
    let calls : List ReassemblerCall := [.accept 7 0 [1, 2, 3], .accept 7 1 [], .complete 7 1]
    kept re₀ calls = [.accept 7 0 [1, 2, 3], .complete 7 1] ∧
      (Mealy.run call re₀ calls).1.received.toNat = 3 := by
  have hbegin : begin 7 "a" 3 10 = .ok ⟨7, "a", 3, 0, 0⟩ :=
    begin_eq_ok.mpr ⟨"a", by decide, by decide, rfl⟩
  exact ⟨by decide, (accounting_exact hbegin
    [.accept 7 0 [1, 2, 3], .accept 7 1 [], .complete 7 1]).2.2.1⟩

end FileReassembler

end SelfKvm
