/-
  What a sender nobody trusts can make the receive loop do.

  After an accepted offer the peer chooses every message, and the stream of them need not end.
  The loop is bounded all the same: each turn either accepts a nonempty chunk within the declared
  size or returns, so it returns after at most `declared_size + 1` messages, and it never hands
  more than `declared_size` bytes to the disk.  And it cannot be talked into a file that was not
  sent: `recvBody_ok` characterises exactly the streams it accepts.

  The invariant is `Heard`: after `n` messages the accepted payloads `datas` are the first messages
  of the stream, and if the loop has returned, it did so at message number `datas.length`.
-/
import SelfKvm.Daemon.FileTransfer

namespace SelfKvm

/-- The stream starts with these messages. -/
def Begins (stream : Nat → Except TransferError Message) (msgs : List Message) : Prop :=
  ∀ i m, msgs[i]? = some m → stream i = .ok m

theorem begins_append {stream : Nat → Except TransferError Message} {msgs : List Message}
    {m : Message} :
    Begins stream (msgs ++ [m]) ↔ Begins stream msgs ∧ stream msgs.length = .ok m := by
  constructor
  · intro h
    constructor
    · intro i m' hm'
      have hi := (List.getElem?_eq_some_iff.mp hm').1
      exact h i m' (by rw [List.getElem?_append_left hi]; exact hm')
    · exact h msgs.length m List.getElem?_concat_length
  · rintro ⟨h, hm⟩ i m' hm'
    by_cases hi : i < msgs.length
    · rw [List.getElem?_append_left hi] at hm'
      exact h i m' hm'
    · have hlt := (List.getElem?_eq_some_iff.mp hm').1
      rw [List.length_append, List.length_singleton] at hlt
      obtain rfl : i = msgs.length := by omega
      rw [List.getElem?_concat_length] at hm'
      injection hm' with hm'
      rw [hm, hm']

theorem chunkMsgs_concat (id : UInt32) (k : Nat) (datas : List (List UInt8)) (data : List UInt8) :
    chunkMsgs id k (datas ++ [data]) =
      chunkMsgs id k datas ++ [chunkMsg id (UInt32.ofNat (k + datas.length)) data] := by
  induction datas generalizing k with
  | nil => rfl
  | cons d datas ih =>
    rw [List.cons_append, chunkMsgs, ih, chunkMsgs, List.cons_append, List.length_cons,
      Nat.add_assoc, Nat.add_comm 1]

/-! ## The invariant -/

variable {id : UInt32} {name : String} {size sizeLimit : UInt64} {re : FileReassembler}
  {stream : Nat → Except TransferError Message}

/-- After `n` messages, `datas` are the payloads accepted. -/
structure Heard (id : UInt32) (size : UInt64) (re : FileReassembler)
    (stream : Nat → Except TransferError Message) (n : Nat) (datas : List (List UInt8)) :
    Prop where
  id_eq : (recvBody re stream n).re.id = id
  size_eq : (recvBody re stream n).re.declaredSize = size
  accounted : FileReassembler.Accounted (recvBody re stream n).re datas
  written : (recvBody re stream n).written = datas.flatten
  /-- The accepted payloads are the stream's first messages, and the loop survived them. -/
  chunks : Begins stream (chunkMsgs id 0 datas)
  survived : (recvBody re stream datas.length).result = none
  /-- All messages so far were accepted, or the one after the accepted ones ended the loop. -/
  ended : (recvBody re stream n).result = none ∧ datas.length = n ∨
    datas.length < n ∧ (recvBody re stream (datas.length + 1)).result ≠ none ∧
      ((recvBody re stream n).result = some (.ok ()) ∧
          IsEnd (recvBody re stream n) datas (stream datas.length) ∨
        ∃ e, (recvBody re stream n).result = some (.error e))

theorem recvBody_succ (re : FileReassembler) (stream : Nat → Except TransferError Message)
    (n : Nat) : recvBody re stream (n + 1) = (recvBody re stream n).step (stream n) := rfl

/-- The message after the accepted ones ends the loop, well or not. -/
theorem Heard.stop {datas : List (List UInt8)} (h : Heard id size re stream datas.length datas)
    {r : Except TransferError Unit}
    (hstep : (recvBody re stream datas.length).step (stream datas.length) =
      { recvBody re stream datas.length with result := some r })
    (hr : r = .ok () ∧ IsEnd (recvBody re stream datas.length) datas (stream datas.length) ∨
      ∃ e, r = .error e) :
    Heard id size re stream (datas.length + 1) datas := by
  rw [← recvBody_succ] at hstep
  refine ⟨?_, ?_, ?_, ?_, h.chunks, h.survived, .inr ⟨Nat.lt_succ_self _, ?_, ?_⟩⟩
  all_goals rw [hstep]
  · exact h.id_eq
  · exact h.size_eq
  · exact h.accounted
  · exact h.written
  · exact Option.some_ne_none _
  · rcases hr with ⟨rfl, hend⟩ | ⟨e, rfl⟩
    · exact .inl ⟨rfl, hend⟩
    · exact .inr ⟨e, rfl⟩

/-- One more message keeps the invariant, with one payload more or with the same ones. -/
theorem Heard.step {n : Nat} {datas : List (List UInt8)} (h : Heard id size re stream n datas) :
    ∃ datas', Heard id size re stream (n + 1) datas' := by
  rcases h.ended with ⟨hrun, rfl⟩ | ⟨hn, hafter, hend⟩
  · have hrecv : Receiving (recvBody re stream datas.length) datas :=
      ⟨h.accounted, h.written, hrun⟩
    rcases hrecv.step (stream datas.length) with ⟨seq, data, hmsg, ha⟩ | ⟨hend, hstep⟩ |
        ⟨-, e, hstep⟩
    · -- a chunk: the loop goes on with one payload more
      obtain ⟨hrecv', hid', hsize'⟩ := hrecv.chunk ha
      rw [← hmsg, ← recvBody_succ] at hrecv' hid' hsize'
      have hlen : (datas ++ [data]).length = datas.length + 1 := by
        rw [List.length_append, List.length_singleton]
      have hseq : seq = UInt32.ofNat datas.length := by
        rw [← ha.seq_eq, UInt32.ofNat_toNat]
      refine ⟨datas ++ [data], hid'.trans h.id_eq, hsize'.trans h.size_eq, hrecv'.accounted,
        hrecv'.written, ?_, ?_, .inl ⟨hrecv'.running, hlen⟩⟩
      · rw [chunkMsgs_concat, begins_append, Nat.zero_add, ← hseq, chunkMsgs_length, ← h.id_eq]
        exact ⟨h.id_eq ▸ h.chunks, hmsg⟩
      · rw [hlen]
        exact hrecv'.running
    · -- the end, with everything there
      exact ⟨datas, h.stop hstep (.inl ⟨rfl, hend⟩)⟩
    · -- anything else is an error
      exact ⟨datas, h.stop hstep (.inr ⟨e, rfl⟩)⟩
  · have hsome : (recvBody re stream n).result ≠ none := by
      rcases hend with ⟨hok, -⟩ | ⟨e, herr⟩
      · rw [hok]
        exact Option.some_ne_none _
      · rw [herr]
        exact Option.some_ne_none _
    have hstep : recvBody re stream (n + 1) = recvBody re stream n := Body.step_returned hsome _
    refine ⟨datas, ?_, ?_, ?_, ?_, h.chunks, h.survived,
      .inr ⟨Nat.lt_succ_of_lt hn, hafter, ?_⟩⟩
    all_goals rw [hstep]
    · exact h.id_eq
    · exact h.size_eq
    · exact h.accounted
    · exact h.written
    · exact hend

/-- **The invariant holds after any number of messages.** -/
theorem recvBody_heard (hoffer : FileReassembler.begin id name size sizeLimit = .ok re)
    (stream : Nat → Except TransferError Message) (n : Nat) :
    ∃ datas, Heard id size re stream n datas := by
  induction n with
  | zero =>
    obtain ⟨base, -, -, rfl⟩ := FileReassembler.begin_eq_ok.mp hoffer
    exact ⟨[], rfl, rfl, .fresh id base size, rfl, (fun i m hm => by cases hm), rfl,
      .inl ⟨rfl, rfl⟩⟩
  | succ n ih =>
    obtain ⟨datas, h⟩ := ih
    exact h.step

/-! ## Bounds -/

/-- **The loop returns after at most `declared_size + 1` messages**: each accepted chunk used up at
    least one declared byte. -/
theorem recvBody_returns (hoffer : FileReassembler.begin id name size sizeLimit = .ok re)
    (stream : Nat → Except TransferError Message) :
    (recvBody re stream (size.toNat + 1)).result ≠ none := by
  obtain ⟨datas, h⟩ := recvBody_heard hoffer stream (size.toNat + 1)
  intro hnone
  have hle := h.accounted.length_le_declared
  rw [h.size_eq] at hle
  rcases h.ended with ⟨-, hlen⟩ | ⟨-, -, ⟨hok, -⟩ | ⟨e, herr⟩⟩
  · omega
  · rw [hok] at hnone
    cases hnone
  · rw [herr] at hnone
    cases hnone

/-! ## The streams that are accepted -/

/-- The streams of an honest transfer: nonempty chunks within the limit, numbered from zero, adding
    up to the declared size, then the end with their count. -/
structure HonestStream (id : UInt32) (size : UInt64)
    (stream : Nat → Except TransferError Message) (datas : List (List UInt8)) : Prop where
  begins : Begins stream (chunkMsgs id 0 datas ++ [endMsg id (UInt32.ofNat datas.length)])
  bounds : ∀ d ∈ datas, 0 < d.length ∧ d.length ≤ maxChunkSize
  total : datas.flatten.length = size.toNat
  count : datas.length ≤ 2 ^ 32 - 1

theorem flatten_take_succ {datas : List (List UInt8)} {k : Nat} (hk : k < datas.length) :
    (datas.take k).flatten.length + datas[k].length ≤ datas.flatten.length := by
  have hsplit : datas.take k ++ datas[k] :: datas.drop (k + 1) = datas := by
    rw [← List.drop_eq_getElem_cons hk, List.take_append_drop]
  have hlen := congrArg (fun l => l.flatten.length) hsplit
  simp only [List.flatten_append, List.flatten_cons, List.length_append] at hlen
  omega

/-- An honest stream is heard chunk by chunk. -/
theorem HonestStream.receiving (hoffer : FileReassembler.begin id name size sizeLimit = .ok re)
    {datas : List (List UInt8)} (h : HonestStream id size stream datas) {k : Nat}
    (hk : k ≤ datas.length) :
    Receiving (recvBody re stream k) (datas.take k) ∧ (recvBody re stream k).re.id = id ∧
      (recvBody re stream k).re.declaredSize = size := by
  induction k with
  | zero =>
    obtain ⟨base, -, -, rfl⟩ := FileReassembler.begin_eq_ok.mp hoffer
    exact ⟨.start hoffer, rfl, rfl⟩
  | succ k ih =>
    obtain ⟨hrecv, hid, hsize⟩ := ih (by omega)
    have hk : k < datas.length := by omega
    have hmsg : stream k = .ok (chunkMsg id (UInt32.ofNat k) datas[k]) := by
      apply (begins_append.mp h.begins).1
      rw [chunkMsgs_getElem?, List.getElem?_eq_getElem hk, Nat.zero_add]
      rfl
    have hcount := h.count
    have hfits := flatten_take_succ hk
    have hbounds := h.bounds datas[k] (List.getElem_mem hk)
    have hlen : (datas.take k).length = k := List.length_take_of_le (by omega)
    have ha : FileReassembler.Acceptable (recvBody re stream k).re (datas.take k) id
        (UInt32.ofNat k) datas[k] := by
      refine ⟨hid.symm, ?_, hbounds.1, hbounds.2, ?_, by omega⟩
      · rw [hlen]
        exact UInt32.toNat_ofNat_of_lt' (show k < 2 ^ 32 by omega)
      · rw [hsize, ← h.total]
        exact hfits
    obtain ⟨hrecv', hid', hsize'⟩ := hrecv.chunk ha
    rw [← List.take_succ_eq_append_getElem hk, ← hmsg] at hrecv'
    rw [← hmsg] at hid' hsize'
    exact ⟨hrecv', hid'.trans hid, hsize'.trans hsize⟩

/-- **An honest stream is accepted**, and its payloads are what was written. -/
theorem HonestStream.accepted (hoffer : FileReassembler.begin id name size sizeLimit = .ok re)
    {datas : List (List UInt8)} (h : HonestStream id size stream datas) :
    (recvBody re stream (datas.length + 1)).result = some (.ok ()) ∧
      (recvBody re stream (datas.length + 1)).written = datas.flatten := by
  obtain ⟨hrecv, hid, hsize⟩ := h.receiving hoffer (Nat.le_refl datas.length)
  rw [List.take_length] at hrecv
  have hmsg : stream datas.length = .ok (endMsg id (UInt32.ofNat datas.length)) := by
    have hlast := (begins_append.mp h.begins).2
    rwa [chunkMsgs_length] at hlast
  have hend : IsEnd (recvBody re stream datas.length) datas (stream datas.length) := by
    rw [hmsg]
    exact ⟨by rw [hid], by rw [hsize]; exact h.total⟩
  show ((recvBody re stream datas.length).step (stream datas.length)).result = _ ∧ _
  rcases hrecv.step (stream datas.length) with ⟨seq, data, hchunk, -⟩ | ⟨-, hstep⟩ | ⟨hno, -⟩
  · rw [hmsg] at hchunk
    cases hchunk
  · refine ⟨by rw [hstep], ?_⟩
    show ((recvBody re stream datas.length).step (stream datas.length)).written = _
    rw [hstep]
    exact hrecv.written
  · exact absurd hend hno

/-- **Exactly the honest streams are accepted.** -/
theorem recvBody_ok (hoffer : FileReassembler.begin id name size sizeLimit = .ok re)
    (stream : Nat → Except TransferError Message) :
    (∃ n, (recvBody re stream n).result = some (.ok ())) ↔
      ∃ datas, HonestStream id size stream datas := by
  constructor
  · rintro ⟨n, hn⟩
    obtain ⟨datas, h⟩ := recvBody_heard hoffer stream n
    have hlt := h.accounted.length_lt
    rcases h.ended with ⟨hnone, -⟩ | ⟨-, -, ⟨-, hmsg, htotal⟩ | ⟨e, herr⟩⟩
    · rw [hnone] at hn
      cases hn
    · refine ⟨datas, ?_, h.accounted.bounds, by rw [htotal, h.size_eq], by omega⟩
      rw [begins_append, chunkMsgs_length, ← h.id_eq]
      exact ⟨h.id_eq ▸ h.chunks, hmsg⟩
    · rw [herr] at hn
      cases hn
  · rintro ⟨datas, h⟩
    exact ⟨datas.length + 1, (h.accepted hoffer).1⟩

/-- **A hostile sender is bounded and cannot forge a file.**  After an accepted offer, whatever the
    stream: the loop returns after at most `size + 1` messages; at every moment the bytes written
    are the payloads accepted so far in order — the stream's first `datas.length` messages, each of
    which the loop survived, and if it has returned, it was on the next one — and they never exceed
    the declared size, nor that the limit; and it returns `Ok` exactly on the honest streams. -/
theorem hostile_sender_bounded
    (hoffer : FileReassembler.begin id name size sizeLimit = .ok re)
    (stream : Nat → Except TransferError Message) :
    (∃ n, n ≤ size.toNat + 1 ∧ (recvBody re stream n).result ≠ none) ∧
    (∀ n, ∃ datas : List (List UInt8),
      (recvBody re stream n).written = datas.flatten ∧
      Begins stream (chunkMsgs id 0 datas) ∧ datas.length ≤ n ∧
      (recvBody re stream datas.length).result = none ∧
      (datas.length < n → (recvBody re stream (datas.length + 1)).result ≠ none) ∧
      datas.flatten.length ≤ size.toNat ∧ size ≤ sizeLimit) ∧
    ((∃ n, (recvBody re stream n).result = some (.ok ())) ↔
      ∃ datas, HonestStream id size stream datas) := by
  refine ⟨⟨_, Nat.le_refl _, recvBody_returns hoffer stream⟩, ?_, recvBody_ok hoffer stream⟩
  intro n
  obtain ⟨datas, h⟩ := recvBody_heard hoffer stream n
  obtain ⟨-, -, hlimit, -⟩ := FileReassembler.begin_eq_ok.mp hoffer
  have hdeclared := h.accounted.declared
  rw [h.size_eq] at hdeclared
  rcases h.ended with ⟨-, hlen⟩ | ⟨hlen, hafter, -⟩
  · exact ⟨datas, h.written, h.chunks, Nat.le_of_eq hlen, h.survived, fun hlt => by omega,
      hdeclared, hlimit⟩
  · exact ⟨datas, h.written, h.chunks, Nat.le_of_lt hlen, h.survived, fun _ => hafter,
      hdeclared, hlimit⟩

/-- A sender that never stops offering the next chunk is cut off within three messages. -/
theorem hostile_sender_bounded_endless :
    ∃ n, n ≤ (2 : UInt64).toNat + 1 ∧
      (recvBody ⟨7, "f", 2, 0, 0⟩ (fun i => .ok (chunkMsg 7 (UInt32.ofNat i) [1])) n).result
        ≠ none := by
  have hoffer : FileReassembler.begin 7 "../f" 2 10 = .ok ⟨7, "f", 2, 0, 0⟩ := by decide
  exact (hostile_sender_bounded hoffer _).1

end SelfKvm
