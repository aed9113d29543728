/-
  An honest transfer, from the sender's file to the receiver's bytes.

  Three programs must agree: `send_framed`, which fills a buffer from short reads and counts as it
  goes; `plan_messages`, which cuts the whole file at once; and the receiver, which checks every
  number it is told.  `sendChunks_honest` says that the first is the second, `plan_honest` that the
  second is one of the streams the third accepts (`HonestStream`).

  When the file changes while it is read the totals differ, and then the sender ends in an error
  without an end message (`sendFramed_changed`), so no receiver can complete.  No wrapping of the
  64-bit total can hide the change: the chunk numbers run out long before.
-/
import SelfKvm.Daemon.HostileSender

namespace SelfKvm

open Source

namespace Session

/-- A session in two parts runs the second where the first left the connection. -/
theorem bind_apply {α β : Type} (x : Session α) (f : α → Session β) (c : Conn) :
    (x >>= f) c =
      match x c with
      | (.ok a, c') => f a c'
      | (.error e, c') => (.error e, c') := by
  show (match x c with | (r, c') => ExceptT.bindCont f r c') = _
  rcases x c with ⟨_ | _, _⟩
  · rfl
  · rfl

theorem send_ok (m : Message) {c : Conn} (h : c.faults = []) :
    send m c = (.ok (), { c with out := c.out ++ [m] }) := by
  unfold send
  rw [h]

/-- A send puts its message on the wire or nothing at all. -/
theorem send_out (m : Message) (c : Conn) :
    (send m c).2.out = c.out ++ [m] ∨ (send m c).2.out = c.out := by
  unfold send
  rcases c.faults with _ | ⟨_ | e, faults⟩
  · exact .inl rfl
  · exact .inl rfl
  · exact .inr rfl

theorem recv_out (c : Conn) : (recv c).2.out = c.out := by
  unfold recv
  rcases c.inbox with _ | ⟨_ | _, _⟩
  · rfl
  · rfl
  · rfl

theorem awaitAccept_out (c : Conn) : (awaitAccept c).2.out = c.out := by
  unfold awaitAccept
  rw [bind_apply]
  have hout := recv_out c
  rcases hr : recv c with ⟨_ | m, c'⟩
  · rw [hr] at hout
    exact hout
  · rw [hr] at hout
    cases m with
    | fileAccept id accept => cases accept <;> exact hout
    | _ => exact hout

end Session

open Session

/-! ## The sending loop -/

theorem clampChunk_pos (chunkSize : Nat) : 0 < clampChunk chunkSize := by
  unfold clampChunk
  omega

theorem clampChunk_le (chunkSize : Nat) : clampChunk chunkSize ≤ maxChunkSize := by
  have hmax : 1 ≤ maxChunkSize := by decide
  unfold clampChunk
  omega

theorem ofNat_add_ofNat (a b : Nat) : UInt64.ofNat a + UInt64.ofNat b = UInt64.ofNat (a + b) :=
  (UInt64.ofNat_add a b).symm

/-- The loop, once the buffer is filled. -/
theorem sendChunks_of_fill {id : UInt32} {cs : Nat} {reader reader' : Incoming}
    {result : Except IoError (List UInt8)} (hfill : fill reader cs = (result, reader'))
    (seq : UInt32) (sent : UInt64) :
    sendChunks id cs reader seq sent =
      (match result with
      | .error e => throw (.io e)
      | .ok block =>
        if block.length = 0 then
          pure (seq, sent)
        else do
          send (chunkMsg id seq block)
          if seq.toNat + 1 ≥ 2 ^ 32 then
            throw .tooManyChunks
          else
            sendChunks id cs reader' (seq + 1) (sent + UInt64.ofNat block.length)) := by
  rw [sendChunks]
  split
  · rename_i e r hr
    obtain ⟨rfl, rfl⟩ := Prod.mk.inj (hr.symm.trans hfill)
    rfl
  · rename_i block r hr
    obtain ⟨rfl, rfl⟩ := Prod.mk.inj (hr.symm.trans hfill)
    by_cases hblock : block.length = 0
    · simp only [hblock, dif_pos, if_pos]
    · simp only [hblock, dif_neg, if_neg, not_false_eq_true]

/-- One turn of the loop on a source that still has something: the next block goes out, and the
    loop goes on with the rest. -/
theorem sendChunks_step {id : UInt32} {cs : Nat} {reader reader' : Incoming} {block : List UInt8}
    (hfill : fill reader cs = (.ok block, reader')) (hblock : 0 < block.length) (seq : UInt32)
    (sent : UInt64) :
    sendChunks id cs reader seq sent = (do
      send (chunkMsg id seq block)
      if seq.toNat + 1 ≥ 2 ^ 32 then
        throw .tooManyChunks
      else
        sendChunks id cs reader' (seq + 1) (sent + UInt64.ofNat block.length)) := by
  rw [sendChunks_of_fill hfill]
  exact if_neg (Nat.ne_of_gt hblock)

/-- At the end of the file the loop reports what it counted. -/
theorem sendChunks_done {id : UInt32} {cs : Nat} {reader reader' : Incoming}
    (hfill : fill reader cs = (.ok [], reader')) (seq : UInt32) (sent : UInt64) :
    sendChunks id cs reader seq sent = pure (seq, sent) := by
  rw [sendChunks_of_fill hfill]
  rfl

/-- A failed read ends the loop. -/
theorem sendChunks_error {id : UInt32} {cs : Nat} {reader reader' : Incoming} {e : IoError}
    (hfill : fill reader cs = (.error e, reader')) (seq : UInt32) (sent : UInt64) :
    sendChunks id cs reader seq sent = throw (.io e) := by
  rw [sendChunks_of_fill hfill]

/-- The first block and the rest are counted together. -/
theorem add_take_drop (sent cs : Nat) (bs : List UInt8) :
    sent + (bs.take cs).length + (bs.drop cs).length = sent + bs.length := by
  rw [List.length_take, List.length_drop]
  omega

/-- **The streaming loop is the pure chunker**: over a connection whose sends succeed it emits one
    numbered chunk per block of the file, however short the reads were. -/
theorem sendChunks_honest (id : UInt32) {cs : Nat} (hcs : 0 < cs) {reader : Incoming}
    {bs : List UInt8} (h : Delivers reader bs) {k : Nat} (sent : Nat) {c : Conn}
    (hc : c.faults = []) (hcount : k + (chunks cs bs).length < 2 ^ 32) :
    sendChunks id cs reader (UInt32.ofNat k) (UInt64.ofNat sent) c =
      (.ok (UInt32.ofNat (k + (chunks cs bs).length), UInt64.ofNat (sent + bs.length)),
        { c with out := c.out ++ chunkMsgs id k (chunks cs bs) }) := by
  induction bs using chunks.induct cs generalizing reader k sent c with
  | case1 bs hpos ih =>
    obtain ⟨reader', hloop, htake, hrest, hchunks⟩ := h.readLoop_chunks hcs hpos.2
    rw [hchunks, List.length_cons] at hcount
    have hk : (UInt32.ofNat k).toNat = k := UInt32.toNat_ofNat_of_lt' (show k < 2 ^ 32 by omega)
    have hseq : k + 1 + (chunks cs (bs.drop cs)).length
        = k + ((chunks cs (bs.drop cs)).length + 1) := by omega
    have hloop' := ih hrest (k := k + 1) (sent + (bs.take cs).length)
      (c := { c with out := c.out ++ [chunkMsg id (UInt32.ofNat k) (bs.take cs)] }) hc (by omega)
    rw [sendChunks_step hloop htake, bind_apply, send_ok _ hc]
    simp only [hk]
    rw [if_neg (by omega), ofNat_succ, ofNat_add_ofNat, hloop', hchunks, chunkMsgs,
      List.length_cons, List.append_assoc, List.singleton_append, hseq, add_take_drop]
  | case2 bs hpos =>
    obtain rfl : bs = [] := List.eq_nil_of_length_eq_zero (by omega)
    obtain ⟨reader', hloop⟩ := h.readLoop_nil cs
    rw [sendChunks_done hloop, chunks_nil, chunkMsgs, List.append_nil]
    rfl

/-- Sending a chunk puts it out, or nothing. -/
theorem send_chunk_out {id seq : UInt32} {data : List UInt8} {c : Conn} {m : Message}
    (hm : m ∈ (send (chunkMsg id seq data) c).2.out) :
    m ∈ c.out ∨ ∃ seq data, m = chunkMsg id seq data := by
  rcases send_out (chunkMsg id seq data) c with hout | hout
  · rw [hout] at hm
    rcases List.mem_append.mp hm with hm | hm
    · exact .inl hm
    · exact .inr ⟨seq, data, List.mem_singleton.mp hm⟩
  · rw [hout] at hm
    exact .inl hm

/-- Whatever becomes of the connection, the loop puts only chunks on it, and if it counts to the end
    it has counted right: fewer than `2^32` blocks, and the length of the file. -/
theorem sendChunks_spec (id : UInt32) {cs : Nat} (hcs : 0 < cs) {reader : Incoming}
    {bs : List UInt8} (h : Delivers reader bs) {k : Nat} (hk : k < 2 ^ 32) (sent : Nat) (c : Conn) :
    (∀ m ∈ (sendChunks id cs reader (UInt32.ofNat k) (UInt64.ofNat sent) c).2.out,
      m ∈ c.out ∨ ∃ seq data, m = chunkMsg id seq data) ∧
    (∀ seq' sent', (sendChunks id cs reader (UInt32.ofNat k) (UInt64.ofNat sent) c).1
        = .ok (seq', sent') →
      k + (chunks cs bs).length < 2 ^ 32 ∧ sent' = UInt64.ofNat (sent + bs.length)) := by
  induction bs using chunks.induct cs generalizing reader k sent c with
  | case1 bs hpos ih =>
    obtain ⟨reader', hloop, htake, hrest, hchunks⟩ := h.readLoop_chunks hcs hpos.2
    have hk' : (UInt32.ofNat k).toNat = k := UInt32.toNat_ofNat_of_lt' hk
    rw [sendChunks_step hloop htake, bind_apply]
    have hchunk : ∀ m, m ∈ (send (chunkMsg id (UInt32.ofNat k) (bs.take cs)) c).2.out →
        m ∈ c.out ∨ ∃ seq data, m = chunkMsg id seq data := fun m hm => send_chunk_out hm
    rcases hs : send (chunkMsg id (UInt32.ofNat k) (bs.take cs)) c with ⟨e | u, c'⟩
    · rw [hs] at hchunk
      exact ⟨hchunk, fun seq' sent' hr => by cases hr⟩
    · rw [hs] at hchunk
      simp only [hk']
      by_cases hlast : k + 1 ≥ 2 ^ 32
      · rw [if_pos hlast]
        exact ⟨hchunk, fun seq' sent' hr => by cases hr⟩
      · rw [if_neg hlast, ofNat_succ, ofNat_add_ofNat]
        obtain ⟨hout', hcount⟩ :=
          ih hrest (k := k + 1) (by omega) (sent + (bs.take cs).length) c'
        constructor
        · intro m hm
          rcases hout' m hm with hm | hm
          · exact hchunk m hm
          · exact .inr hm
        · intro seq' sent' hr
          obtain ⟨hlt, hsent'⟩ := hcount seq' sent' hr
          rw [hchunks, List.length_cons]
          exact ⟨by omega, by rw [hsent', add_take_drop]⟩
  | case2 bs hpos =>
    obtain rfl : bs = [] := List.eq_nil_of_length_eq_zero (by omega)
    obtain ⟨reader', hloop⟩ := h.readLoop_nil cs
    rw [sendChunks_done hloop, chunks_nil]
    refine ⟨fun m hm => .inl hm, ?_⟩
    intro seq' sent' hr
    injection hr with hr
    obtain ⟨-, rfl⟩ := Prod.mk.inj hr
    exact ⟨hk, rfl⟩

/-! ## A whole transfer -/

/-- A file whose blocks can be numbered is far shorter than `2^64` bytes. -/
theorem length_lt_of_count {cs : Nat} (hcs : 0 < cs) (hmax : cs ≤ maxChunkSize) {bs : List UInt8}
    (hcount : (chunks cs bs).length < 2 ^ 32) : bs.length < 2 ^ 54 := by
  have hle : (chunks cs bs).flatten.length ≤ (chunks cs bs).length * maxChunkSize :=
    FileReassembler.length_flatten_le fun d hd => Nat.le_trans (chunks_mem_length hd).2 hmax
  rw [chunks_flatten hcs] at hle
  have hbound : (chunks cs bs).length * maxChunkSize ≤ (2 ^ 32 - 1) * maxChunkSize :=
    Nat.mul_le_mul_right _ (by omega)
  have hconst : (2 ^ 32 - 1) * maxChunkSize < 2 ^ 54 := by decide
  omega

/-- **The sender sends the plan**, when the file is as long as it said. -/
theorem sendFramed_honest {id : UInt32} {name : String} {reader : Incoming} {bs : List UInt8}
    (h : Delivers reader bs) {chunkSize : Nat}
    (hcount : (chunks (clampChunk chunkSize) bs).length < 2 ^ 32) (id' : UInt32) :
    sendFramed id name (UInt64.ofNat bs.length) reader chunkSize
        ⟨[], [], [.ok (.fileAccept id' true)]⟩
      = (.ok (), ⟨planMessages id name bs (clampChunk chunkSize), [], []⟩) := by
  have hcs := clampChunk_pos chunkSize
  have hloop := sendChunks_honest id hcs h (k := 0) 0
    (c := ⟨[offerMsg id name (UInt64.ofNat bs.length)], [], []⟩) rfl (by omega)
  rw [Nat.zero_add, Nat.zero_add] at hloop
  unfold sendFramed
  rw [bind_apply]
  show (awaitAccept >>= _) (⟨[offerMsg id name (UInt64.ofNat bs.length)], [],
    [.ok (.fileAccept id' true)]⟩ : Conn) = _
  rw [bind_apply]
  show (sendChunks id (clampChunk chunkSize) reader (UInt32.ofNat 0) (UInt64.ofNat 0) >>= _)
    (⟨[offerMsg id name (UInt64.ofNat bs.length)], [], []⟩ : Conn) = _
  rw [bind_apply, hloop, planMessages_eq id name bs hcs]
  simp only [ne_eq, not_true_eq_false, if_false]
  rw [send_ok _ rfl]
  simp only [List.cons_append, List.nil_append]

/-- **A file that changed is not completed**: the sender fails, and no end message was sent. -/
theorem sendFramed_changed (id : UInt32) (name : String) {size : UInt64} {reader : Incoming}
    {bs : List UInt8} (h : Delivers reader bs) (hsize : bs.length ≠ size.toNat) (chunkSize : Nat)
    {c : Conn} (hc : c.out = []) :
    (∃ e, (sendFramed id name size reader chunkSize c).1 = .error e) ∧
      ∀ m ∈ (sendFramed id name size reader chunkSize c).2.out, ∀ id' count,
        m ≠ .fileEnd id' count := by
  have hoffer : ∀ m ∈ (send (offerMsg id name size) c).2.out, ∀ id' count,
      m ≠ .fileEnd id' count := by
    intro m hm id' count
    rcases send_out (offerMsg id name size) c with hout | hout
    · rw [hout, hc, List.nil_append, List.mem_singleton] at hm
      rw [hm]
      exact fun heq => by cases heq
    · rw [hout, hc] at hm
      cases hm
  unfold sendFramed
  rw [bind_apply]
  rcases hs : send (offerMsg id name size) c with ⟨e | u, c₁⟩
  · rw [hs] at hoffer
    exact ⟨⟨e, rfl⟩, hoffer⟩
  · rw [hs] at hoffer
    have hawait := awaitAccept_out c₁
    simp only
    rw [bind_apply]
    rcases ha : awaitAccept c₁ with ⟨e | u', c₂⟩
    · rw [ha] at hawait
      exact ⟨⟨e, rfl⟩, fun m hm => hoffer m (hawait ▸ hm)⟩
    · rw [ha] at hawait
      simp only
      rw [bind_apply]
      obtain ⟨hout, hcount⟩ := sendChunks_spec id (clampChunk_pos chunkSize) h
        (k := 0) (by decide) 0 c₂
      have hchunks : ∀ m ∈ (sendChunks id (clampChunk chunkSize) reader 0 0 c₂).2.out,
          ∀ id' count, m ≠ .fileEnd id' count := by
        intro m hm id' count
        rcases hout m hm with hm | ⟨seq, data, rfl⟩
        · exact hoffer m (hawait ▸ hm) id' count
        · exact fun heq => by cases heq
      rcases hl : sendChunks id (clampChunk chunkSize) reader 0 0 c₂ with ⟨e | ⟨seq, sent⟩, c₃⟩
      · rw [hl] at hchunks
        exact ⟨⟨e, rfl⟩, hchunks⟩
      · rw [hl] at hchunks
        obtain ⟨hlt, hsent⟩ := hcount seq sent (congrArg Prod.fst hl)
        have hbs := length_lt_of_count (clampChunk_pos chunkSize) (clampChunk_le chunkSize)
          (show (chunks (clampChunk chunkSize) bs).length < 2 ^ 32 by omega)
        have hne : sent ≠ size := by
          intro heq
          rw [heq, Nat.zero_add] at hsent
          apply hsize
          rw [hsent]
          exact (UInt64.toNat_ofNat_of_lt' (show bs.length < 2 ^ 64 by omega)).symm
        simp only [hne, ne_eq, not_false_eq_true, if_true]
        exact ⟨⟨.fileChanged size sent, rfl⟩, hchunks⟩

/-- The plan after the offer is an honest stream. -/
theorem plan_honest {id : UInt32} {name : String} {bs : List UInt8} {cs : Nat} (hcs : 0 < cs)
    (hmax : cs ≤ maxChunkSize) (hcount : (chunks cs bs).length < 2 ^ 32)
    {stream : Nat → Except TransferError Message}
    (h : Begins stream (planMessages id name bs cs).tail) :
    HonestStream id (UInt64.ofNat bs.length) stream (chunks cs bs) where
  begins := by
    rw [planMessages_eq id name bs hcs] at h
    exact h
  bounds := fun _ hd => ⟨(chunks_mem_length hd).1, Nat.le_trans (chunks_mem_length hd).2 hmax⟩
  total := by
    have hbs := length_lt_of_count hcs hmax hcount
    rw [chunks_flatten hcs]
    exact (UInt64.toNat_ofNat_of_lt' (show bs.length < 2 ^ 64 by omega)).symm
  count := by omega

/-- The messages that went out, and then an error for ever. -/
def streamOf (msgs : List Message) (e : TransferError) (i : Nat) : Except TransferError Message :=
  match msgs[i]? with
  | some m => .ok m
  | none => .error e

/-- How many of the messages are chunks. -/
def chunkTotal (msgs : List Message) : Nat :=
  msgs.countP fun m => match m with
    | .fileChunk .. => true
    | _ => false

theorem chunkTotal_chunkMsgs (id : UInt32) (k : Nat) (blocks : List (List UInt8)) :
    chunkTotal (chunkMsgs id k blocks) = blocks.length := by
  induction blocks generalizing k with
  | nil => rfl
  | cons block blocks ih =>
    have hcons : chunkTotal (chunkMsgs id k (block :: blocks))
        = chunkTotal (chunkMsgs id (k + 1) blocks) + 1 := List.countP_cons_of_pos rfl
    rw [hcons, ih, List.length_cons]

/-- The plan ends with its count, which is the number of chunks in it and `chunk_count`. -/
theorem planMessages_count (id : UInt32) (name : String) {bs : List UInt8} {cs : Nat}
    (hcs : 0 < cs) (hmax : cs ≤ maxChunkSize) (hcount : (chunks cs bs).length < 2 ^ 32) :
    (planMessages id name bs cs).getLast? =
        some (endMsg id (chunkCount (UInt64.ofNat bs.length) cs)) ∧
      chunkTotal (planMessages id name bs cs)
        = (chunkCount (UInt64.ofNat bs.length) cs).toNat := by
  have hbs := length_lt_of_count hcs hmax hcount
  have hcc : chunkCount (UInt64.ofNat bs.length) cs = UInt32.ofNat (chunks cs bs).length := by
    unfold chunkCount
    rw [Nat.max_eq_left hcs, UInt64.toNat_ofNat_of_lt' (show bs.length < 2 ^ 64 by omega),
      chunks_length hcs]
  have htotal : chunkTotal (chunkMsgs id 0 (chunks cs bs) ++
      [endMsg id (UInt32.ofNat (chunks cs bs).length)]) = (chunks cs bs).length := by
    unfold chunkTotal
    rw [List.countP_append]
    exact chunkTotal_chunkMsgs id 0 _
  rw [planMessages_eq id name bs hcs, hcc]
  constructor
  · rw [← List.cons_append, List.getLast?_concat]
  · rw [UInt32.toNat_ofNat_of_lt' hcount]
    exact htotal

/-- **An honest transfer delivers exactly the source; a changed file delivers nothing.**

    Let the reader give `bs` in any nonempty pieces.  If `bs` can be numbered, the name is accepted
    and the limit not exceeded, then: the receiver takes the offer; the sender, getting its answer,
    sends exactly the plan of `bs`; the end's count, the number of chunks and `chunk_count` are
    one number; and a receiver that hears the rest of the plan succeeds, the bytes written being
    `bs`.  If the offer declared another length, the sender fails without an end message on any
    connection, and no receiver of what it sent ever completes. -/
theorem honest_transfer (id : UInt32) (name : String) (chunkSize : Nat) {reader : Incoming}
    {bs : List UInt8} (h : Delivers reader bs) :
    (∀ (base : String) (sizeLimit : UInt64), sanitizeFilename name = .ok base →
      bs.length ≤ sizeLimit.toNat →
      (bs.length + clampChunk chunkSize - 1) / clampChunk chunkSize ≤ 2 ^ 32 - 1 →
      ∃ re reply, onOffer sizeLimit (.ok (offerMsg id name (UInt64.ofNat bs.length)))
          = (.ok re, some reply) ∧ re.filename = base ∧
        sendFramed id name (UInt64.ofNat bs.length) reader chunkSize ⟨[], [], [.ok reply]⟩
          = (.ok (), ⟨planMessages id name bs (clampChunk chunkSize), [], []⟩) ∧
        (planMessages id name bs (clampChunk chunkSize)).head?
          = some (offerMsg id name (UInt64.ofNat bs.length)) ∧
        (planMessages id name bs (clampChunk chunkSize)).getLast?
          = some (endMsg id (chunkCount (UInt64.ofNat bs.length) (clampChunk chunkSize))) ∧
        chunkTotal (planMessages id name bs (clampChunk chunkSize))
          = (chunkCount (UInt64.ofNat bs.length) (clampChunk chunkSize)).toNat ∧
        ∀ stream, Begins stream (planMessages id name bs (clampChunk chunkSize)).tail →
          ∃ n, (recvBody re stream n).result = some (.ok ()) ∧
            (recvBody re stream n).written = bs) ∧
    (∀ (size : UInt64), bs.length ≠ size.toNat → ∀ c : Conn, c.out = [] →
      (∃ e, (sendFramed id name size reader chunkSize c).1 = .error e) ∧
      (∀ m ∈ (sendFramed id name size reader chunkSize c).2.out, ∀ id' count,
        m ≠ .fileEnd id' count) ∧
      ∀ (id' : UInt32) (name' : String) (size' sizeLimit : UInt64) (re : FileReassembler),
        FileReassembler.begin id' name' size' sizeLimit = .ok re → ∀ e n,
        (recvBody re (streamOf (sendFramed id name size reader chunkSize c).2.out.tail e) n).result
          ≠ some (.ok ())) := by
  have hcs := clampChunk_pos chunkSize
  have hmax := clampChunk_le chunkSize
  constructor
  · intro base sizeLimit hname hlimit hcount
    rw [← chunks_length hcs] at hcount
    have hcount : (chunks (clampChunk chunkSize) bs).length < 2 ^ 32 := by omega
    have hbs := length_lt_of_count hcs hmax hcount
    have hsize : (UInt64.ofNat bs.length).toNat = bs.length :=
      UInt64.toNat_ofNat_of_lt' (show bs.length < 2 ^ 64 by omega)
    have hoffer : FileReassembler.begin id name (UInt64.ofNat bs.length) sizeLimit
        = .ok ⟨id, base, UInt64.ofNat bs.length, 0, 0⟩ := by
      apply FileReassembler.begin_eq_ok.mpr
      refine ⟨base, hname, ?_, rfl⟩
      rw [UInt64.le_iff_toNat_le, hsize]
      exact hlimit
    obtain ⟨hlast, htotal⟩ := planMessages_count id name hcs hmax hcount
    refine ⟨⟨id, base, UInt64.ofNat bs.length, 0, 0⟩, .fileAccept id true, ?_, rfl,
      sendFramed_honest h hcount id, ?_, hlast, htotal, ?_⟩
    · unfold onOffer offerMsg
      simp only [hoffer]
    · rw [planMessages_eq id name bs hcs, List.head?_cons]
    · intro stream hstream
      have haccepted := (plan_honest hcs hmax hcount hstream).accepted hoffer
      rw [chunks_flatten hcs] at haccepted
      exact ⟨_, haccepted⟩
  · intro size hsize c hc
    obtain ⟨herr, hout⟩ := sendFramed_changed id name h hsize chunkSize hc
    refine ⟨herr, hout, ?_⟩
    intro id' name' size' sizeLimit re hoffer e n hok
    obtain ⟨datas, hhonest⟩ := (recvBody_ok hoffer _).mp ⟨n, hok⟩
    have hend := (begins_append.mp hhonest.begins).2
    unfold streamOf at hend
    split at hend
    · rename_i m hm
      injection hend with hend
      exact hout m (List.mem_of_mem_tail (List.mem_of_getElem? hm)) _ _ hend
    · cases hend

/-- Three bytes read one and two at a time, in chunks of two. -/
theorem honest_transfer_three :
    ∃ re reply, onOffer 10 (.ok (offerMsg 1 "a/f" (UInt64.ofNat 3))) = (.ok re, some reply) ∧
      sendFramed 1 "a/f" (UInt64.ofNat 3) [.ok [5], .ok [6, 7]] 2 ⟨[], [], [.ok reply]⟩
        = (.ok (), ⟨planMessages 1 "a/f" [5, 6, 7] 2, [], []⟩) := by
  have h : Delivers (ε := IoError) [.ok [5], .ok [6, 7]] ([5, 6, 7] : List UInt8) :=
    .read (c := [5]) (by decide) (delivers_whole (by decide))
  obtain ⟨re, reply, hoffer, -, hsend, -⟩ :=
    (honest_transfer 1 "a/f" 2 h).1 "f" 10 (by decide) (by decide) (by decide)
  exact ⟨re, reply, hoffer, hsend⟩

end SelfKvm
