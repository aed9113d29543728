/-
  The file transfer's two loops (`kvm-daemon/src/file_transfer.rs`): `send_framed`, which streams a
  file into a connection, and `recv_body`, which takes messages from one and hands bytes to a
  temporary file.

  The connection is what the two sides see of it: messages sent, outcomes of sends, messages to
  receive.  `recvBody re stream n` is the receive loop after `n` messages of an arbitrary, possibly
  endless stream; the errors of the stream (a timeout, a closed connection) are items of it.

  This file holds the code and the rule for one turn of the receive loop (`Receiving.step`): while
  nothing has been returned, the bytes handed over are the payloads accepted so far.
-/
import SelfKvm.Core.FileTransfer
import SelfKvm.Net.Transport

namespace SelfKvm

open Source

/-- What the two sides of a transfer fail with. -/
inductive TransferError where
  | net (e : NetError)
  | file (e : FileError)
  | io (e : IoError)
  | declined
  | expectedAccept (got : Message)
  | expectedOffer (got : Message)
  | tooManyChunks
  | fileChanged (declared read : UInt64)
  | stalled
  | unexpected (got : Message)
  deriving DecidableEq, Repr

/-! ## Sending -/

/-- A connection as the sender sees it: the messages that went out, how the next sends end (all
    well when nothing is said), and the answers that will come in. -/
structure Conn where
  out : List Message
  faults : List (Option IoError)
  inbox : List (Except NetError Message)

/-- Code over a connection; an error does not undo what was sent. -/
abbrev Session (α : Type) : Type := ExceptT TransferError (StateM Conn) α

namespace Session

def send (m : Message) : Session Unit := fun c =>
  match c.faults with
  | [] => (.ok (), { c with out := c.out ++ [m] })
  | none :: faults => (.ok (), { c with out := c.out ++ [m], faults })
  | some e :: faults => (.error (.net (.io e)), { c with faults })

def recv : Session Message := fun c =>
  match c.inbox with
  | [] => (.error (.net .closed), c)
  | .ok m :: inbox => (.ok m, { c with inbox })
  | .error e :: inbox => (.error (.net e), { c with inbox })

def awaitAccept : Session Unit := do
  match ← recv with
  | .fileAccept _ true => pure ()
  | .fileAccept _ false => throw .declined
  | other => throw (.expectedAccept other)

end Session

open Session

/-- Read until the buffer of `room` bytes is full; empty only at the end of the file. -/
def fill (reader : Incoming) (room : Nat) : Except IoError (List UInt8) × Incoming :=
  readLoop reader room

/-- The sending loop: one chunk per filled buffer, numbered and counted. -/
def sendChunks (id : UInt32) (cs : Nat) (reader : Incoming) (seq : UInt32) (sent : UInt64) :
    Session (UInt32 × UInt64) :=
  match hfill : fill reader cs with
  | (.error e, _) => throw (.io e)
  | (.ok block, reader') =>
    if hn : block.length = 0 then
      pure (seq, sent)
    else do
      send (chunkMsg id seq block)
      -- `seq.checked_add(1)`
      if seq.toNat + 1 ≥ 2 ^ 32 then
        throw .tooManyChunks
      else
        sendChunks id cs reader' (seq + 1) (sent + UInt64.ofNat block.length)
termination_by weight reader
decreasing_by exact readLoop_weight_lt hfill (Nat.pos_of_ne_zero hn)

/-- `usize::clamp`. -/
def clampChunk (chunkSize : Nat) : Nat := max 1 (min chunkSize maxChunkSize)

/-- Drive the send half of the protocol. -/
def sendFramed (id : UInt32) (name : String) (size : UInt64) (reader : Incoming)
    (chunkSize : Nat) : Session Unit := do
  send (offerMsg id name size)
  awaitAccept
  let (seq, sent) ← sendChunks id (clampChunk chunkSize) reader 0 0
  if sent ≠ size then
    throw (.fileChanged size sent)
  else
    send (endMsg id seq)

/-! ## Receiving -/

/-- The answer to the first message of a connection: the transfer it starts and the reply sent. -/
def onOffer (sizeLimit : UInt64) :
    Except TransferError Message → Except TransferError FileReassembler × Option Message
  | .error e => (.error e, none)
  | .ok (.fileOffer id name size) =>
    match FileReassembler.begin id name size sizeLimit with
    | .error e => (.error (.file e), some (.fileAccept id false))
    | .ok re => (.ok re, some (.fileAccept id true))
  | .ok other => (.error (.expectedOffer other), none)

/-- The receive loop between two messages; `result` is what it returned, if it has. -/
structure Body where
  re : FileReassembler
  written : List UInt8
  result : Option (Except TransferError Unit)
  deriving DecidableEq

namespace Body

def start (re : FileReassembler) : Body := ⟨re, [], none⟩

/-- One turn of the loop, every write to the temporary file succeeding. -/
def step (b : Body) (msg : Except TransferError Message) : Body :=
  match b.result with
  | some _ => b
  | none =>
    match msg with
    | .error e => { b with result := some (.error e) }
    | .ok (.fileChunk id seq data) =>
      match b.re.accept id seq data with
      | .error e => { b with result := some (.error (.file e)) }
      | .ok (bytes, re) => { b with re, written := b.written ++ bytes }
    | .ok (.fileEnd id count) =>
      match b.re.complete id count with
      | .error e => { b with result := some (.error (.file e)) }
      | .ok () => { b with result := some (.ok ()) }
    | .ok other => { b with result := some (.error (.unexpected other)) }

end Body

/-- The receive loop after the first `n` messages of `stream`. -/
def recvBody (re : FileReassembler) (stream : Nat → Except TransferError Message) : Nat → Body
  | 0 => Body.start re
  | n + 1 => (recvBody re stream n).step (stream n)

/-! ## One turn of the receive loop -/

/-- `Receiving b datas` — nothing has been returned yet, and `datas` are the payloads accepted. -/
structure Receiving (b : Body) (datas : List (List UInt8)) : Prop where
  accounted : FileReassembler.Accounted b.re datas
  written : b.written = datas.flatten
  running : b.result = none

theorem Receiving.start {id : UInt32} {name : String} {size sizeLimit : UInt64}
    {re : FileReassembler} (h : FileReassembler.begin id name size sizeLimit = .ok re) :
    Receiving (Body.start re) [] := by
  obtain ⟨base, -, -, rfl⟩ := FileReassembler.begin_eq_ok.mp h
  exact ⟨.fresh id base size, rfl, rfl⟩

/-- An acceptable chunk is written, and the loop goes on. -/
theorem Receiving.chunk {b : Body} {datas : List (List UInt8)} (h : Receiving b datas)
    {id seq : UInt32} {data : List UInt8}
    (ha : FileReassembler.Acceptable b.re datas id seq data) :
    Receiving (b.step (.ok (chunkMsg id seq data))) (datas ++ [data]) ∧
      (b.step (.ok (chunkMsg id seq data))).re.id = b.re.id ∧
      (b.step (.ok (chunkMsg id seq data))).re.declaredSize = b.re.declaredSize := by
  have hacc : b.re.accept id seq data = .ok (data, b.re.next data) :=
    (FileReassembler.accept_eq_ok h.accounted).mpr ⟨ha, rfl, rfl⟩
  have hstep : b.step (.ok (chunkMsg id seq data))
      = { b with re := b.re.next data, written := b.written ++ data } := by
    unfold Body.step chunkMsg
    simp only [h.running, hacc]
  rw [hstep]
  refine ⟨⟨h.accounted.next ha, ?_, h.running⟩, rfl, rfl⟩
  show b.written ++ data = _
  rw [h.written, List.flatten_append, List.flatten_singleton]

/-- What ends the loop well: the end message, when everything is there. -/
def IsEnd (b : Body) (datas : List (List UInt8)) (msg : Except TransferError Message) : Prop :=
  msg = .ok (endMsg b.re.id (UInt32.ofNat datas.length)) ∧
    datas.flatten.length = b.re.declaredSize.toNat

/-- **Every turn does one of three things**: it accepts a chunk, it ends well, or it returns an
    error; and only the first writes anything. -/
theorem Receiving.step {b : Body} {datas : List (List UInt8)} (h : Receiving b datas)
    (msg : Except TransferError Message) :
    (∃ seq data, msg = .ok (chunkMsg b.re.id seq data) ∧
      FileReassembler.Acceptable b.re datas b.re.id seq data) ∨
    (IsEnd b datas msg ∧ b.step msg = { b with result := some (.ok ()) }) ∨
    (¬ IsEnd b datas msg ∧ ∃ e, b.step msg = { b with result := some (.error e) }) := by
  have hother : ∀ m : Message, (∀ id count, m ≠ .fileEnd id count) → ¬ IsEnd b datas (.ok m) := by
    rintro m hm ⟨heq, -⟩
    injection heq with heq
    exact hm _ _ heq
  unfold Body.step
  simp only [h.running]
  cases msg with
  | error e => exact .inr (.inr ⟨(by rintro ⟨heq, -⟩; cases heq), e, rfl⟩)
  | ok m =>
    cases m with
    | fileChunk id seq data =>
      cases hacc : b.re.accept id seq data with
      | error e =>
        exact .inr (.inr ⟨hother _ (fun _ _ hm => by cases hm), .file e, by simp only [hacc]⟩)
      | ok r =>
        obtain ⟨bytes, re'⟩ := r
        obtain ⟨ha, -⟩ := (FileReassembler.accept_eq_ok h.accounted).mp hacc
        obtain rfl := ha.id_eq
        exact .inl ⟨seq, data, rfl, ha⟩
    | fileEnd id count =>
      cases hc : b.re.complete id count with
      | error e =>
        refine .inr (.inr ⟨?_, .file e, by simp only [hc]⟩)
        rintro ⟨heq, hsize⟩
        obtain ⟨rfl, rfl⟩ : id = b.re.id ∧ count = UInt32.ofNat datas.length := by
          injection heq with heq
          injection heq with h1 h2
          exact ⟨h1, h2⟩
        have hcount : (UInt32.ofNat datas.length).toNat = datas.length :=
          UInt32.toNat_ofNat_of_lt' h.accounted.length_lt
        rw [(FileReassembler.complete_eq_ok h.accounted).mpr ⟨rfl, hcount, hsize⟩] at hc
        cases hc
      | ok u =>
        obtain ⟨rfl, hcount, hsize⟩ := (FileReassembler.complete_eq_ok h.accounted).mp hc
        refine .inr (.inl ⟨⟨?_, hsize⟩, by simp only [hc]⟩)
        rw [← hcount, UInt32.ofNat_toNat]
        rfl
    | _ => exact .inr (.inr ⟨hother _ (fun _ _ hm => by cases hm), .unexpected _, rfl⟩)

/-- Once the loop has returned, no message reaches it. -/
theorem Body.step_returned {b : Body} (h : b.result ≠ none) (msg : Except TransferError Message) :
    b.step msg = b := by
  unfold Body.step
  cases hr : b.result with
  | none => exact absurd hr h
  | some r => rfl

end SelfKvm
