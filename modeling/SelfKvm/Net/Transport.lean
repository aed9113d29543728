/-
  Framing: messages over a byte stream (`kvm-net/src/transport.rs`).

  A frame is a 4-byte big-endian length and that many payload bytes.  The writer appends frames to
  the stream; the reader takes the length, resizes its one buffer to it and lets the stream
  overwrite it.  The stream gives its bytes in pieces of its own choosing (`Source.Answers`), and
  may end anywhere.

  `recv_cut_stream` is the result: whatever prefix of the written stream arrives, and however it is
  cut into reads, the reader returns the messages whose frames are complete, and after them only
  `Closed`.  It rests on two facts about a single `recv`: `recv_frame` (a whole frame in front is
  returned, and the rest of the stream is untouched) and `recv_short` (less than one frame is never
  a message).
-/
import SelfKvm.Base.Source
import SelfKvm.Proto.Grammar

namespace SelfKvm

open Wire Source

/-! ## The code -/

/-- Upper bound on the payload of one frame: 4 MiB. -/
def maxFrameLen : Nat := 4 * 1024 * 1024

/-- The kinds of I/O error the code tells apart: an early end, a name that is taken, and everything
    else. -/
inductive IoError where
  | unexpectedEof
  | alreadyExists
  | other (kind : Nat)
  deriving DecidableEq, Repr

inductive NetError where
  | closed
  | frameTooLarge (len : Nat)
  | proto (e : ProtoError)
  | io (e : IoError)
  deriving DecidableEq, Repr

/-- Bytes of a connection as they arrive. -/
abbrev Incoming : Type := Answers UInt8 IoError

/-- `read_exact`: overwrite the whole buffer, or fail when the stream ends before it is full. -/
def readExact (inner : Incoming) (buf : List UInt8) : Except IoError (List UInt8) × Incoming :=
  match readLoop inner buf.length with
  | (.error e, inner) => (.error e, inner)
  | (.ok got, inner) =>
    if got.length < buf.length then
      (.error .unexpectedEof, inner)
    else
      (.ok (got ++ buf.drop got.length), inner)

/-- `Vec::resize`: cut to `len`, or padded with `v` up to it. -/
def resize (buf : List UInt8) (len : Nat) (v : UInt8) : List UInt8 :=
  buf.take len ++ List.replicate (len - buf.length) v

/-- An early end of the stream is a closed connection, any other I/O error is passed on. -/
def NetError.ofRead : IoError → NetError
  | .unexpectedEof => .closed
  | e => .io e

structure FramedReader where
  inner : Incoming
  buf : List UInt8

namespace FramedReader

def new (inner : Incoming) : FramedReader := ⟨inner, []⟩

/-- Read and decode the next message. -/
def recv (r : FramedReader) : Except NetError Message × FramedReader :=
  match readExact r.inner (List.replicate 4 0) with
  | (.error e, inner) => (.error (.ofRead e), { r with inner })
  | (.ok lenBytes, inner) =>
    let len := beNat lenBytes
    if len > maxFrameLen then
      (.error (.frameTooLarge len), { r with inner })
    else
      let buf := resize r.buf len 0
      match readExact inner buf with
      | (.error e, inner) => (.error (.ofRead e), { inner, buf })
      | (.ok buf, inner) =>
        match Message.decode buf with
        | .ok m => (.ok m, { inner, buf })
        | .error e => (.error (.proto e), { inner, buf })

/-- The results of `n` calls of `recv` on one reader. -/
def recvs : Nat → FramedReader → List (Except NetError Message)
  | 0, _ => []
  | n + 1, r => r.recv.1 :: recvs n r.recv.2

end FramedReader

/-- The write side; `inner` is what has been written so far. -/
structure FramedWriter where
  inner : List UInt8

namespace FramedWriter

def new : FramedWriter := ⟨[]⟩

/-- Encode and write one message in one combined buffer. -/
def send (w : FramedWriter) (msg : Message) : FramedWriter :=
  let payload := msg.encode
  let len := UInt32.ofNat payload.length
  let frame := beBytes 4 len.toNat ++ payload
  ⟨w.inner ++ frame⟩

end FramedWriter

/-! ## The written stream -/

/-- The bytes `FramedWriter::send` writes for these messages, one after the other. -/
def written (msgs : List Message) : List UInt8 :=
  (msgs.foldl FramedWriter.send FramedWriter.new).inner

/-- What a frame needs to be read back: the codec's field limits, and the frame limit. -/
def Message.Frames (m : Message) : Prop := m.WithinLimits ∧ m.encode.length ≤ maxFrameLen

/-- No reader takes the frame of the message, short of one whose length wraps; the writer sends it
    all the same. -/
def Message.oversized (m : Message) : Bool := maxFrameLen < m.encode.length

theorem Message.oversized_eq (m : Message) : m.oversized = decide (maxFrameLen < m.size) := by
  unfold oversized
  rw [encode_length]

theorem Message.Frames.not_oversized {m : Message} (h : m.Frames) : m.oversized = false :=
  decide_eq_false (Nat.not_lt.mpr h.2)

/-- The bytes of one frame. -/
def frame (m : Message) : List UInt8 := (FramedWriter.new.send m).inner

theorem foldl_send (w : FramedWriter) (msgs : List Message) :
    (msgs.foldl FramedWriter.send w).inner = w.inner ++ msgs.flatMap frame := by
  induction msgs generalizing w with
  | nil => rw [List.foldl_nil, List.flatMap_nil, List.append_nil]
  | cons m msgs ih =>
    rw [List.foldl_cons, ih, List.flatMap_cons, ← List.append_assoc]
    rfl

theorem written_eq_flatMap (msgs : List Message) : written msgs = msgs.flatMap frame :=
  foldl_send FramedWriter.new msgs

@[simp] theorem written_nil : written [] = [] := rfl

@[simp] theorem written_cons (m : Message) (msgs : List Message) :
    written (m :: msgs) = frame m ++ written msgs := by
  simp only [written_eq_flatMap, List.flatMap_cons]

/-- A payload within the frame limit is announced by its true length. -/
theorem frame_eq {m : Message} (h : m.encode.length ≤ maxFrameLen) :
    frame m = beBytes 4 m.encode.length ++ m.encode := by
  have hlen : (UInt32.ofNat m.encode.length).toNat = m.encode.length :=
    Writer.u32_ofNat h (by decide)
  show [] ++ (beBytes 4 (UInt32.ofNat m.encode.length).toNat ++ m.encode) = _
  rw [List.nil_append, hlen]

/-- Even an empty payload has a header. -/
theorem frame_length_pos (m : Message) : 0 < (frame m).length := by
  show 0 < ([] ++ (beBytes 4 (UInt32.ofNat m.encode.length).toNat ++ m.encode)).length
  rw [List.nil_append, List.length_append, beBytes_length]
  omega

/-! ## One `recv` -/

@[simp] theorem resize_length (buf : List UInt8) (len : Nat) (v : UInt8) :
    (resize buf len v).length = len := by
  unfold resize
  rw [List.length_append, List.length_take, List.length_replicate]
  omega

/-- The buffer's old contents never show: a full buffer is the front of the stream. -/
theorem readExact_full {inner : Incoming} {bs : List UInt8} (h : Delivers inner bs)
    (buf : List UInt8) (hlen : buf.length ≤ bs.length) :
    ∃ inner', readExact inner buf = (.ok (bs.take buf.length), inner') ∧
      Delivers inner' (bs.drop buf.length) := by
  obtain ⟨inner', hloop, h'⟩ := h.readLoop buf.length
  refine ⟨inner', ?_, h'⟩
  have hgot : (bs.take buf.length).length = buf.length := List.length_take_of_le hlen
  unfold readExact
  rw [hloop]
  simp only [hgot, Nat.lt_irrefl, if_false, List.drop_length, List.append_nil]

/-- A stream that ends too early fails the read, and nothing is left of it. -/
theorem readExact_short {inner : Incoming} {bs : List UInt8} (h : Delivers inner bs)
    (buf : List UInt8) (hlen : bs.length < buf.length) :
    ∃ inner', readExact inner buf = (.error .unexpectedEof, inner') ∧ Delivers inner' [] := by
  obtain ⟨inner', hloop, h'⟩ := h.readLoop buf.length
  rw [List.drop_of_length_le (Nat.le_of_lt hlen)] at h'
  refine ⟨inner', ?_, h'⟩
  unfold readExact
  rw [hloop, List.take_of_length_le (Nat.le_of_lt hlen)]
  simp only [hlen, if_true]

/-- A full read has the length of its buffer. -/
theorem readExact_length {inner inner' : Incoming} {buf got : List UInt8}
    (h : readExact inner buf = (.ok got, inner')) : got.length = buf.length := by
  unfold readExact at h
  rcases hloop : readLoop inner buf.length with ⟨e | read, rest⟩
  · rw [hloop] at h
    cases (Prod.mk.inj h).1
  · simp only [hloop] at h
    by_cases hshort : read.length < buf.length
    · rw [if_pos hshort] at h
      cases (Prod.mk.inj h).1
    · rw [if_neg hshort] at h
      obtain ⟨hgot, -⟩ := Prod.mk.inj h
      injection hgot with hgot
      have hle : read.length ≤ buf.length := readLoop_length_le hloop
      rw [← hgot, List.length_append, List.length_drop]
      omega

namespace FramedReader

/-- **A whole frame in front is returned as its message**, whatever the buffer held before, and the
    stream goes on where the frame ended. -/
theorem recv_frame {r : FramedReader} {m : Message} {rest : List UInt8} (hm : m.Frames)
    (h : Delivers r.inner (frame m ++ rest)) :
    ∃ r', r.recv = (.ok m, r') ∧ Delivers r'.inner rest := by
  obtain ⟨hw, hlen⟩ := hm
  have hhead : (beBytes 4 m.encode.length).length = 4 := beBytes_length 4 _
  rw [frame_eq hlen, List.append_assoc] at h
  obtain ⟨inner₁, hread₁, h₁⟩ := readExact_full h (List.replicate 4 0) (by simp)
  rw [List.length_replicate, List.take_left' hhead] at hread₁
  rw [List.length_replicate, List.drop_left' hhead] at h₁
  have hnat : beNat (beBytes 4 m.encode.length) = m.encode.length := by
    have hmax : maxFrameLen < 256 ^ 4 := by decide
    exact beNat_beBytes_of_lt (by omega)
  obtain ⟨inner₂, hread₂, h₂⟩ :=
    readExact_full h₁ (resize r.buf m.encode.length 0) (by simp)
  rw [resize_length, List.take_left] at hread₂
  rw [resize_length, List.drop_left] at h₂
  refine ⟨⟨inner₂, m.encode⟩, ?_, h₂⟩
  unfold recv
  simp only [hread₁, hnat, Nat.not_lt.mpr hlen, if_false, hread₂, decode_encode hw]

/-- A message that is returned was decoded from a buffer within the frame limit. -/
theorem recv_ok {r r' : FramedReader} {m : Message} (h : r.recv = (.ok m, r')) :
    ∃ buf : List UInt8, buf.length ≤ maxFrameLen ∧ Message.decode buf = .ok m := by
  unfold recv at h
  rcases hread : readExact r.inner (List.replicate 4 0) with ⟨e | lenBytes, inner⟩
  · rw [hread] at h
    cases (Prod.mk.inj h).1
  · simp only [hread] at h
    by_cases hlen : beNat lenBytes > maxFrameLen
    · rw [if_pos hlen] at h
      cases (Prod.mk.inj h).1
    · rw [if_neg hlen] at h
      rcases hbody : readExact inner (resize r.buf (beNat lenBytes) 0) with ⟨e | buf, inner'⟩
      · rw [hbody] at h
        cases (Prod.mk.inj h).1
      · simp only [hbody] at h
        have hbuf := readExact_length hbody
        rw [resize_length] at hbuf
        rcases hdecode : Message.decode buf with e | m'
        · rw [hdecode] at h
          cases (Prod.mk.inj h).1
        · rw [hdecode] at h
          obtain ⟨hm, -⟩ := Prod.mk.inj h
          injection hm with hm
          exact ⟨buf, by omega, hm ▸ hdecode⟩

/-- Fewer than four bytes are not even a length. -/
theorem recv_no_header {r : FramedReader} {bs : List UInt8} (hbs : bs.length < 4)
    (h : Delivers r.inner bs) :
    ∃ r', r.recv = (.error .closed, r') ∧ Delivers r'.inner [] := by
  obtain ⟨inner', hread, h'⟩ := readExact_short h (List.replicate 4 0) (by simpa using hbs)
  refine ⟨⟨inner', r.buf⟩, ?_, h'⟩
  unfold recv
  rw [hread]
  rfl

/-- **Less than one frame is never a message**: the reader reports the end, and the cut frame's
    bytes are gone. -/
theorem recv_short {r : FramedReader} {m : Message} {k : Nat} (hm : m.Frames)
    (hk : k < (frame m).length) (h : Delivers r.inner ((frame m).take k)) :
    ∃ r', r.recv = (.error .closed, r') ∧ Delivers r'.inner [] := by
  obtain ⟨-, hlen⟩ := hm
  by_cases hhead : k < 4
  · exact recv_no_header (by rw [List.length_take]; omega) h
  · -- the length is there, part of the payload is not
    have hlen4 : (beBytes 4 m.encode.length).length = 4 := beBytes_length 4 _
    rw [frame_eq hlen] at hk h
    rw [List.length_append, hlen4] at hk
    have hcut : (beBytes 4 m.encode.length ++ m.encode).take k
        = beBytes 4 m.encode.length ++ m.encode.take (k - 4) := by
      rw [List.take_append, hlen4, List.take_of_length_le (by omega)]
    rw [hcut] at h
    obtain ⟨inner₁, hread₁, h₁⟩ := readExact_full h (List.replicate 4 0) (by simp)
    rw [List.length_replicate, List.take_left' hlen4] at hread₁
    rw [List.length_replicate, List.drop_left' hlen4] at h₁
    have hnat : beNat (beBytes 4 m.encode.length) = m.encode.length := by
      have hmax : maxFrameLen < 256 ^ 4 := by decide
      exact beNat_beBytes_of_lt (by omega)
    obtain ⟨inner₂, hread₂, h₂⟩ :=
      readExact_short h₁ (resize r.buf m.encode.length 0)
        (by rw [resize_length, List.length_take]; omega)
    refine ⟨⟨inner₂, resize r.buf m.encode.length 0⟩, ?_, h₂⟩
    unfold recv
    simp only [hread₁, hnat, Nat.not_lt.mpr hlen, if_false, hread₂]
    rfl

/-- A frame that announces too much fails the read before any of its payload is read. -/
theorem recv_too_large {r : FramedReader} {m : Message} {rest : List UInt8}
    (hlarge : maxFrameLen < m.encode.length) (hfits : m.encode.length < 2 ^ 32)
    (h : Delivers r.inner (frame m ++ rest)) :
    r.recv.1 = .error (.frameTooLarge m.encode.length) := by
  have hframe : frame m = beBytes 4 m.encode.length ++ m.encode := by
    show [] ++ (beBytes 4 (UInt32.ofNat m.encode.length).toNat ++ m.encode) = _
    rw [List.nil_append, UInt32.toNat_ofNat_of_lt' hfits]
  have hhead : (beBytes 4 m.encode.length).length = 4 := beBytes_length 4 _
  rw [hframe, List.append_assoc] at h
  obtain ⟨inner, hread, -⟩ := readExact_full h (List.replicate 4 0) (by simp)
  rw [List.length_replicate, List.take_left' hhead] at hread
  have hnat : beNat (beBytes 4 m.encode.length) = m.encode.length :=
    beNat_beBytes_of_lt (show m.encode.length < 256 ^ 4 by omega)
  unfold recv
  simp only [hread, hnat, gt_iff_lt, hlarge, if_true]

end FramedReader

/-- The peer accepts a message: whatever follows on the stream and however it is cut, a reader with
    the message's frame in front returns the message and goes on behind it. -/
def Message.Received (m : Message) : Prop :=
  ∀ (r : FramedReader) (rest : List UInt8), Delivers r.inner (frame m ++ rest) →
    ∃ r', r.recv = (.ok m, r') ∧ Delivers r'.inner rest

/-- **The limits are exact**: a message gets through if and only if its fields and its frame are
    within them.  A payload of `2^32` bytes or more announces less than it has, and what is read
    back is shorter. -/
theorem Message.received_iff {m : Message} : m.Received ↔ m.Frames := by
  constructor
  · intro h
    have hdelivers : Delivers (FramedReader.new [.ok (frame m)]).inner (frame m ++ []) :=
      .read (frame_length_pos m) .done
    obtain ⟨r', hrecv, -⟩ := h _ [] hdelivers
    obtain ⟨buf, hbuf, hdecode⟩ := FramedReader.recv_ok hrecv
    obtain ⟨hw, e, t, hspells, rfl, -⟩ := decode_eq_ok.mp hdecode
    rw [List.length_append, hspells.length_eq] at hbuf
    exact ⟨hw, by omega⟩
  · intro h r rest hd
    exact FramedReader.recv_frame h hd

namespace FramedReader

/-! ## The whole stream -/

/-- At the end of the stream every further call reports it again. -/
theorem recvs_closed {r : FramedReader} (h : Delivers r.inner []) (n : Nat) :
    recvs n r = List.replicate n (.error .closed) := by
  induction n generalizing r with
  | zero => rfl
  | succ n ih =>
    obtain ⟨r', hrecv, h'⟩ := recv_no_header (show ([] : List UInt8).length < 4 by decide) h
    rw [recvs, hrecv, ih h', List.replicate_succ]

end FramedReader

/-- How many of the frames end at or before position `k` of the stream. -/
def framesBy (k : Nat) (msgs : List Message) : Nat :=
  (List.range msgs.length).countP fun i => (written (msgs.take (i + 1))).length ≤ k

theorem framesBy_cons (k : Nat) (m : Message) (msgs : List Message) :
    framesBy k (m :: msgs) =
      if (frame m).length ≤ k then framesBy (k - (frame m).length) msgs + 1 else 0 := by
  unfold framesBy
  rw [List.length_cons, List.range_succ_eq_map, List.countP_cons, List.countP_map]
  by_cases hk : (frame m).length ≤ k
  · have htail : (List.range msgs.length).countP
          ((fun i => decide ((written ((m :: msgs).take (i + 1))).length ≤ k)) ∘ Nat.succ)
        = (List.range msgs.length).countP
          fun i => decide ((written (msgs.take (i + 1))).length ≤ k - (frame m).length) := by
      apply List.countP_congr
      intro i _
      simp only [Function.comp, Nat.succ_eq_add_one, List.take_succ_cons, written_cons,
        List.length_append, decide_eq_true_eq]
      omega
    rw [htail, if_pos hk]
    simp [hk]
  · rw [if_neg hk, List.countP_eq_zero.mpr]
    · simp [hk]
    · intro i _
      simp only [Function.comp, Nat.succ_eq_add_one, List.take_succ_cons, written_cons,
        List.length_append, decide_eq_true_eq]
      omega

namespace FramedReader

/-- How long the tail of errors is does not matter once it is long enough. -/
theorem take_pad {α : Type} (xs : List α) (c : α) (n : Nat) :
    (xs ++ List.replicate (n + 1) c).take n = (xs ++ List.replicate n c).take n := by
  simp only [List.take_append, List.take_replicate]
  rw [show min (n - xs.length) (n + 1) = min (n - xs.length) n by omega]

/-- **A cut stream carries exactly its complete frames.**  Write any framable messages, let any
    prefix of the stream arrive in any pieces: one reader, called any number of times, returns the
    messages whose frames ended in that prefix, unaltered and in order, and then `Closed` for
    ever. -/
theorem recv_cut_stream {msgs : List Message} (hmsgs : ∀ m ∈ msgs, m.Frames) (k : Nat)
    {r : FramedReader} (h : Delivers r.inner ((written msgs).take k)) (n : Nat) :
    recvs n r =
      ((msgs.take (framesBy k msgs)).map Except.ok
        ++ List.replicate n (Except.error NetError.closed)).take n := by
  induction msgs generalizing k r n with
  | nil =>
    rw [written_nil, List.take_nil] at h
    rw [recvs_closed h, List.take_nil, List.map_nil, List.nil_append, List.take_replicate,
      Nat.min_self]
  | cons m msgs ih =>
    have hm : m.Frames := hmsgs m List.mem_cons_self
    have hms : ∀ m ∈ msgs, m.Frames := fun m' h' => hmsgs m' (List.mem_cons_of_mem m h')
    rw [framesBy_cons]
    cases n with
    | zero => rfl
    | succ n =>
      by_cases hk : (frame m).length ≤ k
      · rw [written_cons, List.take_append, List.take_of_length_le hk] at h
        obtain ⟨r', hrecv, h'⟩ := recv_frame hm h
        rw [if_pos hk, recvs, hrecv, ih hms _ h', List.take_succ_cons, List.map_cons,
          List.cons_append, List.take_succ_cons, take_pad]
      · rw [written_cons, List.take_append_of_le_length (by omega)] at h
        obtain ⟨r', hrecv, h'⟩ := recv_short hm (by omega) h
        rw [if_neg hk, recvs, hrecv, recvs_closed h', List.take_zero, List.map_nil, List.nil_append,
          List.take_replicate, Nat.min_self, List.replicate_succ]

theorem recv_cut_stream_mid_frame :
    recvs 3 (new [.ok [0, 0, 0], .ok [4, 81, 73, 78, 70], .ok [0, 0, 0]])
      = [.ok .queryInfo, .error .closed, .error .closed] := by
  have hmsgs : ∀ m ∈ [Message.queryInfo, .mouseMove 123 (-45)], m.Frames := by
    intro m hm
    simp only [List.mem_cons, List.not_mem_nil, or_false] at hm
    rcases hm with rfl | rfl
    · exact ⟨trivial, by decide⟩
    · exact ⟨trivial, by decide⟩
  have hcut : (written [Message.queryInfo, .mouseMove 123 (-45)]).take 11
      = [0, 0, 0] ++ ([4, 81, 73, 78, 70] ++ ([0, 0, 0] ++ [])) := by decide
  have h : Delivers (new [.ok [0, 0, 0], .ok [4, 81, 73, 78, 70], .ok [0, 0, 0]]).inner
      ((written [Message.queryInfo, .mouseMove 123 (-45)]).take 11) := by
    rw [hcut]
    exact .read (by decide) (.read (by decide) (.read (by decide) .done))
  exact recv_cut_stream hmsgs 11 h 3

end FramedReader

end SelfKvm
