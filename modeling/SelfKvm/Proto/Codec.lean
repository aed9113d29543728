/-
  The wire codec: `Reader`, `Writer`, `Message::encode`, `Message::decode`
  (`kvm-proto/src/codec.rs`, `message.rs`).

  A `Reader` of the source is a buffer and a position; all it ever looks at is the unread rest, so
  here it is a state monad over that rest (`Wire.Reader`), failing with a `ProtoError`.  The fields
  of a message are read in the order in which the source writes them down.

  Besides the definitions this file has, for each primitive reader, the one fact later proofs use:
  which bytes it accepts (`u16_reads`, `bytes_reads`, ...).
-/
import SelfKvm.Base.Wire
import SelfKvm.Proto.Message

namespace SelfKvm

open Wire

/-! ## Primitives -/

inductive ProtoError where
  | unexpectedEof (needed had : Nat)
  | unknownCode (code : List UInt8)
  | tooLong (declared max : Nat)
  | invalidUtf8
  deriving DecidableEq, Repr

/-- Hard ceiling on any length-prefixed field: 4 MiB. -/
def maxFieldLen : Nat := 4 * 1024 * 1024

/-- The bytes of a string. -/
def utf8 (s : String) : List UInt8 := s.toByteArray.data.toList

/-- `String::from_utf8`: the string spelled by these bytes, if they are valid UTF-8. -/
def fromUtf8 (bs : List UInt8) : Option String := String.fromUTF8? ⟨bs.toArray⟩

abbrev Reader (α : Type) : Type := Wire.Reader UInt8 ProtoError α

namespace Reader

def take (n : Nat) : Reader (List UInt8) := fun buf =>
  if buf.length < n then .error (.unexpectedEof n buf.length) else .ok (buf.take n, buf.drop n)

/-- Nothing left to read. -/
def isEmpty : Reader Bool := fun buf => .ok (buf.isEmpty, buf)

def u8 : Reader UInt8 := do
  let b ← take 1
  pure (UInt8.ofNat (beNat b))

def u16 : Reader UInt16 := do
  let b ← take 2
  pure (UInt16.ofNat (beNat b))

def u32 : Reader UInt32 := do
  let b ← take 4
  pure (UInt32.ofNat (beNat b))

def u64 : Reader UInt64 := do
  let b ← take 8
  pure (UInt64.ofNat (beNat b))

-- the `as` casts between a signed and an unsigned type of one width keep the bits
def i8 : Reader Int8 := do
  let v ← u8
  pure v.toInt8

def i16 : Reader Int16 := do
  let v ← u16
  pure v.toInt16

def i32 : Reader Int32 := do
  let v ← u32
  pure v.toInt32

/-- Exactly `n` raw bytes. -/
def fixed (n : Nat) : Reader (List UInt8) := take n

/-- A length-prefixed byte string. -/
def bytes : Reader (List UInt8) := do
  let len ← u32
  if len.toNat > maxFieldLen then
    throw (.tooLong len.toNat maxFieldLen)
  else
    take len.toNat

/-- A length-prefixed UTF-8 string. -/
def string : Reader String := do
  let bs ← bytes
  match fromUtf8 bs with
  | some s => pure s
  | none => throw .invalidUtf8

/-- A count followed by that many `i32`s. -/
def i32Vec : Reader (List Int32) := do
  let count ← u32
  if count.toNat > maxFieldLen / 4 then
    throw (.tooLong count.toNat (maxFieldLen / 4))
  else
    times i32 count.toNat

end Reader

/-- Append-only payload buffer. -/
structure Writer where
  buf : List UInt8 := []

namespace Writer

def new : Writer := {}

def raw (w : Writer) (bs : List UInt8) : Writer := ⟨w.buf ++ bs⟩

/-- Pre-seeded with an opcode. -/
def withCode (code : List UInt8) : Writer := new.raw code

def u8 (w : Writer) (v : UInt8) : Writer := ⟨w.buf ++ [v]⟩
def i8 (w : Writer) (v : Int8) : Writer := w.u8 v.toUInt8
def u16 (w : Writer) (v : UInt16) : Writer := ⟨w.buf ++ beBytes 2 v.toNat⟩
def i16 (w : Writer) (v : Int16) : Writer := w.u16 v.toUInt16
def u32 (w : Writer) (v : UInt32) : Writer := ⟨w.buf ++ beBytes 4 v.toNat⟩
def i32 (w : Writer) (v : Int32) : Writer := w.u32 v.toUInt32
def u64 (w : Writer) (v : UInt64) : Writer := ⟨w.buf ++ beBytes 8 v.toNat⟩

/-- `len() as u32` wraps at `2^32`. -/
def bytes (w : Writer) (b : List UInt8) : Writer := (w.u32 (UInt32.ofNat b.length)).raw b

def string (w : Writer) (s : String) : Writer := w.bytes (utf8 s)

def i32Vec (w : Writer) (v : List Int32) : Writer :=
  v.foldl (fun w x => w.i32 x) (w.u32 (UInt32.ofNat v.length))

def intoVec (w : Writer) : List UInt8 := w.buf

end Writer

/-! ## Messages -/

/-- The bytes of an ASCII opcode. -/
def ascii (cs : List Char) : List UInt8 := cs.map fun c => UInt8.ofNat c.toNat

/-- The greeting's magic, in place of an opcode. -/
def helloMagic : List UInt8 := ascii ['S', 'e', 'l', 'f', 'K', 'V', 'M']

/-- The 4-byte opcodes. -/
inductive Code where
  | queryInfo | deviceInfo | infoAck | resetOptions | setOptions | keepAlive | noOp | close
  | screenSaver | enter | leave | keyDown | keyUp | keyRepeat | mouseDown | mouseUp | mouseMove
  | mouseRelMove | mouseWheel | clipboardGrab | clipboardData | fileOffer | fileChunk | fileEnd
  | fileAccept | errIncompatible | errBusy | errUnknown | errBad
  deriving DecidableEq, Repr

namespace Code

def bytes : Code → List UInt8
  | queryInfo => ascii ['Q', 'I', 'N', 'F']
  | deviceInfo => ascii ['D', 'I', 'N', 'F']
  | infoAck => ascii ['C', 'I', 'A', 'K']
  | resetOptions => ascii ['C', 'R', 'O', 'P']
  | setOptions => ascii ['D', 'S', 'O', 'P']
  | keepAlive => ascii ['C', 'A', 'L', 'V']
  | noOp => ascii ['C', 'N', 'O', 'P']
  | close => ascii ['C', 'B', 'Y', 'E']
  | screenSaver => ascii ['C', 'S', 'E', 'C']
  | enter => ascii ['C', 'I', 'N', 'N']
  | leave => ascii ['C', 'O', 'U', 'T']
  | keyDown => ascii ['D', 'K', 'D', 'N']
  | keyUp => ascii ['D', 'K', 'U', 'P']
  | keyRepeat => ascii ['D', 'K', 'R', 'P']
  | mouseDown => ascii ['D', 'M', 'D', 'N']
  | mouseUp => ascii ['D', 'M', 'U', 'P']
  | mouseMove => ascii ['D', 'M', 'M', 'V']
  | mouseRelMove => ascii ['D', 'M', 'R', 'M']
  | mouseWheel => ascii ['D', 'M', 'W', 'M']
  | clipboardGrab => ascii ['C', 'C', 'L', 'P']
  | clipboardData => ascii ['D', 'C', 'L', 'P']
  | fileOffer => ascii ['F', 'O', 'F', 'R']
  | fileChunk => ascii ['F', 'D', 'A', 'T']
  | fileEnd => ascii ['F', 'E', 'N', 'D']
  | fileAccept => ascii ['F', 'A', 'C', 'K']
  | errIncompatible => ascii ['E', 'I', 'C', 'V']
  | errBusy => ascii ['E', 'B', 'S', 'Y']
  | errUnknown => ascii ['E', 'U', 'N', 'K']
  | errBad => ascii ['E', 'B', 'A', 'D']

/-- Every opcode, in the order in which `decode` compares them. -/
def all : List Code :=
  [.queryInfo, .deviceInfo, .infoAck, .resetOptions, .setOptions, .keepAlive, .noOp, .close,
   .screenSaver, .enter, .leave, .keyDown, .keyUp, .keyRepeat, .mouseDown, .mouseUp, .mouseMove,
   .mouseRelMove, .mouseWheel, .clipboardGrab, .clipboardData, .fileOffer, .fileChunk, .fileEnd,
   .fileAccept, .errIncompatible, .errBusy, .errUnknown, .errBad]

/-- The first opcode spelled by these bytes. -/
def ofBytes (codebuf : List UInt8) : Option Code := all.find? fun c => codebuf = c.bytes

end Code

def keyMsg (code : Code) (id : KeyId) (mask : KeyModifierMask) (button : KeyButton) :
    List UInt8 :=
  ((((Writer.withCode code.bytes).u16 id).u16 mask).u16 button).intoVec

def xyMsg (code : Code) (x y : Int16) : List UInt8 :=
  (((Writer.withCode code.bytes).i16 x).i16 y).intoVec

/-- The one-byte boolean `encode` writes. -/
def boolByte (on : Bool) : UInt8 := if on then 1 else 0

/-- Serialise a message to a payload (without the length frame). -/
def Message.encode : Message → List UInt8
  | hello major minor => (((Writer.new.raw helloMagic).i16 major).i16 minor).intoVec
  | helloBack major minor name =>
    ((((Writer.new.raw helloMagic).i16 major).i16 minor).string name).intoVec
  | queryInfo => (Writer.withCode Code.queryInfo.bytes).intoVec
  | deviceInfo x y w h warp mx my =>
    ((((((((Writer.withCode Code.deviceInfo.bytes).i16 x).i16 y).i16 w).i16 h).i16 warp).i16 mx).i16
      my).intoVec
  | infoAck => (Writer.withCode Code.infoAck.bytes).intoVec
  | resetOptions => (Writer.withCode Code.resetOptions.bytes).intoVec
  | setOptions opts => ((Writer.withCode Code.setOptions.bytes).i32Vec opts).intoVec
  | keepAlive => (Writer.withCode Code.keepAlive.bytes).intoVec
  | noOp => (Writer.withCode Code.noOp.bytes).intoVec
  | close => (Writer.withCode Code.close.bytes).intoVec
  | screenSaver on => ((Writer.withCode Code.screenSaver.bytes).u8 (boolByte on)).intoVec
  | enter x y seq modifiers =>
    (((((Writer.withCode Code.enter.bytes).i16 x).i16 y).u32 seq).u16 modifiers).intoVec
  | leave => (Writer.withCode Code.leave.bytes).intoVec
  | keyDown id mask button => keyMsg Code.keyDown id mask button
  | keyUp id mask button => keyMsg Code.keyUp id mask button
  | keyRepeat id mask count button =>
    (((((Writer.withCode Code.keyRepeat.bytes).u16 id).u16 mask).u16 count).u16 button).intoVec
  | mouseDown button => ((Writer.withCode Code.mouseDown.bytes).i8 button).intoVec
  | mouseUp button => ((Writer.withCode Code.mouseUp.bytes).i8 button).intoVec
  | mouseMove x y => xyMsg Code.mouseMove x y
  | mouseRelMove dx dy => xyMsg Code.mouseRelMove dx dy
  | mouseWheel x y => xyMsg Code.mouseWheel x y
  | clipboardGrab id seq => (((Writer.withCode Code.clipboardGrab.bytes).i8 id).u32 seq).intoVec
  | clipboardData id seq mark data =>
    (((((Writer.withCode Code.clipboardData.bytes).i8 id).u32 seq).i8 mark).bytes data).intoVec
  | fileOffer id name size =>
    ((((Writer.withCode Code.fileOffer.bytes).u32 id).string name).u64 size).intoVec
  | fileChunk id seq data =>
    ((((Writer.withCode Code.fileChunk.bytes).u32 id).u32 seq).bytes data).intoVec
  | fileEnd id count => (((Writer.withCode Code.fileEnd.bytes).u32 id).u32 count).intoVec
  | fileAccept id accept =>
    (((Writer.withCode Code.fileAccept.bytes).u32 id).u8 (boolByte accept)).intoVec
  | errIncompatible major minor =>
    (((Writer.withCode Code.errIncompatible.bytes).i16 major).i16 minor).intoVec
  | errBusy => (Writer.withCode Code.errBusy.bytes).intoVec
  | errUnknown => (Writer.withCode Code.errUnknown.bytes).intoVec
  | errBad => (Writer.withCode Code.errBad.bytes).intoVec

open Reader in
/-- The magic-prefixed greeting: a bare header is `hello`, anything after it a `helloBack`. -/
def readHello : Reader Message := do
  let _ ← fixed 7
  let major ← i16
  let minor ← i16
  if ← isEmpty then
    pure (.hello major minor)
  else
    pure (.helloBack major minor (← string))

open Reader in
/-- The fields that follow an opcode, in wire order. -/
def readBody : Code → Reader Message
  | .queryInfo => pure .queryInfo
  | .deviceInfo => do
    pure (.deviceInfo (← i16) (← i16) (← i16) (← i16) (← i16) (← i16) (← i16))
  | .infoAck => pure .infoAck
  | .resetOptions => pure .resetOptions
  | .setOptions => do pure (.setOptions (← i32Vec))
  | .keepAlive => pure .keepAlive
  | .noOp => pure .noOp
  | .close => pure .close
  | .screenSaver => do
    let b ← u8
    pure (.screenSaver (b != 0))
  | .enter => do pure (.enter (← i16) (← i16) (← u32) (← u16))
  | .leave => pure .leave
  | .keyDown => do pure (.keyDown (← u16) (← u16) (← u16))
  | .keyUp => do pure (.keyUp (← u16) (← u16) (← u16))
  | .keyRepeat => do pure (.keyRepeat (← u16) (← u16) (← u16) (← u16))
  | .mouseDown => do pure (.mouseDown (← i8))
  | .mouseUp => do pure (.mouseUp (← i8))
  | .mouseMove => do pure (.mouseMove (← i16) (← i16))
  | .mouseRelMove => do pure (.mouseRelMove (← i16) (← i16))
  | .mouseWheel => do pure (.mouseWheel (← i16) (← i16))
  | .clipboardGrab => do pure (.clipboardGrab (← i8) (← u32))
  | .clipboardData => do pure (.clipboardData (← i8) (← u32) (← i8) (← bytes))
  | .fileOffer => do pure (.fileOffer (← u32) (← string) (← u64))
  | .fileChunk => do pure (.fileChunk (← u32) (← u32) (← bytes))
  | .fileEnd => do pure (.fileEnd (← u32) (← u32))
  | .fileAccept => do
    let id ← u32
    let b ← u8
    pure (.fileAccept id (b != 0))
  | .errIncompatible => do pure (.errIncompatible (← i16) (← i16))
  | .errBusy => pure .errBusy
  | .errUnknown => pure .errUnknown
  | .errBad => pure .errBad

/-- Parse a message from a payload (the bytes inside one length frame). -/
def Message.decode (payload : List UInt8) : Except ProtoError Message :=
  if 7 ≤ payload.length ∧ payload.take 7 = helloMagic then
    readHello.run' payload
  else if payload.length < 4 then
    .error (.unexpectedEof 4 payload.length)
  else
    match Code.ofBytes (payload.take 4) with
    | some code => (readBody code).run' (payload.drop 4)
    | none => .error (.unknownCode (payload.take 4))

/-! ## What the primitives accept -/

/-- Valid UTF-8 spells one string, and the string spells those bytes. -/
theorem fromUtf8_eq_some {bs : List UInt8} {s : String} : fromUtf8 bs = some s ↔ bs = utf8 s := by
  show String.fromUTF8? ⟨bs.toArray⟩ = some s ↔ _
  unfold String.fromUTF8?
  constructor
  · intro h
    split at h
    · injection h with h
      rw [← h]
      rfl
    · cases h
  · rintro rfl
    have hb : (⟨(utf8 s).toArray⟩ : ByteArray) = s.toByteArray := by
      show (⟨s.toByteArray.data.toList.toArray⟩ : ByteArray) = s.toByteArray
      rw [Array.toArray_toList]
    rw [hb, dif_pos s.isValidUTF8]
    rfl

/-- `take n` reads exactly the byte strings of length `n`. -/
theorem take_reads (n : Nat) : Reads (Reader.take n) (fun b => b) (fun b => b.length = n) := by
  intro s a t
  show Reader.take n s = .ok (a, t) ↔ _
  unfold Reader.take
  by_cases hn : s.length < n
  · rw [if_pos hn]
    constructor
    · intro h
      cases h
    · rintro ⟨hlen, rfl⟩
      have hlen' : a.length = n := hlen
      have hn' : (a ++ t).length < n := hn
      rw [List.length_append] at hn'
      omega
  · rw [if_neg hn]
    constructor
    · intro h
      injection h with h
      injection h with h1 h2
      subst h1
      subst h2
      have hlen : (s.take n).length = n := by rw [List.length_take]; omega
      exact ⟨hlen, (List.take_append_drop n s).symm⟩
    · rintro ⟨hlen, rfl⟩
      subst hlen
      show Except.ok ((a ++ t).take a.length, (a ++ t).drop a.length) = _
      rw [List.take_left, List.drop_left]

/-- The unsigned readers: `k` bytes, big-endian, for any `of`/`val` pair that wraps at `256 ^ k`. -/
theorem unsigned_reads {α : Type} (k : Nat) (of : Nat → α) (val : α → Nat)
    (hof : ∀ a, of (val a) = a) (hval : ∀ n, n < 256 ^ k → val (of n) = n)
    (hlt : ∀ a, val a < 256 ^ k) :
    Reads (ε := ProtoError) (do let b ← Reader.take k; pure (of (beNat b)))
      (fun a => beBytes k (val a)) (fun _ => True) := by
  intro s a t
  rw [(take_reads k).bind_eq_ok]
  constructor
  · rintro ⟨b, hlen, u, hs, hq⟩
    obtain ⟨rfl, rfl⟩ := pure_eq_ok.mp hq
    have hb : val (of (beNat b)) = beNat b := hval _ (hlen ▸ beNat_lt b)
    have hk : beBytes k (beNat b) = b := by
      rw [← hlen]
      exact beBytes_beNat b
    refine ⟨trivial, ?_⟩
    show s = beBytes k (val (of (beNat b))) ++ u
    rw [hb, hk]
    exact hs
  · rintro ⟨-, hs⟩
    refine ⟨beBytes k (val a), beBytes_length k _, t, hs, pure_eq_ok.mpr ⟨?_, rfl⟩⟩
    rw [beNat_beBytes_of_lt (hlt a), hof]

/-- One byte. -/
theorem u8_reads : Reads Reader.u8 (fun v => [v]) (fun _ => True) := by
  have h := unsigned_reads 1 UInt8.ofNat UInt8.toNat (fun _ => UInt8.ofNat_toNat)
    (fun n hn => UInt8.toNat_ofNat_of_lt' hn) (fun a => a.toNat_lt)
  intro s a t
  rw [show Reader.u8.run s = .ok (a, t) ↔ _ from h s a t]
  show True ∧ s = [UInt8.ofNat a.toNat] ++ t ↔ True ∧ s = [a] ++ t
  rw [UInt8.ofNat_toNat]

/-- Two bytes, the high one first. -/
theorem u16_reads : Reads Reader.u16 (fun v => beBytes 2 v.toNat) (fun _ => True) :=
  unsigned_reads 2 UInt16.ofNat UInt16.toNat (fun _ => UInt16.ofNat_toNat)
    (fun _ hn => UInt16.toNat_ofNat_of_lt' hn) (fun a => a.toNat_lt)

theorem u32_reads : Reads Reader.u32 (fun v => beBytes 4 v.toNat) (fun _ => True) :=
  unsigned_reads 4 UInt32.ofNat UInt32.toNat (fun _ => UInt32.ofNat_toNat)
    (fun _ hn => UInt32.toNat_ofNat_of_lt' hn) (fun a => a.toNat_lt)

theorem u64_reads : Reads Reader.u64 (fun v => beBytes 8 v.toNat) (fun _ => True) :=
  unsigned_reads 8 UInt64.ofNat UInt64.toNat (fun _ => UInt64.ofNat_toNat)
    (fun _ hn => UInt64.toNat_ofNat_of_lt' hn) (fun a => a.toNat_lt)

/-- The signed readers accept what the unsigned ones do. -/
theorem i8_reads : Reads Reader.i8 (fun v => [v.toUInt8]) (fun _ => True) :=
  u8_reads.map (fun _ => rfl) (fun _ => rfl)

theorem i16_reads : Reads Reader.i16 (fun v => beBytes 2 v.toUInt16.toNat) (fun _ => True) :=
  u16_reads.map (fun _ => rfl) (fun _ => rfl)

theorem i32_reads : Reads Reader.i32 (fun v => beBytes 4 v.toUInt32.toNat) (fun _ => True) :=
  u32_reads.map (fun _ => rfl) (fun _ => rfl)

/-- A count-prefixed field: the count is checked against `max` before the body is read. -/
theorem counted_reads {α : Type} {body : Nat → Reader α} {enc : α → List UInt8} {size : α → Nat}
    (max : Nat) (hmax : max < 2 ^ 32)
    (hbody : ∀ n, Reads (body n) enc (fun a => size a = n)) :
    Reads (do
        let len ← Reader.u32
        if len.toNat > max then throw (.tooLong len.toNat max) else body len.toNat)
      (fun a => beBytes 4 (size a) ++ enc a) (fun a => size a ≤ max) := by
  intro s a t
  rw [u32_reads.bind_eq_ok]
  constructor
  · rintro ⟨len, -, u, hs, hq⟩
    by_cases hgt : len.toNat > max
    · rw [if_pos hgt] at hq
      exact absurd hq throw_ne_ok
    · rw [if_neg hgt] at hq
      obtain ⟨hsize, hu⟩ := (hbody _ u a t).mp hq
      refine ⟨by omega, ?_⟩
      show s = (beBytes 4 (size a) ++ enc a) ++ t
      rw [hs, hu, hsize, List.append_assoc]
  · rintro ⟨hle, hs⟩
    have hlen : (UInt32.ofNat (size a)).toNat = size a :=
      UInt32.toNat_ofNat_of_lt' (show size a < 2 ^ 32 by omega)
    refine ⟨UInt32.ofNat (size a), trivial, enc a ++ t, ?_, ?_⟩
    · show s = beBytes 4 (UInt32.ofNat (size a)).toNat ++ (enc a ++ t)
      rw [hlen, ← List.append_assoc]
      exact hs
    · rw [if_neg (by omega)]
      exact (hbody _ _ a t).mpr ⟨hlen.symm, rfl⟩

/-- A byte string: its length in four bytes, and as many bytes. -/
theorem bytes_reads :
    Reads Reader.bytes (fun b => beBytes 4 b.length ++ b) (fun b => b.length ≤ maxFieldLen) :=
  counted_reads maxFieldLen (by decide) take_reads

/-- A list of numbers: their count, and four bytes for each. -/
theorem i32Vec_reads :
    Reads Reader.i32Vec
      (fun v => beBytes 4 v.length ++ v.flatMap fun x => beBytes 4 x.toUInt32.toNat)
      (fun v => v.length ≤ maxFieldLen / 4) :=
  counted_reads (maxFieldLen / 4) (by decide) i32_reads.times

/-- A string: its UTF-8, as a byte string; everything else is refused. -/
theorem string_reads :
    Reads Reader.string (fun s => beBytes 4 (utf8 s).length ++ utf8 s)
      (fun s => (utf8 s).length ≤ maxFieldLen) := by
  intro s a t
  unfold Reader.string
  rw [bytes_reads.bind_eq_ok]
  constructor
  · rintro ⟨b, hle, u, hs, hq⟩
    -- the bytes are read before they are looked at
    cases hb : fromUtf8 b with
    | none =>
      simp only [hb] at hq
      exact absurd hq throw_ne_ok
    | some c =>
      simp only [hb] at hq
      obtain ⟨rfl, rfl⟩ := pure_eq_ok.mp hq
      obtain rfl := fromUtf8_eq_some.mp hb
      exact ⟨hle, hs⟩
  · rintro ⟨hle, hs⟩
    refine ⟨utf8 a, hle, t, hs, ?_⟩
    simp only [fromUtf8_eq_some.mpr (rfl : utf8 a = utf8 a)]
    exact pure_eq_ok.mpr ⟨rfl, rfl⟩

end SelfKvm
