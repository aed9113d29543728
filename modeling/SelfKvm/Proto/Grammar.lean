/-
  The wire grammar: which payloads `Message::decode` accepts, and as which message.

  `Message.decode p = .ok m` holds exactly when `p` spells `m` — `m`'s own encoding, up to the one
  byte of a boolean — followed by bytes nobody looks at (`decode_eq_ok`).  Everything else about the
  codec is read off that one equivalence: `encode` is inverted (`decode_encode`), and a truncated
  encoding is never mistaken for another message, with the single exception the two greetings make
  by sharing a header (`decode_truncated`).

  The proof goes opcode by opcode: `readBody_eq_ok` takes each body apart field by field with the
  rules of `SelfKvm.Base.Wire`, and `readHello_eq_ok` does the same for the magic-prefixed pair.
-/
import SelfKvm.Proto.Codec

namespace SelfKvm

open Wire

/-! ## The writer, as plain byte strings -/

namespace Writer

@[simp] theorem intoVec_new : new.intoVec = [] := rfl

@[simp] theorem intoVec_withCode (code : List UInt8) : (withCode code).intoVec = code := rfl

@[simp] theorem intoVec_raw (w : Writer) (bs : List UInt8) :
    (w.raw bs).intoVec = w.intoVec ++ bs := rfl

@[simp] theorem intoVec_u8 (w : Writer) (v : UInt8) : (w.u8 v).intoVec = w.intoVec ++ [v] := rfl

@[simp] theorem intoVec_i8 (w : Writer) (v : Int8) :
    (w.i8 v).intoVec = w.intoVec ++ [v.toUInt8] := rfl

@[simp] theorem intoVec_u16 (w : Writer) (v : UInt16) :
    (w.u16 v).intoVec = w.intoVec ++ beBytes 2 v.toNat := rfl

@[simp] theorem intoVec_i16 (w : Writer) (v : Int16) :
    (w.i16 v).intoVec = w.intoVec ++ beBytes 2 v.toUInt16.toNat := rfl

@[simp] theorem intoVec_u32 (w : Writer) (v : UInt32) :
    (w.u32 v).intoVec = w.intoVec ++ beBytes 4 v.toNat := rfl

@[simp] theorem intoVec_i32 (w : Writer) (v : Int32) :
    (w.i32 v).intoVec = w.intoVec ++ beBytes 4 v.toUInt32.toNat := rfl

@[simp] theorem intoVec_u64 (w : Writer) (v : UInt64) :
    (w.u64 v).intoVec = w.intoVec ++ beBytes 8 v.toNat := rfl

/-- Numbers one after the other. -/
theorem intoVec_foldl_i32 (w : Writer) (v : List Int32) :
    (v.foldl (fun w x => w.i32 x) w).intoVec
      = w.intoVec ++ v.flatMap fun x => beBytes 4 x.toUInt32.toNat := by
  induction v generalizing w with
  | nil => rw [List.foldl_nil, List.flatMap_nil, List.append_nil]
  | cons x v ih =>
    rw [List.foldl_cons, ih, List.flatMap_cons, intoVec_i32, List.append_assoc]

/-- A length that fits in 32 bits is written as it is. -/
theorem u32_ofNat {n max : Nat} (h : n ≤ max) (hmax : max < 2 ^ 32) :
    (UInt32.ofNat n).toNat = n :=
  UInt32.toNat_ofNat_of_lt' (show n < 2 ^ 32 by omega)

/-- A byte string within the limit: its length, and itself. -/
theorem intoVec_bytes (w : Writer) {b : List UInt8} (h : b.length ≤ maxFieldLen) :
    (w.bytes b).intoVec = w.intoVec ++ (beBytes 4 b.length ++ b) := by
  unfold bytes
  rw [intoVec_raw, intoVec_u32, u32_ofNat h (by decide), List.append_assoc]

/-- A string is written as its UTF-8. -/
theorem intoVec_string (w : Writer) {s : String} (h : (utf8 s).length ≤ maxFieldLen) :
    (w.string s).intoVec = w.intoVec ++ (beBytes 4 (utf8 s).length ++ utf8 s) :=
  intoVec_bytes w h

/-- A list of numbers within the limit: their count, and each. -/
theorem intoVec_i32Vec (w : Writer) {v : List Int32} (h : v.length ≤ maxFieldLen / 4) :
    (w.i32Vec v).intoVec
      = w.intoVec ++ (beBytes 4 v.length ++ v.flatMap fun x => beBytes 4 x.toUInt32.toNat) := by
  unfold i32Vec
  rw [intoVec_foldl_i32, intoVec_u32, u32_ofNat h (by decide), List.append_assoc]

end Writer

/-! ## The grammar -/

namespace Message

/-- Every length-prefixed field is within the limit its reader checks. -/
def WithinLimits : Message → Prop
  | helloBack _ _ name => (utf8 name).length ≤ maxFieldLen
  | setOptions opts => opts.length ≤ maxFieldLen / 4
  | clipboardData _ _ _ data => data.length ≤ maxFieldLen
  | fileOffer _ name _ => (utf8 name).length ≤ maxFieldLen
  | fileChunk _ _ data => data.length ≤ maxFieldLen
  | _ => True

/-- `Spells m e` — `e` is the encoding of `m`, except that a final boolean byte may be any byte
    that is zero exactly when the boolean is false. -/
def Spells : Message → List UInt8 → Prop
  | screenSaver on, e => ∃ b : UInt8, (b != 0) = on ∧ e = (screenSaver on).encode.dropLast ++ [b]
  | fileAccept id accept, e =>
    ∃ b : UInt8, (b != 0) = accept ∧ e = (fileAccept id accept).encode.dropLast ++ [b]
  | m, e => e = m.encode

/-- The greeting without a name: the one message after which nothing may follow. -/
def isHello : Message → Bool
  | hello .. => true
  | _ => false

/-- The opcode a message is written under; the greetings have the magic instead. -/
def code : Message → Option Code
  | hello .. => none
  | helloBack .. => none
  | queryInfo => some .queryInfo
  | deviceInfo .. => some .deviceInfo
  | infoAck => some .infoAck
  | resetOptions => some .resetOptions
  | setOptions .. => some .setOptions
  | keepAlive => some .keepAlive
  | noOp => some .noOp
  | close => some .close
  | screenSaver .. => some .screenSaver
  | enter .. => some .enter
  | leave => some .leave
  | keyDown .. => some .keyDown
  | keyUp .. => some .keyUp
  | keyRepeat .. => some .keyRepeat
  | mouseDown .. => some .mouseDown
  | mouseUp .. => some .mouseUp
  | mouseMove .. => some .mouseMove
  | mouseRelMove .. => some .mouseRelMove
  | mouseWheel .. => some .mouseWheel
  | clipboardGrab .. => some .clipboardGrab
  | clipboardData .. => some .clipboardData
  | fileOffer .. => some .fileOffer
  | fileChunk .. => some .fileChunk
  | fileEnd .. => some .fileEnd
  | fileAccept .. => some .fileAccept
  | errIncompatible .. => some .errIncompatible
  | errBusy => some .errBusy
  | errUnknown => some .errUnknown
  | errBad => some .errBad

end Message

/-- An opcode has four bytes. -/
theorem Code.bytes_length (c : Code) : c.bytes.length = 4 := by
  cases c <;> rfl

theorem Code.ofBytes_bytes (c : Code) : Code.ofBytes c.bytes = some c := by
  cases c <;> rfl

/-- Opcodes differ, so the comparison finds the one that is spelled. -/
theorem Code.ofBytes_eq_some {b : List UInt8} {c : Code} : Code.ofBytes b = some c ↔ b = c.bytes := by
  constructor
  · intro h
    unfold Code.ofBytes at h
    have hb := List.find?_some h
    exact of_decide_eq_true hb
  · rintro rfl
    exact Code.ofBytes_bytes c

/-- No opcode starts like the magic. -/
theorem Code.bytes_ne_magic (c : Code) : c.bytes ≠ helloMagic.take 4 := by
  cases c <;> decide

/-! ## One body -/

/-- What follows the opcode of an accepted payload spells the message returned. -/
theorem readBody_sound {c : Code} {s t : List UInt8} {m : Message}
    (h : (readBody c).run s = .ok (m, t)) :
    m.WithinLimits ∧ m.code = some c ∧ ∃ e, m.Spells (c.bytes ++ e) ∧ s = e ++ t := by
  cases c <;> simp only [readBody, u8_reads.bind_eq_ok, i8_reads.bind_eq_ok,
    u16_reads.bind_eq_ok, i16_reads.bind_eq_ok, u32_reads.bind_eq_ok, u64_reads.bind_eq_ok,
    bytes_reads.bind_eq_ok, string_reads.bind_eq_ok, i32Vec_reads.bind_eq_ok, pure_eq_ok,
    true_and] at h
  -- bodies with as many fields go together
  case queryInfo | infoAck | resetOptions | keepAlive | noOp | close | leave | errBusy |
      errUnknown | errBad =>
    obtain ⟨rfl, rfl⟩ := h
    exact ⟨trivial, rfl, [], rfl, rfl⟩
  case mouseDown | mouseUp =>
    obtain ⟨b, u, rfl, rfl, rfl⟩ := h
    exact ⟨trivial, rfl, _, rfl, rfl⟩
  case mouseMove | mouseRelMove | mouseWheel | errIncompatible | clipboardGrab | fileEnd =>
    obtain ⟨x, u, rfl, y, v, rfl, rfl, rfl⟩ := h
    exact ⟨trivial, rfl, _, rfl, rfl⟩
  case keyDown | keyUp =>
    obtain ⟨id, u, rfl, mask, v, rfl, button, w, rfl, rfl, rfl⟩ := h
    exact ⟨trivial, rfl, _, rfl, rfl⟩
  case keyRepeat | enter =>
    obtain ⟨a, u, rfl, b, v, rfl, c, w, rfl, d, z, rfl, rfl, rfl⟩ := h
    exact ⟨trivial, rfl, _, rfl, rfl⟩
  case deviceInfo =>
    obtain ⟨x, _, rfl, y, _, rfl, w, _, rfl, h, _, rfl, warp, _, rfl, mx, _, rfl, my, _, rfl,
      rfl, rfl⟩ := h
    exact ⟨trivial, rfl, _, rfl, rfl⟩
  -- a boolean may be any byte
  case screenSaver =>
    obtain ⟨b, u, rfl, rfl, rfl⟩ := h
    exact ⟨trivial, rfl, [b], ⟨b, rfl, rfl⟩, rfl⟩
  case fileAccept =>
    obtain ⟨id, u, rfl, b, v, rfl, rfl, rfl⟩ := h
    exact ⟨trivial, rfl, beBytes 4 id.toNat ++ [b], ⟨b, rfl, rfl⟩, rfl⟩
  case setOptions =>
    obtain ⟨opts, hle, u, rfl, rfl, rfl⟩ := h
    exact ⟨hle, rfl, _, (Writer.intoVec_i32Vec _ hle).symm, rfl⟩
  case clipboardData =>
    obtain ⟨id, u, rfl, seq, v, rfl, mark, w, rfl, data, hle, x, rfl, rfl, rfl⟩ := h
    refine ⟨hle, rfl, [id.toUInt8] ++ (beBytes 4 seq.toNat ++ ([mark.toUInt8] ++
      (beBytes 4 data.length ++ data))), ?_, rfl⟩
    show _ = (Writer.bytes _ data).intoVec
    rw [Writer.intoVec_bytes _ hle]
    rfl
  case fileChunk =>
    obtain ⟨id, u, rfl, seq, v, rfl, data, hle, w, rfl, rfl, rfl⟩ := h
    refine ⟨hle, rfl, beBytes 4 id.toNat ++ (beBytes 4 seq.toNat ++
      (beBytes 4 data.length ++ data)), ?_, rfl⟩
    show _ = (Writer.bytes _ data).intoVec
    rw [Writer.intoVec_bytes _ hle]
    rfl
  case fileOffer =>
    obtain ⟨id, u, rfl, name, hle, v, rfl, size, w, rfl, rfl, rfl⟩ := h
    refine ⟨hle, rfl, beBytes 4 id.toNat ++ ((beBytes 4 (utf8 name).length ++ utf8 name) ++
      beBytes 8 size.toNat), ?_, ?_⟩
    · show _ = ((Writer.string _ name).u64 size).intoVec
      rw [Writer.intoVec_u64, Writer.intoVec_string _ hle, List.append_assoc]
      rfl
    · simp only [List.append_assoc]

/-- A spelling of a message with an opcode starts with that opcode, and its body is read back. -/
theorem readBody_complete {c : Code} {m : Message} (hc : m.code = some c) {e : List UInt8}
    (hw : m.WithinLimits) (hs : m.Spells e) (t : List UInt8) :
    ∃ b, e = c.bytes ++ b ∧ (readBody c).run (b ++ t) = .ok (m, t) := by
  cases m <;> try obtain rfl := Option.some.inj hc
  case hello | helloBack => cases hc
  case queryInfo | infoAck | resetOptions | keepAlive | noOp | close | leave | errBusy |
      errUnknown | errBad =>
    exact ⟨[], hs, rfl⟩
  all_goals simp only [readBody, u8_reads.bind_eq_ok, i8_reads.bind_eq_ok,
    u16_reads.bind_eq_ok, i16_reads.bind_eq_ok, u32_reads.bind_eq_ok, u64_reads.bind_eq_ok,
    bytes_reads.bind_eq_ok, string_reads.bind_eq_ok, i32Vec_reads.bind_eq_ok, pure_eq_ok,
    true_and]
  case mouseDown | mouseUp =>
    exact ⟨_, hs, _, _, rfl, rfl, rfl⟩
  case mouseMove | mouseRelMove | mouseWheel | errIncompatible | clipboardGrab | fileEnd =>
    exact ⟨_, hs, _, _, rfl, _, _, rfl, rfl, rfl⟩
  case keyDown | keyUp =>
    exact ⟨_, hs, _, _, rfl, _, _, rfl, _, _, rfl, rfl, rfl⟩
  case keyRepeat | enter =>
    exact ⟨_, hs, _, _, rfl, _, _, rfl, _, _, rfl, _, _, rfl, rfl, rfl⟩
  case deviceInfo =>
    exact ⟨_, hs, _, _, rfl, _, _, rfl, _, _, rfl, _, _, rfl, _, _, rfl, _, _, rfl, _, _, rfl,
      rfl, rfl⟩
  case screenSaver =>
    obtain ⟨b, rfl, he⟩ := hs
    exact ⟨[b], he, b, t, rfl, rfl, rfl⟩
  case fileAccept id accept =>
    obtain ⟨b, rfl, he⟩ := hs
    exact ⟨beBytes 4 id.toNat ++ [b], he, _, _, rfl, b, t, rfl, rfl, rfl⟩
  case setOptions opts =>
    exact ⟨_, hs.trans (Writer.intoVec_i32Vec _ hw), opts, hw, t, rfl, rfl, rfl⟩
  case clipboardData id seq mark data =>
    refine ⟨[id.toUInt8] ++ (beBytes 4 seq.toNat ++ ([mark.toUInt8] ++
      (beBytes 4 data.length ++ data))), hs.trans ?_, id, _, rfl, seq, _, rfl, mark, _, rfl,
      data, hw, t, rfl, rfl, rfl⟩
    show (Writer.bytes _ data).intoVec = _
    rw [Writer.intoVec_bytes _ hw]
    rfl
  case fileChunk id seq data =>
    refine ⟨beBytes 4 id.toNat ++ (beBytes 4 seq.toNat ++ (beBytes 4 data.length ++ data)),
      hs.trans ?_, id, _, rfl, seq, _, rfl, data, hw, t, rfl, rfl, rfl⟩
    show (Writer.bytes _ data).intoVec = _
    rw [Writer.intoVec_bytes _ hw]
    rfl
  case fileOffer id name size =>
    refine ⟨beBytes 4 id.toNat ++ ((beBytes 4 (utf8 name).length ++ utf8 name) ++
      beBytes 8 size.toNat), hs.trans ?_, id, ((beBytes 4 (utf8 name).length ++ utf8 name) ++
      beBytes 8 size.toNat) ++ t, rfl, name, hw, beBytes 8 size.toNat ++ t, ?_, size, t, rfl, rfl,
      rfl⟩
    · show ((Writer.string _ name).u64 size).intoVec = _
      rw [Writer.intoVec_u64, Writer.intoVec_string _ hw, List.append_assoc]
      rfl
    · exact List.append_assoc _ _ _

/-! ## The greetings -/

/-- Looking whether anything is left reads nothing. -/
theorem isEmpty_eq_ok {s t : List UInt8} {b : Bool} :
    Reader.isEmpty.run s = .ok (b, t) ↔ b = s.isEmpty ∧ t = s := by
  constructor
  · intro h
    injection h with h
    injection h with h1 h2
    exact ⟨h1.symm, h2.symm⟩
  · rintro ⟨rfl, rfl⟩
    rfl

/-- After the magic and the versions, the end of the payload decides which greeting it is. -/
theorem readHello_eq_ok {s t : List UInt8} {m : Message} :
    readHello.run (helloMagic ++ s) = .ok (m, t) ↔
      (∃ major minor, m = .hello major minor ∧ t = [] ∧ helloMagic ++ s = m.encode) ∨
      (∃ major minor name, m = .helloBack major minor name ∧ m.WithinLimits ∧
        helloMagic ++ s = m.encode ++ t) := by
  unfold readHello Reader.fixed
  simp only [(take_reads 7).bind_eq_ok, i16_reads.bind_eq_ok, true_and]
  constructor
  · rintro ⟨b, hb, u, hs, major, v, rfl, minor, w, rfl, h⟩
    obtain ⟨rfl, rfl⟩ := List.append_inj hs hb.symm
    obtain ⟨e, w', he, h⟩ := bind_eq_ok.mp h
    obtain ⟨rfl, hw'⟩ := isEmpty_eq_ok.mp he
    subst w'
    cases w with
    | nil =>
      obtain ⟨rfl, rfl⟩ := pure_eq_ok.mp h
      exact Or.inl ⟨major, minor, rfl, rfl, rfl⟩
    | cons x w =>
      obtain ⟨name, hle, w', hw, h⟩ := string_reads.bind_eq_ok.mp h
      obtain ⟨rfl, rfl⟩ := pure_eq_ok.mp h
      refine Or.inr ⟨major, minor, name, rfl, hle, ?_⟩
      show _ = (Writer.string _ name).intoVec ++ _
      rw [Writer.intoVec_string _ hle, List.append_assoc, ← hw]
      rfl
  · rintro (⟨major, minor, rfl, rfl, hs⟩ | ⟨major, minor, name, rfl, hle, hs⟩)
    · refine ⟨helloMagic, rfl, s, rfl, major, beBytes 2 minor.toUInt16.toNat, ?_, minor, [], ?_, ?_⟩
      · exact List.append_cancel_left hs
      · rfl
      · rfl
    · replace hs : _ = (Writer.string _ name).intoVec ++ _ := hs
      rw [Writer.intoVec_string _ hle, List.append_assoc] at hs
      refine ⟨helloMagic, rfl, s, rfl, major, _, List.append_cancel_left hs, minor, _, rfl, ?_⟩
      refine bind_eq_ok.mpr ⟨false, _, isEmpty_eq_ok.mpr ⟨rfl, rfl⟩, ?_⟩
      exact string_reads.bind_eq_ok.mpr ⟨name, hle, t, rfl, pure_eq_ok.mpr ⟨rfl, rfl⟩⟩

/-! ## Whole payloads -/

/-- Reading a payload forgets what is left of it. -/
theorem run'_eq_ok {r : Reader Message} {s : List UInt8} {m : Message} :
    r.run' s = .ok m ↔ ∃ t, r.run s = .ok (m, t) := by
  show (fun x => x.1) <$> r.run s = .ok m ↔ _
  cases r.run s with
  | error e =>
    constructor
    · intro h
      cases h
    · rintro ⟨t, h⟩
      cases h
  | ok x =>
    obtain ⟨m', t⟩ := x
    constructor
    · intro h
      injection h with h
      exact ⟨t, by rw [← h]⟩
    · rintro ⟨t', h⟩
      injection h with h
      injection h with h1 _
      rw [← h1]
      rfl

/-- A payload that begins with the magic is a greeting. -/
theorem decode_magic (s : List UInt8) :
    Message.decode (helloMagic ++ s) = readHello.run' (helloMagic ++ s) := by
  unfold Message.decode
  have hlen : 7 ≤ (helloMagic ++ s).length := by
    rw [List.length_append]
    exact Nat.le_add_right 7 _
  have htake : (helloMagic ++ s).take helloMagic.length = helloMagic := List.take_left
  exact if_pos ⟨hlen, htake⟩

/-- Any other is read by its opcode. -/
theorem decode_code (c : Code) (s : List UInt8) :
    Message.decode (c.bytes ++ s) = (readBody c).run' s := by
  have hc := c.bytes_length
  have htake : (c.bytes ++ s).take 4 = c.bytes := hc ▸ List.take_left
  have hdrop : (c.bytes ++ s).drop 4 = s := hc ▸ List.drop_left
  unfold Message.decode
  rw [if_neg, if_neg, htake, hdrop]
  · rw [Code.ofBytes_bytes]
  · rw [List.length_append]
    omega
  · rintro ⟨-, hm⟩
    have h4 := congrArg (List.take 4) hm
    rw [List.take_take, show min 4 7 = 4 from rfl, htake] at h4
    exact c.bytes_ne_magic h4

/-- A payload that decodes starts with the magic or with an opcode. -/
theorem decode_cases {p : List UInt8} {m : Message} (h : Message.decode p = .ok m) :
    (∃ s, p = helloMagic ++ s) ∨ ∃ c : Code, ∃ s, p = c.bytes ++ s := by
  unfold Message.decode at h
  split at h
  · rename_i hm
    refine Or.inl ⟨p.drop 7, ?_⟩
    rw [← hm.2, List.take_append_drop]
  · split at h
    · cases h
    · split at h
      · rename_i c hc
        refine Or.inr ⟨c, p.drop 4, ?_⟩
        rw [← Code.ofBytes_eq_some.mp hc, List.take_append_drop]
      · cases h

/-- **The grammar, both ways**: a payload decodes to `m` exactly when it spells `m`, up to trailing
    bytes, of which a nameless greeting has none. -/
theorem decode_eq_ok {p : List UInt8} {m : Message} :
    Message.decode p = .ok m ↔
      m.WithinLimits ∧ ∃ e t, m.Spells e ∧ p = e ++ t ∧ (m.isHello = true → t = []) := by
  constructor
  · intro h
    rcases decode_cases h with ⟨s, rfl⟩ | ⟨c, s, rfl⟩
    · rw [decode_magic, run'_eq_ok] at h
      obtain ⟨t, h⟩ := h
      rcases readHello_eq_ok.mp h with ⟨major, minor, rfl, -, hs⟩ | ⟨major, minor, name, rfl, hw, hs⟩
      · exact ⟨trivial, _, [], rfl, by rw [hs, List.append_nil], fun _ => rfl⟩
      · exact ⟨hw, _, t, rfl, hs, fun h => by cases h⟩
    · rw [decode_code, run'_eq_ok] at h
      obtain ⟨t, h⟩ := h
      obtain ⟨hw, hc, e, hs, rfl⟩ := readBody_sound h
      refine ⟨hw, c.bytes ++ e, t, hs, by rw [List.append_assoc], fun hh => ?_⟩
      cases m with
      | hello => cases hc
      | _ => cases hh
  · rintro ⟨hw, e, t, hs, rfl, hh⟩
    cases hc : m.code with
    | some c =>
      obtain ⟨b, rfl, hb⟩ := readBody_complete hc hw hs t
      rw [List.append_assoc, decode_code, run'_eq_ok]
      exact ⟨t, hb⟩
    | none =>
      have hm : ∃ s, e ++ t = helloMagic ++ s := by
        cases m with
        | hello major minor =>
          have he : e = (Message.hello major minor).encode := hs
          rw [he]
          exact ⟨_, rfl⟩
        | helloBack major minor name =>
          have he : e = (Message.helloBack major minor name).encode := hs
          rw [he]
          exact ⟨_, rfl⟩
        | _ => cases hc
      obtain ⟨s, hp⟩ := hm
      rw [hp, decode_magic, run'_eq_ok]
      refine ⟨t, readHello_eq_ok.mpr ?_⟩
      cases m with
      | hello major minor =>
        obtain rfl := hh rfl
        rw [← hp, List.append_nil]
        exact Or.inl ⟨major, minor, rfl, rfl, hs⟩
      | helloBack major minor name =>
        rw [← hp]
        exact Or.inr ⟨major, minor, name, rfl, hw, congrArg (· ++ t) hs⟩
      | _ => cases hc

/-- `encode` is one of a message's spellings. -/
theorem spells_encode (m : Message) : m.Spells m.encode := by
  cases m with
  | screenSaver on => cases on <;> exact ⟨_, rfl, rfl⟩
  | fileAccept id accept => cases accept <;> exact ⟨_, rfl, rfl⟩
  | _ => rfl

/-- All spellings of a message have the same length. -/
theorem Message.Spells.length_eq {m : Message} {e : List UInt8} (h : m.Spells e) :
    e.length = m.encode.length := by
  cases m with
  | screenSaver on =>
    obtain ⟨b, -, rfl⟩ := h
    rfl
  | fileAccept id accept =>
    obtain ⟨b, -, rfl⟩ := h
    rfl
  | _ => exact congrArg List.length h

/-- `decode` inverts `encode`. -/
theorem decode_encode {m : Message} (h : m.WithinLimits) : Message.decode m.encode = .ok m :=
  decode_eq_ok.mpr ⟨h, m.encode, [], spells_encode m, (List.append_nil _).symm, fun _ => rfl⟩

/-- A message whose encoding starts with the magic is one of the greetings. -/
theorem code_eq_none_of_magic {m : Message} {s : List UInt8} (hw : m.WithinLimits)
    (h : m.encode = helloMagic ++ s) : m.code = none := by
  cases hc : m.code with
  | none => rfl
  | some c =>
    -- the encoding begins with an opcode, which no magic does
    obtain ⟨b, hb, -⟩ := readBody_complete hc hw (spells_encode m) []
    rw [h] at hb
    have h4 := congrArg (List.take 4) hb
    have hl : (c.bytes ++ b).take 4 = c.bytes := c.bytes_length ▸ List.take_left
    rw [hl] at h4
    exact absurd h4.symm c.bytes_ne_magic

/-- **Truncation**: a proper prefix of an encoding is rejected, except the 11-byte header of a
    `helloBack`, which is a `hello`. -/
theorem decode_truncated {m m' : Message} {q : List UInt8} (hw : m.WithinLimits)
    (hq : q <+: m.encode) (hne : q ≠ m.encode) :
    Message.decode q = .ok m' ↔
      ∃ major minor name, m = .helloBack major minor name ∧ q = m.encode.take 11 ∧
        m' = .hello major minor := by
  obtain ⟨r, hr⟩ := hq
  have hlt : q.length < m.encode.length := by
    have hlen := congrArg List.length hr
    rw [List.length_append] at hlen
    have hrne : r.length ≠ 0 := by
      intro h0
      rw [List.eq_nil_of_length_eq_zero h0, List.append_nil] at hr
      exact hne hr
    omega
  constructor
  · intro h
    obtain ⟨hw', e, t, hs, rfl, hh⟩ := decode_eq_ok.mp h
    cases hi : m'.isHello with
    | false =>
      -- the same phrase also begins the whole encoding, so it spells `m` itself: too short
      have hfull : Message.decode m.encode = .ok m' :=
        decode_eq_ok.mpr ⟨hw', e, t ++ r, hs, by rw [← hr, List.append_assoc],
          fun h' => by rw [hi] at h'; cases h'⟩
      rw [decode_encode hw] at hfull
      injection hfull with hm
      subst hm
      have hlen := hs.length_eq
      rw [List.length_append] at hlt
      omega
    | true =>
      obtain rfl := hh hi
      cases m' with
      | hello major minor =>
        obtain rfl : e = (Message.hello major minor).encode := hs
        rw [List.append_nil] at hr hlt h ⊢
        have hm : m.encode = helloMagic ++ _ := hr.symm
        cases m with
        | hello a b => exact absurd hlt (Nat.lt_irrefl 11)
        | helloBack a b name =>
          have htake : (Message.hello major minor).encode
              = (Message.helloBack a b name).encode.take 11 := by
            rw [← hr]
            rfl
          refine ⟨a, b, name, rfl, htake, ?_⟩
          rw [htake] at h
          have hab : Message.decode (Message.hello a b).encode = .ok (.hello a b) :=
            decode_encode trivial
          injection h.symm.trans hab
        | _ => cases code_eq_none_of_magic hw hm
      | _ => cases hi
  · rintro ⟨major, minor, name, rfl, rfl, rfl⟩
    exact decode_encode (m := .hello major minor) trivial

/-- **`decode` accepts exactly the wire grammar and inverts `encode`.** -/
theorem decode_grammar :
    (∀ p m, Message.decode p = .ok m ↔
      m.WithinLimits ∧ ∃ e t, m.Spells e ∧ p = e ++ t ∧ (m.isHello = true → t = [])) ∧
    (∀ m : Message, m.WithinLimits → Message.decode m.encode = .ok m) ∧
    (∀ (m m' : Message) (q : List UInt8), m.WithinLimits → q <+: m.encode → q ≠ m.encode →
      (Message.decode q = .ok m' ↔
        ∃ major minor name, m = .helloBack major minor name ∧ q = m.encode.take 11 ∧
          m' = .hello major minor)) :=
  ⟨fun _ _ => decode_eq_ok, fun _ => decode_encode, fun _ _ _ => decode_truncated⟩

/-! ## How long an encoding is -/

/-- The number of bytes a message is written in. -/
def Message.size : Message → Nat
  | hello .. => 11
  | helloBack _ _ name => 15 + (utf8 name).length
  | deviceInfo .. => 18
  | setOptions opts => 8 + 4 * opts.length
  | screenSaver _ => 5
  | enter .. => 14
  | keyDown .. => 10
  | keyUp .. => 10
  | keyRepeat .. => 12
  | mouseDown _ => 5
  | mouseUp _ => 5
  | mouseMove .. => 8
  | mouseRelMove .. => 8
  | mouseWheel .. => 8
  | clipboardGrab .. => 9
  | clipboardData _ _ _ data => 14 + data.length
  | fileOffer _ name _ => 20 + (utf8 name).length
  | fileChunk _ _ data => 16 + data.length
  | fileEnd .. => 12
  | fileAccept .. => 9
  | errIncompatible .. => 8
  | _ => 4

namespace Writer

/-- However long the byte string, its length takes four bytes. -/
theorem intoVec_bytes_length (w : Writer) (b : List UInt8) :
    (w.bytes b).intoVec.length = w.intoVec.length + 4 + b.length := by
  unfold bytes
  rw [intoVec_raw, intoVec_u32, List.length_append, List.length_append, beBytes_length]

theorem intoVec_i32Vec_length (w : Writer) (v : List Int32) :
    (w.i32Vec v).intoVec.length = w.intoVec.length + 4 + 4 * v.length := by
  have hbody : (v.flatMap fun x => beBytes 4 x.toUInt32.toNat).length = 4 * v.length := by
    induction v with
    | nil => rfl
    | cons x v ih =>
      rw [List.flatMap_cons, List.length_append, beBytes_length, ih, List.length_cons]
      omega
  unfold i32Vec
  rw [intoVec_foldl_i32, intoVec_u32, List.length_append, List.length_append, beBytes_length, hbody]

end Writer

/-- The size does not depend on the limits: a length that wraps still takes four bytes. -/
theorem encode_length (m : Message) : m.encode.length = m.size := by
  cases m with
  | helloBack major minor name =>
    show (Writer.bytes _ _).intoVec.length = _
    rw [Writer.intoVec_bytes_length]
    rfl
  | setOptions opts =>
    show (Writer.i32Vec _ _).intoVec.length = _
    rw [Writer.intoVec_i32Vec_length]
    rfl
  | clipboardData id seq mark data =>
    show (Writer.bytes _ _).intoVec.length = _
    rw [Writer.intoVec_bytes_length]
    rfl
  | fileChunk id seq data =>
    show (Writer.bytes _ _).intoVec.length = _
    rw [Writer.intoVec_bytes_length]
    rfl
  | fileOffer id name size =>
    show ((Writer.bytes _ _).u64 _).intoVec.length = _
    rw [Writer.intoVec_u64, List.length_append, Writer.intoVec_bytes_length, beBytes_length]
    show 8 + 4 + (utf8 name).length + 8 = 20 + (utf8 name).length
    omega
  | _ => rfl

end SelfKvm
