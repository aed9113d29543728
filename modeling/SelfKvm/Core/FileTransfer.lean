/-
  The file transfer's I/O-free half (`kvm-core/src/file_transfer.rs`): which names are safe, into
  which messages a file is cut, and what a receiver accepts.

  `FileReassembler` is the receiver's judge: it sees every message of a transfer and answers with
  the bytes to write or with an error.  What it knows is only a sequence number and a total;
  `Accounted re datas` says what those two stand for — the payloads `datas` accepted so far.  All
  later proofs go through `accept_eq_ok` and `complete_eq_ok`, which say for an accounted state
  exactly which messages pass.  The chunk limit keeps the 64-bit total from wrapping
  (`Accounted.total_lt`): 2^32 chunks of less than 4 MiB stay below 2^54.
-/
import Mathlib.Algebra.Group.Nat.Defs
import SelfKvm.Base.Chunks
import SelfKvm.Proto.Message

namespace SelfKvm

open Source

/-! ## Limits and errors -/

/-- Hard ceiling on one chunk's payload, just under the frame limit. -/
def maxChunkSize : Nat := 4 * 1024 * 1024 - 1024

inductive FileError where
  | invalidName (name : String)
  | tooLarge (size limit : UInt64)
  | declined
  | emptyChunk (seq : UInt32)
  | tooManyChunks
  | idMismatch (expected got : UInt32)
  | outOfOrder (expected got : UInt32)
  | chunkTooLarge (size limit : Nat)
  | sizeOverflow (got declared : UInt64)
  | countMismatch (expected got : UInt32)
  | sizeMismatch (declared received : UInt64)
  deriving DecidableEq, Repr

/-! ## File names -/

/-- The characters at which a peer's name is split: both separators and the drive colon. -/
def isSeparator (c : Char) : Bool := c = '/' || c = '\\' || c = ':'

/-- `char::is_control`: the general category Cc. -/
def isControl (c : Char) : Bool := c.toNat < 0x20 || (0x7f ≤ c.toNat && c.toNat < 0xa0)

/-- `char::is_whitespace`: the property White_Space. -/
def isWhitespace (c : Char) : Bool :=
  (0x09 ≤ c.toNat && c.toNat ≤ 0x0d) || c.toNat = 0x20 || c.toNat = 0x85 || c.toNat = 0xa0 ||
    c.toNat = 0x1680 || (0x2000 ≤ c.toNat && c.toNat ≤ 0x200a) || c.toNat = 0x2028 ||
    c.toNat = 0x2029 || c.toNat = 0x202f || c.toNat = 0x205f || c.toNat = 0x3000

/-- Windows device names, with or without an extension. -/
def reserved : List String :=
  ["CON", "PRN", "AUX", "NUL", "COM1", "COM2", "COM3", "COM4", "COM5", "COM6", "COM7", "COM8",
    "COM9", "LPT1", "LPT2", "LPT3", "LPT4", "LPT5", "LPT6", "LPT7", "LPT8", "LPT9"]

/-- What follows the last separator. -/
def lastComponent (name : List Char) : List Char :=
  (name.reverse.takeWhile fun c => !isSeparator c).reverse

/-- Reduce a peer-supplied name to a safe base name, or reject it. -/
def sanitizeFilename (name : String) : Except FileError String :=
  let reject := .error (.invalidName name)
  let base := lastComponent name.toList
  if base = [] ∨ base = ['.'] ∨ base = ['.', '.'] then
    reject
  else if base.any fun c => isSeparator c || c = '\x00' || isControl c then
    reject
  else if base.all isWhitespace ∨ base.head? = some '.' ∨ base.getLast? = some '.' ∨
      base.getLast? = some ' ' then
    reject
  else if String.ofList ((base.takeWhile (· ≠ '.')).map Char.toUpper) ∈ reserved then
    reject
  else
    .ok (String.ofList base)

/-- A name that is one entry of the directory it is joined to, and not a hidden one. -/
structure SafeName (base : String) : Prop where
  nonempty : base.toList ≠ []
  no_separator : ∀ c ∈ base.toList, isSeparator c = false
  no_control : ∀ c ∈ base.toList, isControl c = false
  not_hidden : base.toList.head? ≠ some '.'

/-- **A name that passes cannot leave the download directory**, nor hide in it. -/
theorem sanitizeFilename_safe {name base : String} (h : sanitizeFilename name = .ok base) :
    SafeName base := by
  unfold sanitizeFilename at h
  simp only at h
  split at h
  · cases h
  · rename_i hdots
    split at h
    · cases h
    · rename_i hchars
      split at h
      · cases h
      · rename_i hedges
        split at h
        · cases h
        · injection h with h
          subst h
          have hchar : ∀ c ∈ lastComponent name.toList,
              isSeparator c = false ∧ isControl c = false := by
            intro c hc
            have hbad : ¬ (isSeparator c || c = '\x00' || isControl c) = true :=
              fun hbad => hchars (List.any_eq_true.mpr ⟨c, hc, hbad⟩)
            simp only [Bool.or_eq_true, not_or, Bool.not_eq_true] at hbad
            exact ⟨hbad.1.1, hbad.2⟩
          constructor
          · rw [String.toList_ofList]
            exact fun hnil => hdots (.inl hnil)
          · rw [String.toList_ofList]
            exact fun c hc => (hchar c hc).1
          · rw [String.toList_ofList]
            exact fun c hc => (hchar c hc).2
          · rw [String.toList_ofList]
            exact fun hdot => hedges (.inr (.inl hdot))

/-! ## The plan of a transfer -/

/-- Number of blocks of `chunkSize` a file of `size` bytes splits into. -/
def chunkCount (size : UInt64) (chunkSize : Nat) : UInt32 :=
  let cs := max chunkSize 1
  -- the cast back to 32 bits is silent
  UInt32.ofNat ((size.toNat + cs - 1) / cs)

def offerMsg (id : UInt32) (name : String) (size : UInt64) : Message := .fileOffer id name size

def chunkMsg (id seq : UInt32) (data : List UInt8) : Message := .fileChunk id seq data

def endMsg (id count : UInt32) : Message := .fileEnd id count

/-- The full message sequence for `data`: the offer, a chunk per block, the end. -/
def planMessages (id : UInt32) (name : String) (data : List UInt8) (chunkSize : Nat) :
    List Message :=
  let cs := max chunkSize 1
  let msgs := [offerMsg id name (UInt64.ofNat data.length)]
  let (msgs, seq) := (chunks cs data).foldl
    (fun (msgs, seq) block => (msgs ++ [chunkMsg id seq block], seq + 1)) (msgs, (0 : UInt32))
  msgs ++ [endMsg id seq]

/-- One chunk message per block, numbered from `k` on. -/
def chunkMsgs (id : UInt32) (k : Nat) : List (List UInt8) → List Message
  | [] => []
  | block :: blocks => chunkMsg id (UInt32.ofNat k) block :: chunkMsgs id (k + 1) blocks

theorem ofNat_succ (k : Nat) : UInt32.ofNat k + 1 = UInt32.ofNat (k + 1) := by
  rw [UInt32.ofNat_add]
  rfl

theorem foldl_chunkMsg (id : UInt32) (blocks : List (List UInt8)) (msgs : List Message) (k : Nat) :
    blocks.foldl (fun (msgs, seq) block => (msgs ++ [chunkMsg id seq block], seq + 1))
        (msgs, UInt32.ofNat k)
      = (msgs ++ chunkMsgs id k blocks, UInt32.ofNat (k + blocks.length)) := by
  induction blocks generalizing msgs k with
  | nil => rw [chunkMsgs, List.append_nil]; rfl
  | cons block blocks ih =>
    show List.foldl _ (msgs ++ [chunkMsg id (UInt32.ofNat k) block], UInt32.ofNat k + 1) blocks = _
    rw [ofNat_succ, ih, chunkMsgs, List.append_assoc, List.singleton_append, List.length_cons,
      Nat.add_right_comm, Nat.add_assoc]

/-- The plan in one line: offer, numbered blocks, end with their count. -/
theorem planMessages_eq (id : UInt32) (name : String) (data : List UInt8) {cs : Nat}
    (hcs : 0 < cs) :
    planMessages id name data cs =
      offerMsg id name (UInt64.ofNat data.length) ::
        (chunkMsgs id 0 (chunks cs data) ++ [endMsg id (UInt32.ofNat (chunks cs data).length)]) := by
  unfold planMessages
  rw [Nat.max_eq_left hcs]
  simp only [show (0 : UInt32) = UInt32.ofNat 0 from rfl, foldl_chunkMsg, Nat.zero_add,
    List.cons_append, List.nil_append]

@[simp] theorem chunkMsgs_length (id : UInt32) (k : Nat) (blocks : List (List UInt8)) :
    (chunkMsgs id k blocks).length = blocks.length := by
  induction blocks generalizing k with
  | nil => rfl
  | cons block blocks ih => rw [chunkMsgs, List.length_cons, ih, List.length_cons]

/-- The `i`-th chunk carries the `i`-th block under the number `k + i`. -/
theorem chunkMsgs_getElem? (id : UInt32) (k : Nat) (blocks : List (List UInt8)) (i : Nat) :
    (chunkMsgs id k blocks)[i]? =
      blocks[i]?.map fun block => chunkMsg id (UInt32.ofNat (k + i)) block := by
  induction blocks generalizing k i with
  | nil => rfl
  | cons block blocks ih =>
    cases i with
    | zero => rfl
    | succ i =>
      rw [chunkMsgs, List.getElem?_cons_succ, List.getElem?_cons_succ, ih, Nat.add_assoc,
        Nat.add_comm 1 i]

/-! ## The receiver's judge -/

/-- Validator and accountant for one transfer; it does no I/O. -/
structure FileReassembler where
  id : UInt32
  name : String
  declaredSize : UInt64
  nextSeq : UInt32
  received : UInt64
  deriving DecidableEq, Repr

namespace FileReassembler

/-- Begin from an offer's fields. -/
def begin (id : UInt32) (name : String) (size sizeLimit : UInt64) :
    Except FileError FileReassembler :=
  match sanitizeFilename name with
  | .error e => .error e
  | .ok name =>
    if size > sizeLimit then
      .error (.tooLarge size sizeLimit)
    else
      .ok { id, name, declaredSize := size, nextSeq := 0, received := 0 }

/-- The sanitised destination file name. -/
def filename (re : FileReassembler) : String := re.name

/-- Validate and account one chunk, returning the bytes to write. -/
def accept (re : FileReassembler) (id seq : UInt32) (data : List UInt8) :
    Except FileError (List UInt8 × FileReassembler) :=
  if id ≠ re.id then
    .error (.idMismatch re.id id)
  else if seq ≠ re.nextSeq then
    .error (.outOfOrder re.nextSeq seq)
  else if data.isEmpty then
    .error (.emptyChunk seq)
  else if data.length > maxChunkSize then
    .error (.chunkTooLarge data.length maxChunkSize)
  else
    let newTotal := re.received + UInt64.ofNat data.length
    if newTotal > re.declaredSize then
      .error (.sizeOverflow newTotal re.declaredSize)
    else if re.nextSeq.toNat + 1 ≥ 2 ^ 32 then
      .error .tooManyChunks
    else
      .ok (data, { re with nextSeq := re.nextSeq + 1, received := newTotal })

/-- Validate the end message: right id, right count, all bytes there. -/
def complete (re : FileReassembler) (id count : UInt32) : Except FileError Unit :=
  if id ≠ re.id then
    .error (.idMismatch re.id id)
  else if count ≠ re.nextSeq then
    .error (.countMismatch re.nextSeq count)
  else if re.received ≠ re.declaredSize then
    .error (.sizeMismatch re.declaredSize re.received)
  else
    .ok ()

theorem begin_eq_ok {id : UInt32} {name : String} {size sizeLimit : UInt64}
    {re : FileReassembler} :
    begin id name size sizeLimit = .ok re ↔
      ∃ base, sanitizeFilename name = .ok base ∧ size ≤ sizeLimit ∧
        re = ⟨id, base, size, 0, 0⟩ := by
  unfold begin
  cases hname : sanitizeFilename name with
  | error e =>
    constructor
    · intro h
      cases h
    · rintro ⟨base, hbase, -⟩
      cases hbase
  | ok base =>
    by_cases hsize : size > sizeLimit
    · simp only [hsize, if_true]
      constructor
      · intro h
        cases h
      · rintro ⟨-, -, hle, -⟩
        exact absurd hle (UInt64.not_le.mpr hsize)
    · simp only [hsize, if_false]
      constructor
      · intro h
        injection h with h
        exact ⟨base, rfl, UInt64.not_lt.mp hsize, h.symm⟩
      · rintro ⟨base', hbase, -, rfl⟩
        injection hbase with hbase
        rw [hbase]

/-! ## What an accounted state accepts -/

/-- `Accounted re datas` — the sequence number and the total stand for the payloads `datas`, none
    of them empty or oversized, all of them within the declared size. -/
structure Accounted (re : FileReassembler) (datas : List (List UInt8)) : Prop where
  seq : re.nextSeq.toNat = datas.length
  total : re.received.toNat = datas.flatten.length
  bounds : ∀ d ∈ datas, 0 < d.length ∧ d.length ≤ maxChunkSize
  declared : datas.flatten.length ≤ re.declaredSize.toNat

theorem length_flatten_le {datas : List (List UInt8)} {n : Nat} (h : ∀ d ∈ datas, d.length ≤ n) :
    datas.flatten.length ≤ datas.length * n := by
  induction datas with
  | nil => exact Nat.zero_le _
  | cons d datas ih =>
    have hd := h d List.mem_cons_self
    have hds := ih fun d' hd' => h d' (List.mem_cons_of_mem d hd')
    rw [List.flatten_cons, List.length_append, List.length_cons, Nat.succ_mul]
    omega

theorem length_le_flatten {datas : List (List UInt8)} (h : ∀ d ∈ datas, 0 < d.length) :
    datas.length ≤ datas.flatten.length := by
  induction datas with
  | nil => exact Nat.zero_le _
  | cons d datas ih =>
    have hd := h d List.mem_cons_self
    have hds := ih fun d' hd' => h d' (List.mem_cons_of_mem d hd')
    rw [List.flatten_cons, List.length_append, List.length_cons]
    omega

namespace Accounted

variable {re : FileReassembler} {datas : List (List UInt8)}

/-- A fresh transfer stands for nothing received. -/
theorem fresh (id : UInt32) (base : String) (size : UInt64) :
    Accounted ⟨id, base, size, 0, 0⟩ [] where
  seq := rfl
  total := rfl
  bounds := fun _ hd => by cases hd
  declared := Nat.zero_le _

theorem length_lt (h : Accounted re datas) : datas.length < 2 ^ 32 := by
  rw [← h.seq]
  exact re.nextSeq.toNat_lt

/-- The total stays far below 64 bits, so adding a chunk to it does not wrap. -/
theorem total_lt (h : Accounted re datas) : datas.flatten.length < 2 ^ 54 := by
  have hle : datas.flatten.length ≤ datas.length * maxChunkSize :=
    length_flatten_le fun d hd => (h.bounds d hd).2
  have hlen := h.length_lt
  have hmax : datas.length * maxChunkSize ≤ (2 ^ 32 - 1) * maxChunkSize :=
    Nat.mul_le_mul_right _ (by omega)
  have hconst : (2 ^ 32 - 1) * maxChunkSize < 2 ^ 54 := by decide
  omega

/-- Each accepted chunk brought at least one byte. -/
theorem length_le_declared (h : Accounted re datas) : datas.length ≤ re.declaredSize.toNat :=
  Nat.le_trans (length_le_flatten fun d hd => (h.bounds d hd).1) h.declared

/-- The total after one more chunk of a permitted size. -/
theorem newTotal (h : Accounted re datas) {data : List UInt8} (hmax : data.length ≤ maxChunkSize) :
    (re.received + UInt64.ofNat data.length).toNat = datas.flatten.length + data.length := by
  have htotal := h.total_lt
  have hconst : maxChunkSize < 2 ^ 22 := by decide
  have hdata : (UInt64.ofNat data.length).toNat = data.length :=
    UInt64.toNat_ofNat_of_lt' (show data.length < 2 ^ 64 by omega)
  rw [UInt64.toNat_add, h.total, hdata, Nat.mod_eq_of_lt (by omega)]

end Accounted

/-- What `accept` demands of a chunk, `datas` having been accepted before it. -/
structure Acceptable (re : FileReassembler) (datas : List (List UInt8)) (id seq : UInt32)
    (data : List UInt8) : Prop where
  id_eq : id = re.id
  seq_eq : seq.toNat = datas.length
  nonempty : 0 < data.length
  size_le : data.length ≤ maxChunkSize
  fits : datas.flatten.length + data.length ≤ re.declaredSize.toNat
  countable : datas.length + 1 < 2 ^ 32

/-- The state after a chunk. -/
def next (re : FileReassembler) (data : List UInt8) : FileReassembler :=
  { re with nextSeq := re.nextSeq + 1, received := re.received + UInt64.ofNat data.length }

/-- **Exactly the acceptable chunks pass**, and they are returned unaltered. -/
theorem accept_eq_ok {re re' : FileReassembler} {datas : List (List UInt8)}
    (h : Accounted re datas) {id seq : UInt32} {data bytes : List UInt8} :
    re.accept id seq data = .ok (bytes, re') ↔
      Acceptable re datas id seq data ∧ bytes = data ∧ re' = re.next data := by
  unfold accept
  constructor
  · intro hacc
    split at hacc
    · cases hacc
    · rename_i hid
      split at hacc
      · cases hacc
      · rename_i hseq
        split at hacc
        · cases hacc
        · rename_i hempty
          split at hacc
          · cases hacc
          · rename_i hmax
            simp only at hacc
            split at hacc
            · cases hacc
            · rename_i hfits
              split at hacc
              · cases hacc
              · rename_i hcount
                injection hacc with hacc
                obtain ⟨rfl, rfl⟩ := Prod.mk.inj hacc
                refine ⟨⟨Decidable.of_not_not hid, ?_, ?_, Nat.not_lt.mp hmax, ?_, ?_⟩, rfl, rfl⟩
                · rw [Decidable.of_not_not hseq, h.seq]
                · cases data with
                  | nil => exact absurd rfl hempty
                  | cons b bs => exact Nat.succ_pos _
                · rw [← h.newTotal (Nat.not_lt.mp hmax)]
                  exact UInt64.le_iff_toNat_le.mp (UInt64.not_lt.mp hfits)
                · rw [← h.seq]
                  omega
  · rintro ⟨⟨hid, hseq, hpos, hmax, hfits, hcount⟩, rfl, rfl⟩
    have hseq' : seq = re.nextSeq := UInt32.toNat_inj.mp (hseq.trans h.seq.symm)
    have hempty : bytes.isEmpty = false := by
      cases bytes with
      | nil => cases hpos
      | cons b bs => rfl
    have hover : ¬ re.received + UInt64.ofNat bytes.length > re.declaredSize := by
      apply UInt64.not_lt.mpr
      apply UInt64.le_iff_toNat_le.mpr
      rw [h.newTotal hmax]
      exact hfits
    have hlast : ¬ re.nextSeq.toNat + 1 ≥ 2 ^ 32 := by
      rw [h.seq]
      omega
    simp only [hid, hseq', hempty, hover, hlast, Nat.not_lt.mpr hmax, ne_eq, not_true_eq_false,
      if_false, Bool.false_eq_true]
    rfl

/-- An accepted chunk is accounted for. -/
theorem Accounted.next {re : FileReassembler} {datas : List (List UInt8)} (h : Accounted re datas)
    {id seq : UInt32} {data : List UInt8} (ha : Acceptable re datas id seq data) :
    Accounted (re.next data) (datas ++ [data]) where
  seq := by
    show (re.nextSeq + 1).toNat = _
    have hcount := ha.countable
    rw [UInt32.toNat_add, h.seq, List.length_append, List.length_singleton]
    exact Nat.mod_eq_of_lt hcount
  total := by
    show (re.received + UInt64.ofNat data.length).toNat = _
    rw [h.newTotal ha.size_le, List.flatten_append, List.length_append, List.flatten_singleton]
  bounds := by
    intro d hd
    rcases List.mem_append.mp hd with hd | hd
    · exact h.bounds d hd
    · rw [List.mem_singleton.mp hd]
      exact ⟨ha.nonempty, ha.size_le⟩
  declared := by
    rw [List.flatten_append, List.length_append, List.flatten_singleton]
    exact ha.fits

/-- **The end passes exactly when everything is there.** -/
theorem complete_eq_ok {re : FileReassembler} {datas : List (List UInt8)} (h : Accounted re datas)
    {id count : UInt32} :
    re.complete id count = .ok () ↔
      id = re.id ∧ count.toNat = datas.length ∧
        datas.flatten.length = re.declaredSize.toNat := by
  unfold complete
  constructor
  · intro hc
    split at hc
    · cases hc
    · rename_i hid
      split at hc
      · cases hc
      · rename_i hcount
        split at hc
        · cases hc
        · rename_i hsize
          refine ⟨Decidable.of_not_not hid, ?_, ?_⟩
          · rw [Decidable.of_not_not hcount, h.seq]
          · rw [← h.total, Decidable.of_not_not hsize]
  · rintro ⟨hid, hcount, hsize⟩
    have hcount' : count = re.nextSeq := UInt32.toNat_inj.mp (hcount.trans h.seq.symm)
    have hsize' : re.received = re.declaredSize := UInt64.toNat_inj.mp (h.total.trans hsize)
    simp only [hid, hcount', hsize', ne_eq, not_true_eq_false, if_false]

end FileReassembler

end SelfKvm
