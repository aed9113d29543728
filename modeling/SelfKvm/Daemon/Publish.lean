/-
  Receiving into a shared directory (`kvm-daemon/src/file_transfer.rs`, `recv_file_to_dir`,
  `publish`, `reserve`).

  Any number of transfers receive into one directory at once.  Each streams into a temporary file
  named after its token, reserves a final name with an empty placeholder, and renames the one over
  the other.  `turn` is the code of one transfer between two points where another may run: one
  message, or one operation on the directory.  A run is a list of turns in any order, each with
  the fault it meets, if any.

  This file holds the code, and what later proofs need of it: which names can clash (only safe
  ones; a temporary name is one token's), what a transfer has received at each point, and all that
  a turn can do (`TurnOutcome`).
-/
import SelfKvm.Base.Mealy
import SelfKvm.Daemon.FileTransfer

namespace SelfKvm

/-! ## The code -/

/-- The download directory: what its entries hold. -/
abbrev Dir : Type := String → Option (List UInt8)

/-- How an operation fails, if it does; a write may get some bytes through before. -/
abbrev Fault : Type := Option (Nat × IoError)

/-- The temporary file of the transfer with this token. -/
def tmpName (token : UInt64) : String := ".incoming-" ++ toString token ++ ".part"

/-- The name used when the preferred one is taken. -/
def altName (token : UInt64) (name : String) : String := toString token ++ "-" ++ name

namespace Dir

/-- Open with `create_new`: an empty file under a name nothing occupies. -/
def createNew (dir : Dir) (name : String) : Fault → Except IoError Dir
  | some (_, e) => .error e
  | none =>
    if (dir name).isSome then
      .error .alreadyExists
    else
      .ok (Function.update dir name (some []))

/-- Write at the end of an open file. -/
def append (dir : Dir) (name : String) (bytes : List UInt8) : Dir :=
  Function.update dir name ((dir name).map (· ++ bytes))

/-- Replaces what `dst` held. -/
def rename (dir : Dir) (src dst : String) : Fault → Except IoError Dir
  | some (_, e) => .error e
  | none =>
    match dir src with
    -- ENOENT
    | none => .error (.other 2)
    | some c => .ok (Function.update (Function.update dir dst (some c)) src none)

/-- Removing what is not there changes nothing, and nobody asks whether it has failed. -/
def removeFile (dir : Dir) (name : String) : Fault → Dir
  | some _ => dir
  | none => Function.update dir name none

end Dir

/-- Where a call of `recv_file_to_dir` is. -/
inductive Stage where
  /-- It waits for the offer. -/
  | opening
  /-- The offer is accepted; the directory is to be created if it is missing. -/
  | making (re : FileReassembler)
  /-- The temporary file is to be created. -/
  | creating (re : FileReassembler)
  /-- In the receive loop, after `n` messages. -/
  | receiving (b : Body) (n : Nat)
  /-- Everything is written; the preferred name is to be reserved. -/
  | reserving (b : Body)
  /-- The preferred name was taken; the fallback is to be reserved. -/
  | reservingAlt (b : Body)
  /-- `name` is reserved, the temporary file is to be renamed to it. -/
  | moving (b : Body) (name : String)
  /-- The temporary file is to be removed. -/
  | failing (e : TransferError)
  | published (b : Body) (name : String)
  | failed (e : TransferError)
  deriving DecidableEq

/-- What the call has returned; the path is given by its name in the directory. -/
def Stage.returned : Stage → Option (Except TransferError String)
  | .published _ name => some (.ok name)
  | .failed e => some (.error e)
  | _ => none

section Code

variable (sizeLimit : UInt64) (token : UInt64) (stream : Nat → Except TransferError Message)

/-- One turn of one call; also returned is what it sends to its peer. -/
def turn (dir : Dir) (stage : Stage) (fault : Fault) : Dir × Stage × List Message :=
  match stage with
  | .opening =>
    match onOffer sizeLimit (stream 0) with
    -- whether the refusal is heard does not matter
    | (.error e, reply) => (dir, .failed e, reply.toList)
    | (.ok re, reply) =>
      match fault with
      | some (_, e) => (dir, .failed (.net (.io e)), [])
      | none => (dir, .making re, reply.toList)
  | .making re =>
    match fault with
    | some (_, e) => (dir, .failed (.io e), [])
    | none => (dir, .creating re, [])
  | .creating re =>
    match dir.createNew (tmpName token) fault with
    | .error e => (dir, .failing (.io e), [])
    | .ok dir => (dir, .receiving (Body.start re) 0, [])
  | .receiving b n =>
    let b' := b.step (stream (n + 1))
    let bytes := b'.written.drop b.written.length
    match b'.result with
    | some (.error e) => (dir, .failing e, [])
    | some (.ok ()) =>
      -- `flush`
      match fault with
      | some (_, e) => (dir, .failing (.io e), [])
      | none => (dir, .reserving b', [])
    | none =>
      match fault with
      | some (k, e) => (dir.append (tmpName token) (bytes.take k), .failing (.io e), [])
      | none => (dir.append (tmpName token) bytes, .receiving b' (n + 1), [])
  | .reserving b =>
    match dir.createNew b.re.filename fault with
    | .ok dir => (dir, .moving b b.re.filename, [])
    | .error .alreadyExists => (dir, .reservingAlt b, [])
    | .error e => (dir, .failing (.io e), [])
  | .reservingAlt b =>
    match dir.createNew (altName token b.re.filename) fault with
    | .ok dir => (dir, .moving b (altName token b.re.filename), [])
    | .error e => (dir, .failing (.io e), [])
  | .moving b name =>
    match dir.rename (tmpName token) name fault with
    | .ok dir => (dir, .published b name, [])
    | .error e => (dir, .failing (.io e), [])
  | .failing e => (dir.removeFile (tmpName token) fault, .failed e, [])
  | .published b name => (dir, .published b name, [])
  | .failed e => (dir, .failed e, [])

end Code

/-- A directory and the calls that receive into it. -/
structure Downloads (ι : Type) where
  dir : Dir
  calls : ι → Stage

namespace Downloads

variable {ι : Type} [DecidableEq ι]

/-- Nothing has begun. -/
def start (dir : Dir) : Downloads ι := ⟨dir, fun _ => .opening⟩

/-- One call takes its turn. -/
def step (sizeLimit : UInt64) (token : ι → UInt64)
    (stream : ι → Nat → Except TransferError Message) (d : Downloads ι) :
    ι × Fault → Downloads ι × List (ι × Message)
  | (i, fault) =>
    let (dir, stage, replies) := turn sizeLimit (token i) (stream i) d.dir (d.calls i) fault
    ({ dir, calls := Function.update d.calls i stage }, replies.map fun msg => (i, msg))

end Downloads

/-! ## Names -/

theorem toString_token (token : UInt64) : (toString token).toList = Nat.toDigits 10 token.toNat :=
  Nat.toList_repr

theorem tmpName_injective : Function.Injective tmpName := by
  intro t t' h
  have hdigits : Nat.toDigits 10 t.toNat = Nat.toDigits 10 t'.toNat := by
    have hlist := congrArg String.toList h
    unfold tmpName at hlist
    simp only [String.toList_append, toString_token] at hlist
    exact List.append_cancel_left (List.append_cancel_right hlist)
  apply UInt64.toNat_inj.mp
  rw [← Nat.ofDigitChars_ten_toDigits (n := t.toNat), hdigits, Nat.ofDigitChars_ten_toDigits]

/-- A safe name is not a temporary one. -/
theorem SafeName.ne_tmpName {name : String} (h : SafeName name) (token : UInt64) :
    name ≠ tmpName token := by
  rintro rfl
  apply h.not_hidden
  unfold tmpName
  rw [String.toList_append, String.toList_append]
  rfl

theorem isDigit_toString {token : UInt64} {c : Char} (h : c ∈ (toString token).toList) :
    c.isDigit = true := by
  rw [toString_token] at h
  exact Nat.isDigit_of_mem_toDigits (by decide) (by decide) h

/-- Digits are neither separators nor control characters. -/
theorem safe_of_isDigit {c : Char} (h : c.isDigit = true) :
    isSeparator c = false ∧ isControl c = false := by
  unfold Char.isDigit at h
  simp only [Bool.and_eq_true, decide_eq_true_eq] at h
  have hlo : 48 ≤ c.toNat := h.1
  have hhi : c.toNat ≤ 57 := h.2
  constructor
  · unfold isSeparator
    simp only [Bool.or_eq_false_iff, decide_eq_false_iff_not]
    refine ⟨⟨?_, ?_⟩, ?_⟩
    · rintro rfl
      exact absurd hlo (by decide)
    · rintro rfl
      exact absurd hhi (by decide)
    · rintro rfl
      exact absurd hhi (by decide)
  · unfold isControl
    simp only [Bool.or_eq_false_iff, Bool.and_eq_false_iff, decide_eq_false_iff_not]
    omega

/-- The fallback of a safe name is safe. -/
theorem SafeName.altName {name : String} (h : SafeName name) (token : UInt64) :
    SafeName (altName token name) := by
  have hlist : (SelfKvm.altName token name).toList =
      (toString token).toList ++ ('-' :: name.toList) := by
    unfold SelfKvm.altName
    rw [String.toList_append, String.toList_append, List.append_assoc]
    rfl
  have hchars : ∀ c ∈ (SelfKvm.altName token name).toList,
      isSeparator c = false ∧ isControl c = false := by
    intro c hc
    rw [hlist] at hc
    rcases List.mem_append.mp hc with hc | hc
    · exact safe_of_isDigit (isDigit_toString hc)
    · rcases List.mem_cons.mp hc with rfl | hc
      · decide
      · exact ⟨h.no_separator c hc, h.no_control c hc⟩
  refine ⟨?_, fun c hc => (hchars c hc).1, fun c hc => (hchars c hc).2, ?_⟩
  · rw [hlist]
    simp
  · rw [hlist]
    intro hdot
    cases hdigits : (toString token).toList with
    | nil =>
      rw [hdigits, List.nil_append, List.head?_cons] at hdot
      injection hdot with hdot
      exact absurd hdot (by decide)
    | cons c cs =>
      rw [hdigits] at hdot
      injection hdot with hdot
      have hmem : c ∈ (toString token).toList := by
        rw [hdigits]
        exact List.mem_cons_self
      have hdigit := isDigit_toString hmem
      rw [hdot] at hdigit
      exact absurd hdigit (by decide)

/-! ## What a transfer has received -/

/-- The messages after the offer. -/
def afterOffer (stream : Nat → Except TransferError Message) (n : Nat) :
    Except TransferError Message := stream (n + 1)

/-- The offer of `stream` is accepted and starts the transfer `re`. -/
def Offered (sizeLimit : UInt64) (stream : Nat → Except TransferError Message)
    (re : FileReassembler) : Prop := (onOffer sizeLimit (stream 0)).1 = .ok re

/-- The receive loop of `stream` is at `b` after `n` messages. -/
def Reached (sizeLimit : UInt64) (stream : Nat → Except TransferError Message) (b : Body)
    (n : Nat) : Prop :=
  ∃ re, Offered sizeLimit stream re ∧ b = recvBody re (afterOffer stream) n

/-- The receive loop of `stream` returns `Ok`, and `bytes` are the bytes it has accepted. -/
def Accepted (sizeLimit : UInt64) (stream : Nat → Except TransferError Message)
    (bytes : List UInt8) : Prop :=
  ∃ b n, Reached sizeLimit stream b n ∧ b.result = some (.ok ()) ∧ b.written = bytes

/-- The transfer has received a whole file. -/
def Complete (sizeLimit : UInt64) (stream : Nat → Except TransferError Message) (b : Body) : Prop :=
  ∃ n, Reached sizeLimit stream b n ∧ b.result = some (.ok ())

theorem accept_name {re re' : FileReassembler} {id seq : UInt32} {data bytes : List UInt8}
    (h : re.accept id seq data = .ok (bytes, re')) : re'.name = re.name := by
  unfold FileReassembler.accept at h
  split at h
  · cases h
  · split at h
    · cases h
    · split at h
      · cases h
      · split at h
        · cases h
        · simp only at h
          split at h
          · cases h
          · split at h
            · cases h
            · injection h with h
              injection h with _ h
              rw [← h]

/-- A turn of the receive loop never changes the name, only ever adds to what is written, and adds
    nothing when it returns. -/
theorem Body.step_keeps (b : Body) (msg : Except TransferError Message) :
    (b.step msg).re.name = b.re.name ∧ b.written <+: (b.step msg).written ∧
      ((b.step msg).result ≠ none → (b.step msg).written = b.written) := by
  unfold Body.step
  cases hr : b.result with
  | some r => exact ⟨rfl, List.prefix_refl _, fun _ => rfl⟩
  | none =>
    cases msg with
    | error e => exact ⟨rfl, List.prefix_refl _, fun _ => rfl⟩
    | ok m =>
      cases m with
      | fileChunk id seq data =>
        cases hacc : b.re.accept id seq data with
        | error e =>
          simp only [hacc]
          exact ⟨trivial, List.prefix_refl _, fun _ => trivial⟩
        | ok r =>
          obtain ⟨bytes, re'⟩ := r
          simp only [hacc]
          exact ⟨accept_name hacc, List.prefix_append _ _, fun h => absurd rfl h⟩
      | fileEnd id count =>
        cases hc : b.re.complete id count with
        | error e =>
          simp only [hc]
          exact ⟨trivial, List.prefix_refl _, fun _ => trivial⟩
        | ok u =>
          simp only [hc]
          exact ⟨trivial, List.prefix_refl _, fun _ => trivial⟩
      | _ => exact ⟨rfl, List.prefix_refl _, fun _ => rfl⟩

/-- What a turn adds stands behind what was written before. -/
theorem Body.step_written (b : Body) (msg : Except TransferError Message) :
    b.written ++ (b.step msg).written.drop b.written.length = (b.step msg).written := by
  obtain ⟨-, ⟨more, hmore⟩, -⟩ := b.step_keeps msg
  rw [← hmore, List.drop_left]

theorem Reached.next {sizeLimit : UInt64} {stream : Nat → Except TransferError Message} {b : Body}
    {n : Nat} (h : Reached sizeLimit stream b n) :
    Reached sizeLimit stream (b.step (stream (n + 1))) (n + 1) := by
  obtain ⟨re, hoffer, rfl⟩ := h
  exact ⟨re, hoffer, rfl⟩

/-- The last message writes nothing, so the file is complete. -/
theorem Reached.complete {sizeLimit : UInt64} {stream : Nat → Except TransferError Message}
    {b : Body} {n : Nat} (h : Reached sizeLimit stream b n)
    (hresult : (b.step (stream (n + 1))).result = some (.ok ())) :
    Complete sizeLimit stream (b.step (stream (n + 1))) ∧
      (b.step (stream (n + 1))).written = b.written := by
  obtain ⟨-, -, hreturned⟩ := b.step_keeps (stream (n + 1))
  exact ⟨⟨n + 1, h.next, hresult⟩, hreturned (hresult ▸ Option.some_ne_none _)⟩

/-- The name a transfer publishes under is safe. -/
theorem Reached.safe {sizeLimit : UInt64} {stream : Nat → Except TransferError Message} {b : Body}
    {n : Nat} (h : Reached sizeLimit stream b n) : SafeName b.re.filename := by
  obtain ⟨re, hoffer, rfl⟩ := h
  have hname : ∀ n, (recvBody re (afterOffer stream) n).re.name = re.name := by
    intro n
    induction n with
    | zero => rfl
    | succ n ih => exact (Body.step_keeps _ _).1.trans ih
  show SafeName (recvBody re (afterOffer stream) n).re.name
  rw [hname]
  unfold Offered onOffer at hoffer
  split at hoffer
  · cases hoffer
  · split at hoffer
    · cases hoffer
    · rename_i hbegin
      injection hoffer with hoffer
      subst hoffer
      obtain ⟨base, hbase, -, rfl⟩ := FileReassembler.begin_eq_ok.mp hbegin
      exact sanitizeFilename_safe hbase
  · cases hoffer

theorem createNew_eq_ok {dir dir' : Dir} {name : String} {fault : Fault}
    (h : dir.createNew name fault = .ok dir') :
    dir name = none ∧ dir' = Function.update dir name (some []) := by
  unfold Dir.createNew at h
  cases fault with
  | some failure => cases h
  | none =>
    cases hname : dir name with
    | some c =>
      simp only [hname, Option.isSome_some, if_true] at h
      cases h
    | none =>
      simp only [hname, Option.isSome_none, Bool.false_eq_true, if_false] at h
      injection h with h
      exact ⟨rfl, h.symm⟩

theorem createNew_eq_error {dir : Dir} {name : String} {fault : Fault} {e : IoError}
    (h : dir.createNew name fault = .error e) :
    fault ≠ none ∨ dir name ≠ none ∧ e = .alreadyExists := by
  unfold Dir.createNew at h
  cases fault with
  | some failure => exact .inl (Option.some_ne_none _)
  | none =>
    cases hname : dir name with
    | none =>
      simp only [hname, Option.isSome_none, Bool.false_eq_true, if_false] at h
      cases h
    | some c =>
      simp only [hname, Option.isSome_some, if_true] at h
      injection h with h
      exact .inr ⟨Option.some_ne_none _, h.symm⟩

/-! ## What a turn can do -/

/-- At this stage the call tries to publish under this name. -/
inductive Candidate (token : UInt64) : Stage → Body → String → Prop
  | preferred (b : Body) : Candidate token (.reserving b) b b.re.filename
  | fallback (b : Body) : Candidate token (.reservingAlt b) b (altName token b.re.filename)

/-- Either name is safe. -/
theorem Candidate.safe {sizeLimit token : UInt64} {stream : Nat → Except TransferError Message}
    {stage : Stage} {b : Body} {name : String} (h : Candidate token stage b name)
    (hb : Complete sizeLimit stream b) : SafeName name := by
  obtain ⟨n, hn, -⟩ := hb
  cases h with
  | preferred => exact hn.safe
  | fallback => exact hn.safe.altName token

section Outcome

variable (sizeLimit : UInt64) (token : UInt64) (stream : Nat → Except TransferError Message)

/-- The outcomes of a turn: the directory and the stage after it. -/
inductive TurnOutcome (dir : Dir) (fault : Fault) : Stage → Dir → Stage → Prop
  | refused (e : TransferError)
    (hwhy : fault ≠ none ∨ (onOffer sizeLimit (stream 0)).1 = .error e) :
    TurnOutcome dir fault .opening dir (.failed e)
  | accepted {re : FileReassembler} (hoffer : Offered sizeLimit stream re) :
    TurnOutcome dir fault .opening dir (.making re)
  | unmade (re : FileReassembler) (e : TransferError) (hfault : fault ≠ none) :
    TurnOutcome dir fault (.making re) dir (.failed e)
  | made (re : FileReassembler) : TurnOutcome dir fault (.making re) dir (.creating re)
  | uncreated (re : FileReassembler) (e : TransferError)
    (hwhy : fault ≠ none ∨ dir (tmpName token) ≠ none) :
    TurnOutcome dir fault (.creating re) dir (.failing e)
  | created (re : FileReassembler) (hfree : dir (tmpName token) = none) :
    TurnOutcome dir fault (.creating re) (Function.update dir (tmpName token) (some []))
      (.receiving (Body.start re) 0)
  /-- The message ends the loop with an error, or what it brought cannot be flushed. -/
  | unreceived (b : Body) (n : Nat) (e : TransferError)
    (hwhy : fault ≠ none ∨ (b.step (stream (n + 1))).result = some (.error e)) :
    TurnOutcome dir fault (.receiving b n) dir (.failing e)
  | received {b : Body} {n : Nat} (hresult : (b.step (stream (n + 1))).result = some (.ok ())) :
    TurnOutcome dir fault (.receiving b n) dir (.reserving (b.step (stream (n + 1))))
  /-- Some of the bytes get through, then the write fails. -/
  | unwritten (b : Body) (n : Nat) (bytes : List UInt8) (e : TransferError)
    (hfault : fault ≠ none) :
    TurnOutcome dir fault (.receiving b n) (dir.append (tmpName token) bytes) (.failing e)
  | written {b : Body} {n : Nat} (hresult : (b.step (stream (n + 1))).result = none) :
    TurnOutcome dir fault (.receiving b n)
      (dir.append (tmpName token) ((b.step (stream (n + 1))).written.drop b.written.length))
      (.receiving (b.step (stream (n + 1))) (n + 1))
  | unreserved {stage : Stage} {b : Body} {name : String} (hc : Candidate token stage b name)
    (e : TransferError) (hfault : fault ≠ none) : TurnOutcome dir fault stage dir (.failing e)
  | taken (b : Body) (hwhy : fault ≠ none ∨ dir b.re.filename ≠ none) :
    TurnOutcome dir fault (.reserving b) dir (.reservingAlt b)
  /-- The fallback is taken, too. -/
  | exhausted (b : Body) (htaken : dir (altName token b.re.filename) ≠ none) :
    TurnOutcome dir fault (.reservingAlt b) dir (.failing (.io .alreadyExists))
  | reserved {stage : Stage} {b : Body} {name : String} (hc : Candidate token stage b name)
    (hfree : dir name = none) :
    TurnOutcome dir fault stage (Function.update dir name (some [])) (.moving b name)
  /-- The operation fails, or the temporary file is gone. -/
  | unmoved (b : Body) (name : String) (e : TransferError)
    (hwhy : fault ≠ none ∨ dir (tmpName token) = none) :
    TurnOutcome dir fault (.moving b name) dir (.failing e)
  | moved (b : Body) (name : String) {c : List UInt8} (hsrc : dir (tmpName token) = some c) :
    TurnOutcome dir fault (.moving b name)
      (Function.update (Function.update dir name (some c)) (tmpName token) none)
      (.published b name)
  | removed (e : TransferError) (hfault : fault = none) :
    TurnOutcome dir fault (.failing e) (Function.update dir (tmpName token) none) (.failed e)
  /-- The temporary file stays. -/
  | unremoved (e : TransferError) (hfault : fault ≠ none) :
    TurnOutcome dir fault (.failing e) dir (.failed e)
  | published (b : Body) (name : String) :
    TurnOutcome dir fault (.published b name) dir (.published b name)
  | failed (e : TransferError) : TurnOutcome dir fault (.failed e) dir (.failed e)

variable (dir : Dir)

/-- One message, or the fault it meets. -/
theorem turn_outcome_receiving (b : Body) (n : Nat) (fault : Fault) :
    TurnOutcome sizeLimit token stream dir fault (.receiving b n)
      (turn sizeLimit token stream dir (.receiving b n) fault).1
      (turn sizeLimit token stream dir (.receiving b n) fault).2.1 := by
  unfold turn
  simp only
  cases hresult : (b.step (stream (n + 1))).result with
  | some r =>
    cases r with
    | error e => exact .unreceived b n e (.inr hresult)
    | ok u =>
      cases fault with
      | some failure => exact .unreceived b n _ (.inl (Option.some_ne_none _))
      | none => exact .received hresult
  | none =>
    cases fault with
    | some failure => exact .unwritten b n _ _ (Option.some_ne_none _)
    | none => exact .written hresult

/-- **There are no other outcomes.** -/
theorem turn_outcome (stage : Stage) (fault : Fault) :
    TurnOutcome sizeLimit token stream dir fault stage
      (turn sizeLimit token stream dir stage fault).1
      (turn sizeLimit token stream dir stage fault).2.1 := by
  cases stage with
  | opening =>
    unfold turn
    rcases hoffer : onOffer sizeLimit (stream 0) with ⟨e | re, reply⟩
    · exact .refused e (.inr (congrArg Prod.fst hoffer))
    · cases fault with
      | some failure => exact .refused _ (.inl (Option.some_ne_none _))
      | none => exact .accepted (congrArg Prod.fst hoffer)
  | making re =>
    cases fault with
    | some failure => exact .unmade re _ (Option.some_ne_none _)
    | none => exact .made re
  | creating re =>
    unfold turn
    cases hc : dir.createNew (tmpName token) fault with
    | error e => exact .uncreated re _ ((createNew_eq_error hc).imp_right And.left)
    | ok dir' =>
      obtain ⟨hfree, rfl⟩ := createNew_eq_ok hc
      exact .created re hfree
  | receiving b n => exact turn_outcome_receiving sizeLimit token stream dir b n fault
  | reserving b =>
    unfold turn
    cases hc : dir.createNew b.re.filename fault with
    | error e =>
      have hwhy := createNew_eq_error hc
      cases e with
      | alreadyExists =>
        simp only [hc]
        exact .taken b (hwhy.imp_right And.left)
      | _ =>
        simp only [hc]
        exact .unreserved (.preferred b) _ (hwhy.resolve_right fun h => by cases h.2)
    | ok dir' =>
      obtain ⟨hfree, rfl⟩ := createNew_eq_ok hc
      simp only [hc]
      exact .reserved (.preferred b) hfree
  | reservingAlt b =>
    unfold turn
    cases hc : dir.createNew (altName token b.re.filename) fault with
    | error e =>
      simp only [hc]
      rcases createNew_eq_error hc with hfault | ⟨htaken, rfl⟩
      · exact .unreserved (.fallback b) _ hfault
      · exact .exhausted b htaken
    | ok dir' =>
      obtain ⟨hfree, rfl⟩ := createNew_eq_ok hc
      simp only [hc]
      exact .reserved (.fallback b) hfree
  | moving b name =>
    cases fault with
    | some failure => exact .unmoved b name _ (.inl (Option.some_ne_none _))
    | none =>
      unfold turn Dir.rename
      cases hsrc : dir (tmpName token) with
      | none => exact .unmoved b name _ (.inr hsrc)
      | some c => exact .moved b name hsrc
  | failing e =>
    cases fault with
    | some failure => exact .unremoved e (Option.some_ne_none _)
    | none => exact .removed e rfl
  | published b name => exact .published b name
  | failed e => exact .failed e

end Outcome

end SelfKvm
