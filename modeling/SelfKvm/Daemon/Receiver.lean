/-
  The file receiver (`kvm-daemon/src/file_transfer.rs`, `serve_recv` and `handle_one`).

  The receiver accepts one connection after the other and hands each to a task of its own, which
  receives one file.  A semaphore bounds the tasks: a connection takes a permit before its task is
  spawned, and gives it back when the task has ended, however it ends; a connection for which there
  is none is dropped.  With TLS the task first completes a handshake, and it holds its permit
  meanwhile.

  1. `capacity`: the permits given and the permits left are eight, in every interleaving of the
     tasks.  So at most eight connections are served, and a connection is dropped exactly if eight
     are.  An unfinished file in the directory is of a connection being served, unless it was there
     before or the task that wrote it could not remove it (`LeftBehind`).

  2. `place_returned`: a task that receives gives its permit back within a bounded number of its
     turns, whatever its peer sends, for each turn that is not its last brings it closer to the end
     (`rank`).  Nothing bounds a TLS handshake: while eight peers are silent in theirs, all others
     are dropped (`dropped_while_full`).
-/
import SelfKvm.Daemon.HostileSender
import SelfKvm.Daemon.Publish

namespace SelfKvm

/-! ## The code -/

def maxConcurrentTransfers : Nat := 8

/-- Where a connection is. -/
inductive Place where
  /-- Nobody has accepted it yet. -/
  | waiting
  | dropped
  /-- Its task is in the TLS handshake. -/
  | securing
  /-- Its task receives. -/
  | receiving
  | closed
  deriving DecidableEq, Repr

/-- The connection is being served: its task holds a permit. -/
def Place.busy : Place → Bool
  | .securing => true
  | .receiving => true
  | _ => false

/-- `ι` are the connections that come in while the receiver runs. -/
structure Receiver (ι : Type) where
  conns : ι → Place
  permits : Nat
  downloads : Downloads ι

inductive ReceiverMove (ι : Type) where
  /-- `accept` returns a connection, or an error. -/
  | accept (peer : Option ι)
  /-- A TLS handshake ends. -/
  | secured (peer : ι) (ok : Bool)
  /-- A task that receives takes its turn, and meets a fault, if any. -/
  | turn (peer : ι) (fault : Fault)

/-- What is logged. -/
inductive ReceiverLog (ι : Type) where
  | acceptError
  | atCapacity (peer : ι)
  | tlsAccept (peer : ι)
  | received (peer : ι) (name : String)
  | transferFailed (peer : ι) (e : TransferError)

/-- What `handle_one` logs. -/
def handleOne {ι : Type} (peer : ι) : Except TransferError String → ReceiverLog ι
  | .ok name => .received peer name
  | .error e => .transferFailed peer e

namespace Receiver

variable {ι : Type} [DecidableEq ι]

/-- The receiver begins to listen. -/
def start (base : Dir) : Receiver ι :=
  { conns := fun _ => .waiting, permits := maxConcurrentTransfers, downloads := .start base }

section Code

variable (tls : Bool) (sizeLimit : UInt64) (token : ι → UInt64)
  (stream : ι → Nat → Except TransferError Message)

def step (r : Receiver ι) : ReceiverMove ι → Receiver ι × List (ReceiverLog ι)
  | .accept none => (r, [.acceptError])
  | .accept (some i) =>
    if r.conns i = .waiting then
      if r.permits = 0 then
        ({ r with conns := Function.update r.conns i .dropped }, [.atCapacity i])
      else
        ({ r with
            conns := Function.update r.conns i (if tls then .securing else .receiving)
            permits := r.permits - 1 }, [])
    else
      (r, [])
  | .secured i ok =>
    if r.conns i = .securing then
      if ok then
        ({ r with conns := Function.update r.conns i .receiving }, [])
      else
        ({ r with conns := Function.update r.conns i .closed, permits := r.permits + 1 },
          [.tlsAccept i])
    else
      (r, [])
  | .turn i fault =>
    if r.conns i = .receiving then
      let downloads := (r.downloads.step sizeLimit token stream (i, fault)).1
      match (downloads.calls i).returned with
      | none => ({ r with downloads }, [])
      | some result =>
        ({ conns := Function.update r.conns i .closed, permits := r.permits + 1, downloads },
          [handleOne i result])
    else
      (r, [])

end Code

/-! ## What a step can do -/

/-- **There are no other steps.** -/
inductive Steps (tls : Bool) (sizeLimit : UInt64) (token : ι → UInt64)
    (stream : ι → Nat → Except TransferError Message) (r : Receiver ι) :
    ReceiverMove ι → Receiver ι → Prop
  | still (move : ReceiverMove ι)
    (hidle : ∀ i fault, move = .turn i fault → r.conns i ≠ .receiving) :
    Steps tls sizeLimit token stream r move r
  | drops {i : ι} (hi : r.conns i = .waiting) (hfull : r.permits = 0) :
    Steps tls sizeLimit token stream r (.accept (some i))
      { r with conns := Function.update r.conns i .dropped }
  | admits {i : ι} {c : Place} (hi : r.conns i = .waiting) (hfree : r.permits ≠ 0)
    (hc : c.busy = true) :
    Steps tls sizeLimit token stream r (.accept (some i))
      { r with conns := Function.update r.conns i c, permits := r.permits - 1 }
  | secures {i : ι} (hi : r.conns i = .securing) :
    Steps tls sizeLimit token stream r (.secured i true)
      { r with conns := Function.update r.conns i .receiving }
  | fails {i : ι} (hi : r.conns i = .securing) :
    Steps tls sizeLimit token stream r (.secured i false)
      { r with conns := Function.update r.conns i .closed, permits := r.permits + 1 }
  | goesOn {i : ι} {fault : Fault} {d : Downloads ι} (hi : r.conns i = .receiving)
    (hd : (r.downloads.step sizeLimit token stream (i, fault)).1 = d)
    (hnone : (d.calls i).returned = none) :
    Steps tls sizeLimit token stream r (.turn i fault) { r with downloads := d }
  | ends {i : ι} {fault : Fault} {d : Downloads ι} (hi : r.conns i = .receiving)
    (hd : (r.downloads.step sizeLimit token stream (i, fault)).1 = d)
    (hsome : (d.calls i).returned ≠ none) :
    Steps tls sizeLimit token stream r (.turn i fault)
      { conns := Function.update r.conns i .closed, permits := r.permits + 1, downloads := d }

variable (tls : Bool) (sizeLimit : UInt64) (token : ι → UInt64)
  (stream : ι → Nat → Except TransferError Message)

theorem step_steps (r : Receiver ι) (move : ReceiverMove ι) :
    Steps tls sizeLimit token stream r move (r.step tls sizeLimit token stream move).1 := by
  cases move with
  | accept peer =>
    cases peer with
    | none => exact .still _ fun _ _ h => by cases h
    | some i =>
      simp only [step]
      by_cases hi : r.conns i = .waiting
      · rw [if_pos hi]
        by_cases hfull : r.permits = 0
        · rw [if_pos hfull]
          exact .drops hi hfull
        · rw [if_neg hfull]
          refine .admits hi hfull ?_
          cases tls <;> rfl
      · rw [if_neg hi]
        exact .still _ fun _ _ h => by cases h
  | secured i ok =>
    simp only [step]
    by_cases hi : r.conns i = .securing
    · rw [if_pos hi]
      cases ok with
      | true => exact .secures hi
      | false => exact .fails hi
    · rw [if_neg hi]
      exact .still _ fun _ _ h => by cases h
  | turn i fault =>
    simp only [step]
    by_cases hi : r.conns i = .receiving
    · rw [if_pos hi]
      cases hreturned :
          ((r.downloads.step sizeLimit token stream (i, fault)).1.calls i).returned with
      | none => exact .goesOn hi rfl hreturned
      | some result => exact .ends hi rfl (by rw [hreturned]; exact Option.some_ne_none _)
    · rw [if_neg hi]
      refine .still _ fun _ _ h => ?_
      injection h with hj
      rwa [← hj]

/-! ## Permits -/

/-- The connections being served, and the permits that are left. -/
structure Accounts (r : Receiver ι) (busy : List ι) : Prop where
  nodup : busy.Nodup
  mem : ∀ i, i ∈ busy ↔ (r.conns i).busy = true
  total : busy.length + r.permits = maxConcurrentTransfers

variable {tls sizeLimit token stream}

omit [DecidableEq ι] in
theorem accounts_start (base : Dir) : Accounts (ι := ι) (start base) [] :=
  ⟨List.nodup_nil, fun _ => ⟨(fun h => by cases h), fun h => by cases h⟩, rfl⟩

/-- A connection that changes its place, and is served as much as before. -/
theorem Accounts.moved {r r' : Receiver ι} {busy : List ι} (h : r.Accounts busy) {i : ι} {c : Place}
    (hconns : r'.conns = Function.update r.conns i c) (hpermits : r'.permits = r.permits)
    (hc : c.busy = (r.conns i).busy) : r'.Accounts busy := by
  refine ⟨h.nodup, fun j => ?_, hpermits ▸ h.total⟩
  rw [h.mem, hconns]
  by_cases hj : j = i
  · rw [hj, Function.update_self, hc]
  · rw [Function.update_of_ne hj]

/-- A connection that is served from now on takes a permit. -/
theorem Accounts.taken {r r' : Receiver ι} {busy : List ι} (h : r.Accounts busy) {i : ι} {c : Place}
    (hconns : r'.conns = Function.update r.conns i c) (hfree : r.permits ≠ 0)
    (hpermits : r'.permits = r.permits - 1) (hi : (r.conns i).busy = false) (hc : c.busy = true) :
    r'.Accounts (i :: busy) := by
  have hnew : i ∉ busy := by
    rw [h.mem, hi]
    exact Bool.false_ne_true
  refine ⟨List.nodup_cons.mpr ⟨hnew, h.nodup⟩, fun j => ?_, ?_⟩
  · rw [List.mem_cons, h.mem, hconns]
    by_cases hj : j = i
    · rw [hj, Function.update_self, hc]
      simp
    · rw [Function.update_of_ne hj]
      simp [hj]
  · have htotal := h.total
    rw [List.length_cons, hpermits]
    omega

/-- A connection that is served no longer gives it back. -/
theorem Accounts.returned {r r' : Receiver ι} {busy : List ι} (h : r.Accounts busy) {i : ι}
    {c : Place} (hconns : r'.conns = Function.update r.conns i c)
    (hpermits : r'.permits = r.permits + 1) (hi : (r.conns i).busy = true) (hc : c.busy = false) :
    r'.Accounts (busy.erase i) := by
  have hold : i ∈ busy := (h.mem i).mpr hi
  have hpos := List.length_pos_of_mem hold
  refine ⟨h.nodup.erase i, fun j => ?_, ?_⟩
  · rw [h.nodup.mem_erase_iff, h.mem, hconns]
    by_cases hj : j = i
    · rw [hj, Function.update_self, hc]
      simp
    · rw [Function.update_of_ne hj]
      simp [hj]
  · have htotal := h.total
    rw [List.length_erase_of_mem hold, hpermits]
    omega

/-- **One step** keeps the accounts. -/
theorem Steps.accounts {r r' : Receiver ι} {move : ReceiverMove ι}
    (hstep : Steps tls sizeLimit token stream r move r') {busy : List ι} (h : r.Accounts busy) :
    ∃ busy', r'.Accounts busy' := by
  cases hstep with
  | still => exact ⟨busy, h⟩
  | drops hi hfull => exact ⟨busy, h.moved rfl rfl (by rw [hi]; rfl)⟩
  | @admits i c hi hfree hc => exact ⟨_, h.taken rfl hfree rfl (by rw [hi]; rfl) hc⟩
  | secures hi => exact ⟨busy, h.moved rfl rfl (by rw [hi]; rfl)⟩
  | fails hi => exact ⟨_, h.returned rfl rfl (by rw [hi]; rfl) rfl⟩
  | goesOn => exact ⟨busy, h.nodup, h.mem, h.total⟩
  | ends hi hd hsome => exact ⟨_, h.returned rfl rfl (by rw [hi]; rfl) rfl⟩

/-! ## Unfinished files -/

end Receiver

namespace Stage

/-- The call has a temporary file, unless that could not be created. -/
def unfinished : Stage → Bool
  | receiving .. => true
  | reserving _ => true
  | reservingAlt _ => true
  | moving .. => true
  | failing _ => true
  | _ => false

/-- What is known of a call at its stage. -/
def Fit (sizeLimit : UInt64) (stream : Nat → Except TransferError Message) : Stage → Prop
  | making re => Offered sizeLimit stream re
  | creating re => Offered sizeLimit stream re
  | receiving b n => Reached sizeLimit stream b n ∧ b.result = none
  | reserving b => Complete sizeLimit stream b
  | reservingAlt b => Complete sizeLimit stream b
  | moving _ name => SafeName name
  | _ => True

end Stage

section Turn

variable {sizeLimit token : UInt64} {stream : Nat → Except TransferError Message} {dir dir' : Dir}
  {fault : Fault} {stage stage' : Stage}

theorem Stage.Fit.candidate {b : Body} {name : String} (h : stage.Fit sizeLimit stream)
    (hc : Candidate token stage b name) : SafeName name := by
  cases hc with
  | preferred => exact (Candidate.preferred b : Candidate token _ _ _).safe h
  | fallback => exact (Candidate.fallback b).safe h

/-- A turn keeps what is known. -/
theorem TurnOutcome.fit (hout : TurnOutcome sizeLimit token stream dir fault stage dir' stage')
    (h : stage.Fit sizeLimit stream) : stage'.Fit sizeLimit stream := by
  cases hout with
  | accepted hoffer => exact hoffer
  | made re => exact h
  | created re hfree => exact ⟨⟨re, h, rfl⟩, rfl⟩
  | received hresult => exact (h.1.complete hresult).1
  | written hresult => exact ⟨h.1.next, hresult⟩
  | taken b hwhy => exact h
  | reserved hc hfree => exact h.candidate hc
  | failed | published => exact h
  | _ => trivial

/-- A turn leaves the temporary files of other tokens alone. -/
theorem TurnOutcome.other_tmp
    (hout : TurnOutcome sizeLimit token stream dir fault stage dir' stage')
    (h : stage.Fit sizeLimit stream) {t : UInt64} (ht : t ≠ token) :
    dir' (tmpName t) = dir (tmpName t) := by
  have hne : tmpName t ≠ tmpName token := fun heq => ht (tmpName_injective heq)
  cases hout with
  | created | unwritten | written | removed => exact Function.update_of_ne hne _ _
  | reserved hc hfree => exact Function.update_of_ne ((h.candidate hc).ne_tmpName t).symm _ _
  | moved b name hsrc =>
    have hname : SafeName name := h
    rw [Function.update_of_ne hne, Function.update_of_ne (hname.ne_tmpName t).symm]
  | _ => rfl

/-- After a turn the call's own temporary file is there only while it is unfinished, or as it was
    before one that is not, or because it could not be removed. -/
theorem TurnOutcome.own_tmp
    (hout : TurnOutcome sizeLimit token stream dir fault stage dir' stage')
    (hheld : dir' (tmpName token) ≠ none) :
    stage'.unfinished = true ∨ (stage.unfinished = false ∧ dir (tmpName token) ≠ none) ∨
      (fault ≠ none ∧ ∃ e, stage = .failing e) := by
  cases hout with
  | moved | removed => exact absurd (Function.update_self ..) hheld
  | unremoved e hfault => exact .inr (.inr ⟨hfault, e, rfl⟩)
  | refused | accepted | unmade | made | published | failed => exact .inr (.inl ⟨rfl, hheld⟩)
  | _ => exact .inl rfl

/-- A call that has a temporary file has not returned. -/
theorem Stage.unfinished_of_returned (h : stage.returned ≠ none) : stage.unfinished = false := by
  cases stage with
  | published | failed => rfl
  | _ => exact absurd rfl h

end Turn

namespace Downloads

variable {ι : Type} [DecidableEq ι] {sizeLimit : UInt64} {token : ι → UInt64}
  {stream : ι → Nat → Except TransferError Message} {kept kept' : UInt64 → Prop}

theorem step_outcome (d : Downloads ι) (i : ι) (fault : Fault) :
    TurnOutcome sizeLimit (token i) (stream i) d.dir fault (d.calls i)
      (d.step sizeLimit token stream (i, fault)).1.dir
      ((d.step sizeLimit token stream (i, fault)).1.calls i) := by
  have hself : (d.step sizeLimit token stream (i, fault)).1.calls i =
      (turn sizeLimit (token i) (stream i) d.dir (d.calls i) fault).2.1 := Function.update_self ..
  rw [hself]
  exact turn_outcome sizeLimit (token i) (stream i) d.dir (d.calls i) fault

theorem step_other (d : Downloads ι) {i j : ι} (fault : Fault) (hj : j ≠ i) :
    (d.step sizeLimit token stream (i, fault)).1.calls j = d.calls j :=
  Function.update_of_ne hj _ _

/-- What is known of every call. -/
def Fit (sizeLimit : UInt64) (stream : ι → Nat → Except TransferError Message)
    (d : Downloads ι) : Prop := ∀ i, (d.calls i).Fit sizeLimit (stream i)

theorem Fit.step {d : Downloads ι} (h : d.Fit sizeLimit stream) (i : ι) (fault : Fault) :
    (d.step sizeLimit token stream (i, fault)).1.Fit sizeLimit stream := by
  intro j
  by_cases hj : j = i
  · rw [hj]
    exact (d.step_outcome i fault).fit (h i)
  · rw [d.step_other fault hj]
    exact h j

/-- A temporary file is one of these tokens, or is an unfinished one. -/
def Tidy (token : ι → UInt64) (kept : UInt64 → Prop) (d : Downloads ι) : Prop :=
  ∀ t, d.dir (tmpName t) ≠ none → kept t ∨ ∃ i, token i = t ∧ (d.calls i).unfinished = true

omit [DecidableEq ι] in
theorem Tidy.mono {d : Downloads ι} (h : d.Tidy token kept) (hkept : ∀ t, kept t → kept' t) :
    d.Tidy token kept' := fun t ht => (h t ht).imp_left (hkept t)

/-- A turn keeps the directory tidy, if the file that it cannot remove is among those tokens'. -/
theorem Tidy.step {d : Downloads ι} (h : d.Tidy token kept) (htoken : Function.Injective token)
    (hfit : d.Fit sizeLimit stream) (i : ι) (fault : Fault)
    (hleft : ∀ e, d.calls i = .failing e → fault ≠ none → kept (token i)) :
    (d.step sizeLimit token stream (i, fault)).1.Tidy token kept := by
  intro t ht
  have hout : TurnOutcome sizeLimit (token i) (stream i) _ fault _ _ _ := d.step_outcome i fault
  by_cases hti : t = token i
  · subst hti
    rcases hout.own_tmp ht with hnow | ⟨hnot, hheld⟩ | ⟨hfault, e, he⟩
    · exact .inr ⟨i, rfl, hnow⟩
    · -- it was there before, and then not as a file of this call
      refine .inl ((h _ hheld).resolve_right ?_)
      rintro ⟨j, hj, hunfinished⟩
      rw [htoken hj, hnot] at hunfinished
      cases hunfinished
    · exact .inl (hleft e he hfault)
  · rw [hout.other_tmp (hfit i) hti] at ht
    refine (h t ht).imp_right ?_
    rintro ⟨j, hj, hunfinished⟩
    have hji : j ≠ i := by
      rintro rfl
      exact hti hj.symm
    refine ⟨j, hj, ?_⟩
    rw [d.step_other fault hji]
    exact hunfinished

end Downloads

namespace Receiver

section Runs

variable {ι : Type} [DecidableEq ι] {tls : Bool} {sizeLimit : UInt64} {token : ι → UInt64}
  {stream : ι → Nat → Except TransferError Message} {base : Dir}

/-- What the place of a connection says of its call. -/
def Agrees : Place → Stage → Prop
  | .receiving, stage => stage.returned = none
  | .closed, stage => stage.unfinished = false
  | _, stage => stage = .opening

theorem Agrees.receiving {c : Place} {stage : Stage} (h : Agrees c stage)
    (hunfinished : stage.unfinished = true) : c = .receiving := by
  have hopening : stage ≠ .opening := by
    rintro rfl
    cases hunfinished
  cases c with
  | receiving => rfl
  | closed => exact absurd (h.symm.trans hunfinished) Bool.false_ne_true
  | _ => exact absurd h hopening

/-- What is known of the receiver whatever the tokens are. -/
structure Known (sizeLimit : UInt64) (stream : ι → Nat → Except TransferError Message)
    (r : Receiver ι) : Prop where
  accounts : ∃ busy, r.Accounts busy
  agrees : ∀ i, Agrees (r.conns i) (r.downloads.calls i)
  fit : r.downloads.Fit sizeLimit stream

omit [DecidableEq ι] in
theorem known_start (base : Dir) : (start base : Receiver ι).Known sizeLimit stream :=
  ⟨⟨[], accounts_start base⟩, fun _ => rfl, fun _ => trivial⟩

omit [DecidableEq ι] in
/-- A connection that is not being received from has not begun. -/
theorem Known.opening {r : Receiver ι} (h : r.Known sizeLimit stream) {i : ι}
    (hi : r.conns i = .waiting ∨ r.conns i = .securing) : r.downloads.calls i = .opening := by
  have hagrees := h.agrees i
  rcases hi with hi | hi
  · rw [hi] at hagrees
    exact hagrees
  · rw [hi] at hagrees
    exact hagrees

/-- A connection changes its place, its call does not move. -/
theorem agrees_update {r : Receiver ι} (h : ∀ j, Agrees (r.conns j) (r.downloads.calls j)) {i : ι}
    {c : Place} (hi : Agrees c (r.downloads.calls i)) (j : ι) :
    Agrees (Function.update r.conns i c j) (r.downloads.calls j) := by
  by_cases hj : j = i
  · rw [hj, Function.update_self]
    exact hi
  · rw [Function.update_of_ne hj]
    exact h j

/-- A call takes its turn, and its connection is where it belongs then. -/
theorem agrees_turn {r : Receiver ι} (h : ∀ j, Agrees (r.conns j) (r.downloads.calls j)) {i : ι}
    {fault : Fault} {c : Place}
    (hi : Agrees c ((r.downloads.step sizeLimit token stream (i, fault)).1.calls i)) (j : ι) :
    Agrees (Function.update r.conns i c j)
      ((r.downloads.step sizeLimit token stream (i, fault)).1.calls j) := by
  by_cases hj : j = i
  · rw [hj, Function.update_self]
    exact hi
  · rw [Function.update_of_ne hj, Downloads.step_other _ fault hj]
    exact h j

/-- **One step** keeps what is known. -/
theorem Steps.known {r r' : Receiver ι} {move : ReceiverMove ι}
    (hstep : Steps tls sizeLimit token stream r move r') (h : r.Known sizeLimit stream) :
    r'.Known sizeLimit stream := by
  obtain ⟨busy, hbusy⟩ := h.accounts
  have haccounts := hstep.accounts hbusy
  cases hstep with
  | still => exact h
  | drops hi hfull => exact ⟨haccounts, agrees_update h.agrees (h.opening (.inl hi)), h.fit⟩
  | @admits i c hi hfree hc =>
    refine ⟨haccounts, agrees_update h.agrees ?_, h.fit⟩
    rw [h.opening (.inl hi)]
    cases c with
    | securing | receiving => rfl
    | _ => cases hc
  | secures hi | fails hi =>
    refine ⟨haccounts, agrees_update h.agrees ?_, h.fit⟩
    rw [h.opening (.inr hi)]
    rfl
  | @goesOn i fault d hi hd hnone =>
    subst hd
    refine ⟨haccounts, fun j => ?_, h.fit.step i fault⟩
    have hturn := agrees_turn h.agrees (c := .receiving) hnone j
    rwa [← hi, Function.update_eq_self] at hturn
  | @ends i fault d hi hd hsome =>
    subst hd
    exact ⟨haccounts, agrees_turn h.agrees (Stage.unfinished_of_returned hsome), h.fit.step i fault⟩

/-- It keeps the directory tidy, too. -/
theorem Steps.tidy {r r' : Receiver ι} {move : ReceiverMove ι}
    (hstep : Steps tls sizeLimit token stream r move r') (htoken : Function.Injective token)
    (h : r.Known sizeLimit stream) {kept : UInt64 → Prop} (htidy : r.downloads.Tidy token kept)
    (hleft : ∀ i failure e, move = .turn i (some failure) → r.downloads.calls i = .failing e →
      kept (token i)) : r'.downloads.Tidy token kept := by
  cases hstep with
  | @goesOn i fault _ hi hd | @ends i fault _ hi hd =>
    refine hd ▸ htidy.step htoken h.fit i fault fun e he hfault => ?_
    obtain ⟨failure, rfl⟩ := Option.ne_none_iff_exists'.mp hfault
    exact hleft i failure e rfl he
  | _ => exact htidy

/-- After any moves. -/
theorem run_known (tls : Bool) (token : ι → UInt64) {r : Receiver ι}
    (h : r.Known sizeLimit stream) (moves : List (ReceiverMove ι)) :
    (Mealy.run (step tls sizeLimit token stream) r moves).1.Known sizeLimit stream :=
  Mealy.run_induction (step tls sizeLimit token stream)
    (P := fun _ r _ => r.Known sizeLimit stream) h
    (fun _ r _ move hr => (step_steps tls sizeLimit token stream r move).known hr) moves

/-- In these moves the task of connection `i` has failed, and its cleanup has not removed its
    temporary file. -/
def LeftBehind (tls : Bool) (sizeLimit : UInt64) (token : ι → UInt64)
    (stream : ι → Nat → Except TransferError Message) (base : Dir) (moves : List (ReceiverMove ι))
    (i : ι) : Prop :=
  ∃ js failure rest e, moves = js ++ .turn i (some failure) :: rest ∧
    (Mealy.run (step tls sizeLimit token stream) (start base) js).1.downloads.calls i = .failing e

theorem LeftBehind.concat {moves : List (ReceiverMove ι)} {i : ι}
    (h : LeftBehind tls sizeLimit token stream base moves i) (move : ReceiverMove ι) :
    LeftBehind tls sizeLimit token stream base (moves ++ [move]) i := by
  obtain ⟨js, failure, rest, e, rfl, he⟩ := h
  exact ⟨js, failure, rest ++ [move], e, by rw [List.append_assoc, List.cons_append], he⟩

/-- The tokens whose temporary files need not be of a connection being served. -/
def Stray (tls : Bool) (sizeLimit : UInt64) (token : ι → UInt64)
    (stream : ι → Nat → Except TransferError Message) (base : Dir) (moves : List (ReceiverMove ι))
    (t : UInt64) : Prop :=
  base (tmpName t) ≠ none ∨
    ∃ i, token i = t ∧ LeftBehind tls sizeLimit token stream base moves i

theorem run_tidy (tls : Bool) (htoken : Function.Injective token)
    (stream : ι → Nat → Except TransferError Message) (base : Dir)
    (moves : List (ReceiverMove ι)) :
    (Mealy.run (step tls sizeLimit token stream) (start base) moves).1.downloads.Tidy token
      (Stray tls sizeLimit token stream base moves) := by
  induction moves using List.reverseRecOn with
  | nil => exact fun t ht => .inl (.inl ht)
  | append_singleton moves move ih =>
    rw [Mealy.run_concat]
    refine (step_steps tls sizeLimit token stream _ move).tidy htoken
      (run_known tls token (known_start base) moves) (ih.mono fun t ht => ?_) ?_
    · exact ht.imp_right fun ⟨i, hi, hleft⟩ => ⟨i, hi, hleft.concat move⟩
    · rintro i failure e rfl he
      exact .inr ⟨i, rfl, moves, failure, [], e, rfl, he⟩

/-- **The eight permits.**  After any moves of the receiver, in any order and with any faults, the
    connections being served and the permits left are eight together; every temporary file in the
    directory was there before, or is of one of these connections, or of one whose task could not
    remove it; and a connection that comes in is dropped exactly if eight are being served. -/
theorem capacity (tls : Bool) (sizeLimit : UInt64) (token : ι → UInt64)
    (htoken : Function.Injective token) (stream : ι → Nat → Except TransferError Message)
    (base : Dir) (moves : List (ReceiverMove ι)) :
    let r := (Mealy.run (step tls sizeLimit token stream) (start base) moves).1
    ∃ busy : List ι, busy.Nodup ∧ (∀ i, i ∈ busy ↔ (r.conns i).busy = true) ∧
      busy.length + r.permits = 8 ∧
      (∀ t, r.downloads.dir (tmpName t) ≠ none →
        base (tmpName t) ≠ none ∨ (∃ i ∈ busy, token i = t) ∨
          ∃ i, token i = t ∧ LeftBehind tls sizeLimit token stream base moves i) ∧
      ∀ i, r.conns i = .waiting →
        ((r.step tls sizeLimit token stream (.accept (some i))).1.conns i = .dropped ↔
          busy.length = 8) := by
  intro r
  have hknown : r.Known sizeLimit stream := run_known tls token (known_start base) moves
  have htidy : r.downloads.Tidy token (Stray tls sizeLimit token stream base moves) :=
    run_tidy tls htoken stream base moves
  obtain ⟨busy, hbusy⟩ := hknown.accounts
  have htotal : busy.length + r.permits = 8 := hbusy.total
  refine ⟨busy, hbusy.nodup, hbusy.mem, htotal, ?_, ?_⟩
  · intro t ht
    rcases htidy t ht with (hbase | hleft) | ⟨i, hi, hunfinished⟩
    · exact .inl hbase
    · exact .inr (.inr hleft)
    · refine .inr (.inl ⟨i, (hbusy.mem i).mpr ?_, hi⟩)
      rw [(hknown.agrees i).receiving hunfinished]
      rfl
  · intro i hi
    simp only [step, if_pos hi]
    by_cases hfull : r.permits = 0
    · rw [if_pos hfull]
      have hlen : busy.length = 8 := by omega
      exact ⟨fun _ => hlen, fun _ => Function.update_self ..⟩
    · rw [if_neg hfull]
      have hlen : busy.length ≠ 8 := by omega
      refine ⟨fun hdropped => ?_, fun h => absurd h hlen⟩
      have hplace : (if tls then Place.securing else .receiving) = .dropped :=
        (Function.update_self i _ r.conns).symm.trans hdropped
      cases tls <;> cases hplace

/-- The ninth of nine connections is dropped. -/
theorem capacity_ninth :
    (Mealy.run (step (ι := Fin 9) false 10 (fun i => UInt64.ofNat i) fun _ _ => .error .stalled)
      (start fun _ => none)
      [.accept (some 0), .accept (some 1), .accept (some 2), .accept (some 3), .accept (some 4),
        .accept (some 5), .accept (some 6), .accept (some 7), .accept (some 8)]).1.conns 8
      = .dropped := by
  let served : List (ReceiverMove (Fin 9)) :=
    [.accept (some 0), .accept (some 1), .accept (some 2), .accept (some 3), .accept (some 4),
      .accept (some 5), .accept (some 6), .accept (some 7)]
  have htoken : Function.Injective fun i : Fin 9 => UInt64.ofNat i := by
    unfold Function.Injective
    decide
  obtain ⟨busy, hnodup, hmem, htotal, -, hdrop⟩ := capacity false 10 _ htoken
    (fun _ _ => .error .stalled) (fun _ => none) served
  have hlen : busy.length = 8 := by
    have hpermits : (Mealy.run (step false 10 (fun i : Fin 9 => UInt64.ofNat i)
      fun _ _ => .error .stalled) (start fun _ => none) served).1.permits = 0 := by decide
    rw [hpermits] at htotal
    exact htotal
  exact (hdrop 8 (by decide)).mpr hlen

/-! ## The way to the end -/

end Runs

end Receiver

/-- The turns that a call has left, at most. -/
def Stage.rank (sizeLimit : UInt64) : Stage → Nat
  | .opening => sizeLimit.toNat + 8
  | .making _ => sizeLimit.toNat + 7
  | .creating _ => sizeLimit.toNat + 6
  | .receiving _ n => sizeLimit.toNat + 1 - n + 4
  | .reserving _ => 4
  | .reservingAlt _ => 3
  | .moving .. => 2
  | .failing _ => 1
  | .published .. => 0
  | .failed _ => 0

section Rank

variable {sizeLimit token : UInt64} {stream : Nat → Except TransferError Message} {dir dir' : Dir}
  {fault : Fault} {stage stage' : Stage}

theorem Stage.rank_le (sizeLimit : UInt64) (stage : Stage) :
    stage.rank sizeLimit ≤ sizeLimit.toNat + 8 := by
  cases stage with
  | receiving b n =>
    show sizeLimit.toNat + 1 - n + 4 ≤ _
    omega
  | _ => exact Nat.le_of_sub_eq_zero (by simp only [rank]; omega)

theorem Stage.rank_pos (h : stage.returned = none) : 0 < stage.rank sizeLimit := by
  cases stage with
  | published | failed => cases h
  | _ => exact Nat.succ_pos _

/-- A loop that is still receiving has not taken more messages than the limit has bytes. -/
theorem Reached.le_sizeLimit {b : Body} {n : Nat} (h : Reached sizeLimit stream b n)
    (hrunning : b.result = none) : n ≤ sizeLimit.toNat := by
  obtain ⟨re, hoffer, rfl⟩ := h
  unfold Offered onOffer at hoffer
  split at hoffer
  · cases hoffer
  · split at hoffer
    · cases hoffer
    · rename_i id name size _ _ _ hbegin
      injection hoffer with hoffer
      subst hoffer
      obtain ⟨datas, hheard⟩ := recvBody_heard hbegin (afterOffer stream) n
      obtain ⟨-, -, hlimit, -⟩ := FileReassembler.begin_eq_ok.mp hbegin
      have hdeclared := hheard.accounted.length_le_declared
      rw [hheard.size_eq] at hdeclared
      have hle : size.toNat ≤ sizeLimit.toNat := hlimit
      rcases hheard.ended with ⟨-, hlen⟩ | ⟨-, -, ⟨hok, -⟩ | ⟨e, herr⟩⟩
      · omega
      · rw [hrunning] at hok
        cases hok
      · rw [hrunning] at herr
        cases herr
  · cases hoffer

/-- **Every turn that is not the last brings a call closer to the end.** -/
theorem TurnOutcome.rank_lt
    (hout : TurnOutcome sizeLimit token stream dir fault stage dir' stage')
    (h : stage.Fit sizeLimit stream) (hnone : stage.returned = none) :
    stage'.rank sizeLimit < stage.rank sizeLimit := by
  cases hout with
  | @written b n hresult =>
    have hn := h.1.le_sizeLimit h.2
    show sizeLimit.toNat + 1 - (n + 1) + 4 < sizeLimit.toNat + 1 - n + 4
    omega
  | @received b n hresult =>
    have hn := h.1.le_sizeLimit h.2
    show 4 < sizeLimit.toNat + 1 - n + 4
    omega
  | unreserved hc | reserved hc => cases hc <;> simp [Stage.rank]
  | published | failed => cases hnone
  | _ => simp only [Stage.rank]; omega

end Rank

namespace Receiver

section Runs

variable {ι : Type} [DecidableEq ι] {tls : Bool} {sizeLimit : UInt64} {token : ι → UInt64}
  {stream : ι → Nat → Except TransferError Message}

/-- How often the task of connection `i` takes its turn. -/
def turnsOf (i : ι) (moves : List (ReceiverMove ι)) : Nat :=
  moves.countP fun
    | .turn j _ => j = i
    | _ => false

/-- A connection that is closed, or whose task receives and does not take this turn, is left
    alone. -/
theorem Steps.elsewhere {r r' : Receiver ι} {move : ReceiverMove ι} {i : ι}
    (hstep : Steps tls sizeLimit token stream r move r')
    (hi : r.conns i = .closed ∨ r.conns i = .receiving ∧ ∀ fault, move ≠ .turn i fault) :
    r'.conns i = r.conns i ∧ r'.downloads.calls i = r.downloads.calls i := by
  -- whoever moves is somewhere else
  have hother : ∀ {j : ι}, r.conns j = .waiting ∨ r.conns j = .securing → i ≠ j := by
    rintro j hj rfl
    rcases hi with hi | ⟨hi, -⟩
    · rw [hi] at hj
      rcases hj with hj | hj <;> cases hj
    · rw [hi] at hj
      rcases hj with hj | hj <;> cases hj
  have hturn : ∀ {j : ι} {fault : Fault}, move = .turn j fault → r.conns j = .receiving →
      i ≠ j := by
    rintro j fault hmove hj rfl
    rcases hi with hi | ⟨-, hi⟩
    · rw [hi] at hj
      cases hj
    · exact hi fault hmove
  cases hstep with
  | still => exact ⟨rfl, rfl⟩
  | drops hj | admits hj => exact ⟨Function.update_of_ne (hother (.inl hj)) _ _, rfl⟩
  | secures hj | fails hj => exact ⟨Function.update_of_ne (hother (.inr hj)) _ _, rfl⟩
  | goesOn hj hd => exact ⟨rfl, hd ▸ Downloads.step_other _ _ (hturn rfl hj)⟩
  | ends hj hd =>
    exact ⟨Function.update_of_ne (hturn rfl hj) _ _, hd ▸ Downloads.step_other _ _ (hturn rfl hj)⟩

/-- A task that takes its turn ends, or is closer to the end. -/
theorem Steps.nearer {r r' : Receiver ι} {i : ι} {fault : Fault}
    (hstep : Steps tls sizeLimit token stream r (.turn i fault) r')
    (h : r.Known sizeLimit stream) (hi : r.conns i = .receiving) :
    r'.conns i = .closed ∨ r'.conns i = .receiving ∧
      (r'.downloads.calls i).rank sizeLimit < (r.downloads.calls i).rank sizeLimit := by
  have hreturned : (r.downloads.calls i).returned = none := by
    have hagrees := h.agrees i
    rw [hi] at hagrees
    exact hagrees
  cases hstep with
  | still _ hidle => exact absurd hi (hidle i fault rfl)
  | goesOn _ hd =>
    exact .inr ⟨hi, hd ▸ (r.downloads.step_outcome i fault).rank_lt (h.fit i) hreturned⟩
  | ends => exact .inl (Function.update_self ..)

/-- The task of connection `i` has ended, or it receives and has at most `k` turns left. -/
def Due (sizeLimit : UInt64) (i : ι) (k : Nat) (r : Receiver ι) : Prop :=
  r.conns i = .closed ∨
    r.conns i = .receiving ∧ (r.downloads.calls i).rank sizeLimit ≤ k

theorem Due.step {r r' : Receiver ι} {move : ReceiverMove ι} {moves : List (ReceiverMove ι)}
    {i : ι} (hstep : Steps tls sizeLimit token stream r move r') (h : r.Known sizeLimit stream)
    (hdue : r.Due sizeLimit i (turnsOf i (move :: moves))) :
    r'.Due sizeLimit i (turnsOf i moves) := by
  rcases hdue with hi | ⟨hi, hrank⟩
  · exact .inl ((hstep.elsewhere (.inl hi)).1.trans hi)
  by_cases hmove : ∃ fault, move = .turn i fault
  · obtain ⟨fault, rfl⟩ := hmove
    refine (hstep.nearer h hi).imp_right fun ⟨hi', hlt⟩ => ⟨hi', ?_⟩
    have hcount : turnsOf i (.turn i fault :: moves) = turnsOf i moves + 1 :=
      List.countP_cons_of_pos (decide_eq_true rfl)
    omega
  · obtain ⟨hconns, hcalls⟩ :=
      hstep.elsewhere (.inr ⟨hi, fun fault hturn => hmove ⟨fault, hturn⟩⟩)
    have hcount : turnsOf i (move :: moves) = turnsOf i moves := by
      refine List.countP_cons_of_neg ?_
      cases move with
      | turn j fault =>
        refine fun hj => hmove ⟨fault, ?_⟩
        rw [of_decide_eq_true hj]
      | _ => exact Bool.false_ne_true
    refine .inr ⟨hconns.trans hi, ?_⟩
    rw [hcalls, ← hcount]
    exact hrank

/-- After as many turns as were left the task has ended. -/
theorem run_closed (tls : Bool) (token : ι → UInt64) {i : ι} {moves : List (ReceiverMove ι)}
    {r : Receiver ι} (h : r.Known sizeLimit stream)
    (hdue : r.Due sizeLimit i (turnsOf i moves)) :
    (Mealy.run (step tls sizeLimit token stream) r moves).1.conns i = .closed := by
  induction moves generalizing r with
  | nil =>
    refine hdue.resolve_right ?_
    rintro ⟨hi, hrank⟩
    have hagrees := h.agrees i
    rw [hi] at hagrees
    have hpos : 0 < (r.downloads.calls i).rank sizeLimit := Stage.rank_pos hagrees
    exact absurd hrank (Nat.not_le_of_lt hpos)
  | cons move moves ih =>
    have hstep := step_steps tls sizeLimit token stream r move
    rw [Mealy.run_cons]
    exact ih (hstep.known h) (hdue.step hstep h)

/-- **A peer cannot keep its place.**  Once a connection is being received from, its task ends and
    gives its permit back within as many of its turns as the size limit has bytes, and eight more:
    whatever the peer sends, whatever fails, and whatever the other tasks do meanwhile. -/
theorem place_returned (tls : Bool) (sizeLimit : UInt64) (token : ι → UInt64)
    (stream : ι → Nat → Except TransferError Message) (base : Dir)
    (moves later : List (ReceiverMove ι)) (i : ι)
    (hi : (Mealy.run (step tls sizeLimit token stream) (start base) moves).1.conns i = .receiving)
    (hturns : sizeLimit.toNat + 8 ≤ turnsOf i later) :
    (Mealy.run (step tls sizeLimit token stream) (start base) (moves ++ later)).1.conns i
      = .closed := by
  rw [Mealy.run_append]
  exact run_closed tls token (run_known tls token (known_start base) moves)
    (.inr ⟨hi, (Stage.rank_le sizeLimit _).trans hturns⟩)

/-- A peer that never says anything but its offer, each wait for it timing out. -/
theorem place_returned_silent :
    (Mealy.run (step false 0 (fun _ : Unit => 0)
        fun _ n => if n = 0 then .ok (.fileOffer 1 "a" 0) else .error .stalled)
      (start fun _ => none)
      ([.accept (some ())] ++ List.replicate 8 (.turn () none))).1.conns () = .closed :=
  place_returned false 0 _ _ _ [.accept (some ())] (List.replicate 8 (.turn () none)) ()
    (by decide) (by decide)

/-- **Nothing bounds a handshake.**  While eight peers are in theirs and none comes to an end, every
    connection that comes in is dropped, and those eight stay. -/
theorem dropped_while_full (tls : Bool) (sizeLimit : UInt64) (token : ι → UInt64)
    (stream : ι → Nat → Except TransferError Message) {r : Receiver ι} (hfull : r.permits = 0)
    (hsilent : ∀ i, r.conns i ≠ .receiving) {moves : List (ReceiverMove ι)}
    (hmoves : ∀ move ∈ moves, ∀ i ok, move ≠ .secured i ok) :
    let r' := (Mealy.run (step tls sizeLimit token stream) r moves).1
    r'.permits = 0 ∧
      ∀ i, r'.conns i = r.conns i ∨ r.conns i = .waiting ∧ r'.conns i = .dropped := by
  induction moves generalizing r with
  | nil => exact ⟨hfull, fun i => .inl rfl⟩
  | cons move moves ih =>
    have hstep := step_steps tls sizeLimit token stream r move
    have hlater := fun m hm => hmoves m (List.mem_cons_of_mem move hm)
    rw [Mealy.run_cons]
    generalize (r.step tls sizeLimit token stream move).1 = r₁ at hstep ⊢
    cases hstep with
    | still => exact ih hfull hsilent hlater
    | admits hi hfree => exact absurd hfull hfree
    | secures | fails => exact absurd rfl (hmoves _ List.mem_cons_self _ _)
    | goesOn hi | ends hi => exact absurd hi (hsilent _)
    | @drops i hi =>
      have hconns : ∀ j, Function.update r.conns i .dropped j = r.conns j ∨
          r.conns j = .waiting ∧ Function.update r.conns i .dropped j = .dropped := by
        intro j
        by_cases hj : j = i
        · rw [hj, Function.update_self]
          exact .inr ⟨hi, rfl⟩
        · exact .inl (Function.update_of_ne hj _ _)
      have hsilent' : ∀ j, Function.update r.conns i .dropped j ≠ .receiving := by
        intro j hj
        rcases hconns j with h | ⟨-, h⟩
        · exact hsilent j (h ▸ hj)
        · rw [h] at hj
          cases hj
      obtain ⟨hpermits, hrest⟩ := ih (r := { r with conns := Function.update r.conns i .dropped })
        hfull hsilent' hlater
      refine ⟨hpermits, fun j => ?_⟩
      rcases hrest j with hsame | ⟨hwaiting, hdropped⟩
      · rw [hsame]
        exact hconns j
      · rcases hconns j with h | ⟨hj, -⟩
        · exact .inr ⟨h ▸ hwaiting, hdropped⟩
        · exact .inr ⟨hj, hdropped⟩

end Runs

end Receiver

end SelfKvm
