/-
  A transfer that its sender reports as sent, and what becomes of it.

  The sender hears nothing after the end message, so whether the file is kept is up to `publish`
  alone.  Here nothing fails but a `create_new` whose name is taken, and no temporary name ever is
  (`Undisturbed`); the tokens are arbitrary, since every run of the receiver begins at zero again.

  `OnTrack` says how far a call must be after so many turns of its own, with what in the directory.
  It is lost at one place: the preferred name is taken, and the fallback is, too.
-/
import SelfKvm.Daemon.Reported
import SelfKvm.Daemon.ConcurrentReceives
import SelfKvm.Daemon.Trespass

namespace SelfKvm

open Function (update)

namespace Shared

variable {ι : Type} [DecidableEq ι]

/-! ## Undisturbed runs -/

/-- The call is to create its temporary file. -/
def isCreating : Stage → Bool
  | .creating _ => true
  | _ => false

/-- Nothing fails, and a temporary file finds its name free. -/
def Undisturbed (token : ι → UInt64) (s : Shared ι) (t : ι × Fault) : Prop :=
  t.2 = none ∧ (isCreating (s.calls t.1) = true → s.dir (tmpName (token t.1)) = none)

instance (token : ι → UInt64) (s : Shared ι) (t : ι × Fault) : Decidable (Undisturbed token s t) :=
  inferInstanceAs (Decidable (_ ∧ _))

/-- What the call has received, if its preferred name was taken and it is to reserve the fallback. -/
def awaitsFallback : Stage → Option Body
  | .reservingAlt b => some b
  | _ => none

/-- The fallback is free when it is needed. -/
def FallbackFree (token : ι → UInt64) (s : Shared ι) (i : ι) : Prop :=
  ∀ b ∈ awaitsFallback (s.calls i), s.dir (altName (token i) b.re.filename) = none

instance (token : ι → UInt64) (s : Shared ι) (i : ι) : Decidable (FallbackFree token s i) :=
  inferInstanceAs (Decidable (∀ b ∈ awaitsFallback _, _))

theorem eq_reservingAlt {stage : Stage} {b : Body} (h : b ∈ awaitsFallback stage) :
    stage = .reservingAlt b := by
  cases stage with
  | reservingAlt b' => rw [Option.mem_some.mp h]
  | _ => cases h

section Runs

variable {sizeLimit : UInt64} {token : ι → UInt64} {stream : ι → Nat → Except TransferError Message}

/-- Every call holds what it must, and who cleans up cleans up its own. -/
structure Steady (token : ι → UInt64) (s : Shared ι) : Prop where
  kept : Kept token s
  failing : ∀ i e, s.calls i = .failing e → s.opened i = true

omit [DecidableEq ι] in
theorem steady_start (base : Dir) : Steady token (start (ι := ι) base) :=
  ⟨kept_start base, fun _ _ h => by cases h⟩

omit [DecidableEq ι] in
theorem Steady.cleansOwn {s : Shared ι} (h : Steady token s) (i : ι) (fault : Fault) :
    CleansOwn token s i fault := by
  intro e hstage hopened
  exact absurd ((h.failing i e hstage).symm.trans hopened) (by decide)

/-- A call fails into its cleanup only after it has created its temporary file. -/
theorem opened_of_failing {s : Shared ι} (h : Steady token s) {i : ι}
    (hquiet : Undisturbed token s (i, none)) {e : TransferError}
    (hnext : (s.step sizeLimit token stream (i, none)).1.calls i = .failing e) :
    s.opened i = true := by
  have hout := turn_outcome sizeLimit (token i) (stream i) s.dir (s.calls i) none
  have hhold := h.kept.holding i
  have howns : s.Owns i (tmpName (token i)) → s.opened i = true := fun ho => h.kept.made _ i ho.2
  rw [step_calls] at hnext
  rw [hnext] at hout
  generalize hstage : s.calls i = stage at hout hhold
  generalize (turn sizeLimit (token i) (stream i) s.dir stage none).1 = dir' at hout
  cases hout with
  | uncreated re e hwhy =>
    have hfree : s.dir (tmpName (token i)) = none := hquiet.2 (by rw [hstage]; rfl)
    rcases hwhy with hfault | htaken
    · exact absurd rfl hfault
    · exact absurd hfree htaken
  | unreceived b n e hwhy => exact howns hhold
  | unwritten b n bytes e hfault => exact howns hhold
  | unreserved hc e hfault => exact howns (hhold.candidate hc)
  | exhausted b htaken => exact howns hhold
  | unmoved b name e hwhy => exact howns hhold.1

theorem Turned.opened_mono {s s' : Shared ι} {i j : ι} {fault : Fault}
    (h : Turned token s i fault s') (hj : s.opened j = true) : s'.opened j = true := by
  cases h with
  | opens hfree =>
    by_cases hji : j = i
    · subst hji
      exact Function.update_self ..
    · exact (Function.update_of_ne hji ..).trans hj
  | _ => exact hj

/-- **One undisturbed turn** keeps a steady directory steady. -/
theorem Steady.step {s : Shared ι} (h : Steady token s) {t : ι × Fault}
    (hquiet : Undisturbed token s t) : Steady token (s.step sizeLimit token stream t).1 := by
  obtain ⟨i, fault⟩ := t
  obtain rfl : fault = none := hquiet.1
  have hturned : Turned token s i none (s.step sizeLimit token stream (i, none)).1 :=
    step_turned s i none
  refine ⟨h.kept.step (h.cleansOwn i none), fun j e he => ?_⟩
  apply hturned.opened_mono
  by_cases hj : j = i
  · subst hj
    exact opened_of_failing h hquiet he
  · rw [(hturned.others hj).1] at he
    exact h.failing j e he

/-! ## How far a call is -/

/-- Where a call is after `turns` turns of its own, when its sender sent `k` chunks and the end. -/
def OnTrack (sizeLimit : UInt64) (token : ι → UInt64)
    (stream : ι → Nat → Except TransferError Message) (re : FileReassembler) (k : Nat)
    (s : Shared ι) (i : ι) (turns : Nat) : Stage → Prop
  | .opening => turns = 0
  | .making re' => re' = re ∧ turns ≤ 1
  | .creating re' => re' = re ∧ turns ≤ 2
  | .receiving b n =>
    b = recvBody re (afterOffer (stream i)) n ∧ n ≤ k ∧ turns ≤ n + 3 ∧
      s.dir (tmpName (token i)) = some b.written
  | .reserving b =>
    Complete sizeLimit (stream i) b ∧ turns ≤ k + 4 ∧ s.dir (tmpName (token i)) = some b.written
  | .reservingAlt b =>
    Complete sizeLimit (stream i) b ∧ turns ≤ k + 5 ∧ s.dir (tmpName (token i)) = some b.written
  | .moving b name =>
    Complete sizeLimit (stream i) b ∧ turns ≤ k + 6 ∧
      s.dir (tmpName (token i)) = some b.written ∧ name ≠ tmpName (token i)
  | .published b name =>
    Complete sizeLimit (stream i) b ∧ s.dir name = some b.written ∧ s.maker name = some i
  | .failing _ => False
  | .failed _ => False

omit [DecidableEq ι] in
/-- It depends only on what the call's own entries hold. -/
theorem OnTrack.of_same {re : FileReassembler} {k : Nat} {s s' : Shared ι} {i : ι} {turns : Nat}
    {stage : Stage} (h : OnTrack sizeLimit token stream re k s i turns stage)
    (hhold : Holding token s i stage)
    (hsame : ∀ n, s.Owns i n → s'.dir n = s.dir n ∧ s'.maker n = s.maker n) :
    OnTrack sizeLimit token stream re k s' i turns stage := by
  cases stage with
  | opening => exact h
  | making re' => exact h
  | creating re' => exact h
  | receiving b n => exact ⟨h.1, h.2.1, h.2.2.1, (hsame _ hhold).1.trans h.2.2.2⟩
  | reserving b => exact ⟨h.1, h.2.1, (hsame _ hhold).1.trans h.2.2⟩
  | reservingAlt b => exact ⟨h.1, h.2.1, (hsame _ hhold).1.trans h.2.2⟩
  | moving b name =>
    exact ⟨h.1, h.2.1, (hsame _ hhold.1).1.trans h.2.2.1, h.2.2.2⟩
  | published b name =>
    obtain ⟨hb, hdir, hmaker⟩ := h
    obtain ⟨hdir', hmaker'⟩ := hsame name ⟨hdir ▸ Option.some_ne_none _, hmaker⟩
    exact ⟨hb, hdir'.trans hdir, hmaker'.trans hmaker⟩
  | failing e => exact h
  | failed e => exact h

/-- Reserving a free name leaves the temp file as it is. -/
theorem tmp_of_reserve {dir dir' : Dir} {tmp name : String} {c c' : List UInt8}
    (htmp : dir tmp = some c) (hname : dir name = none)
    (hdir : dir' = Function.update dir name (some c')) : dir' tmp = some c ∧ name ≠ tmp := by
  have hne : name ≠ tmp := by
    rintro rfl
    rw [hname] at htmp
    cases htmp
  rw [hdir, Function.update_of_ne hne.symm]
  exact ⟨htmp, hne⟩

/-- What `Sent.heard` says of a call's stream. -/
structure Hears (sizeLimit : UInt64) (stream : Nat → Except TransferError Message)
    (re : FileReassembler) (k : Nat) : Prop where
  offered : Offered sizeLimit stream re
  running : ∀ n, n ≤ k → (recvBody re (afterOffer stream) n).result = none
  ended : (recvBody re (afterOffer stream) (k + 1)).result = some (.ok ())

/-- Of the messages up to the last none is an error. -/
theorem Hears.no_error {stream : Nat → Except TransferError Message} {re : FileReassembler}
    {k n : Nat} (hears : Hears sizeLimit stream re k) (hn : n ≤ k) (e : TransferError) :
    (recvBody re (afterOffer stream) (n + 1)).result ≠ some (.error e) := by
  rcases Nat.lt_or_eq_of_le hn with hlt | rfl
  · rw [hears.running (n + 1) hlt]
    exact fun h => by cases h
  · rw [hears.ended]
    exact fun h => by cases h

/-- While the loop goes on, the last message is still to come. -/
theorem Hears.lt_of_running {stream : Nat → Except TransferError Message} {re : FileReassembler}
    {k n : Nat} (hears : Hears sizeLimit stream re k) (hn : n ≤ k)
    (hresult : (recvBody re (afterOffer stream) (n + 1)).result = none) : n + 1 ≤ k := by
  rcases Nat.lt_or_eq_of_le hn with hlt | rfl
  · exact hlt
  · rw [hears.ended] at hresult
    cases hresult

/-- **One more turn of its own**, and the call is one stage further. -/
theorem OnTrack.step {re : FileReassembler} {k : Nat} {s : Shared ι} {i : ι} {turns : Nat}
    (hears : Hears sizeLimit (stream i) re k) (hsteady : Steady token s)
    (hquiet : Undisturbed token s (i, none)) (hfree : FallbackFree token s i)
    (h : OnTrack sizeLimit token stream re k s i turns (s.calls i)) :
    OnTrack sizeLimit token stream re k (s.step sizeLimit token stream (i, none)).1 i (turns + 1)
      ((s.step sizeLimit token stream (i, none)).1.calls i) := by
  have hout := turn_outcome sizeLimit (token i) (stream i) s.dir (s.calls i) none
  have hhold := hsteady.kept.holding i
  have hnone : ∀ {P : Prop}, (none : Fault) ≠ none → P := fun h => absurd rfl h
  rw [step_calls]
  unfold Shared.step
  simp only
  generalize turn sizeLimit (token i) (stream i) s.dir (s.calls i) none = r at hout ⊢
  obtain ⟨dir', stage', replies⟩ := r
  generalize hstage : s.calls i = stage at hout hhold h ⊢
  cases hout with
  | refused e hwhy =>
    rcases hwhy with hfault | hrefused
    · exact hnone hfault
    · cases hrefused.symm.trans hears.offered
  | accepted hoffer =>
    cases hoffer.symm.trans hears.offered
    exact ⟨rfl, Nat.le_of_eq (congrArg (· + 1) h)⟩
  | unmade re' e hfault => exact hnone hfault
  | made re' => exact ⟨h.1, Nat.succ_le_succ h.2⟩
  | uncreated re' e hwhy =>
    have hclear : s.dir (tmpName (token i)) = none := hquiet.2 (by rw [hstage]; rfl)
    rcases hwhy with hfault | htaken
    · exact hnone hfault
    · exact absurd hclear htaken
  | created re' hclear =>
    obtain ⟨rfl, hturns⟩ := h
    exact ⟨rfl, Nat.zero_le k, by omega, Function.update_self ..⟩
  | unreceived b n e hwhy =>
    obtain ⟨rfl, hn, -, -⟩ := h
    rcases hwhy with hfault | herror
    · exact hnone hfault
    · exact absurd herror (hears.no_error hn e)
  | received hresult =>
    obtain ⟨rfl, hn, hturns, htmp⟩ := h
    obtain ⟨hcomplete, hwritten⟩ := Reached.complete ⟨re, hears.offered, rfl⟩ hresult
    refine ⟨hcomplete, by omega, ?_⟩
    simp only [ite_self]
    rw [hwritten]
    exact htmp
  | unwritten b n bytes e hfault => exact hnone hfault
  | written hresult =>
    obtain ⟨rfl, hn, hturns, htmp⟩ := h
    refine ⟨rfl, hears.lt_of_running hn hresult, by omega, ?_⟩
    show (if s.maker (tmpName (token i)) = some i then s.dir.append _ _ else s.dir) _ = _
    rw [if_pos hhold.2]
    unfold Dir.append
    rw [Function.update_self, htmp, Option.map_some, Body.step_written]
  | unreserved hc e hfault => exact hnone hfault
  | taken b hwhy => exact ⟨h.1, Nat.succ_le_succ h.2.1, h.2.2⟩
  | exhausted b htaken => exact absurd (hfree b (by rw [hstage]; rfl)) htaken
  | reserved hc hname =>
    cases hc with
    | preferred =>
      obtain ⟨hb, hturns, htmp⟩ := h
      obtain ⟨htmp', hne⟩ := tmp_of_reserve htmp hname rfl
      exact ⟨hb, by omega, htmp', hne⟩
    | fallback =>
      obtain ⟨hb, hturns, htmp⟩ := h
      obtain ⟨htmp', hne⟩ := tmp_of_reserve htmp hname rfl
      exact ⟨hb, by omega, htmp', hne⟩
  | unmoved b name e hwhy =>
    rcases hwhy with hfault | hgone
    · exact hnone hfault
    · cases hgone.symm.trans h.2.2.1
  | moved b name hsrc =>
    obtain ⟨hb, -, htmp, hne⟩ := h
    cases hsrc.symm.trans htmp
    refine ⟨hb, ?_, ?_⟩
    · exact (Function.update_of_ne hne ..).trans (Function.update_self ..)
    · exact (Function.update_of_ne hne ..).trans ((Function.update_self ..).trans hhold.1.2)
  | removed | unremoved => exact h.elim
  | published b name => exact h
  | failed e => exact h.elim

/-- What another call does leaves the call where it is. -/
theorem OnTrack.other {re : FileReassembler} {k : Nat} {s : Shared ι} {i j : ι} {turns : Nat}
    (hsteady : Steady token s) (hj : i ≠ j) (fault : Fault)
    (h : OnTrack sizeLimit token stream re k s i turns (s.calls i)) :
    OnTrack sizeLimit token stream re k (s.step sizeLimit token stream (j, fault)).1 i turns
      ((s.step sizeLimit token stream (j, fault)).1.calls i) := by
  have hrespects : Respects sizeLimit token stream s j fault :=
    hsteady.kept.respects (hsteady.cleansOwn j fault)
  have hturned : Turned token s j fault (s.step sizeLimit token stream (j, fault)).1 :=
    step_turned s j fault
  rw [(hturned.others hj).1]
  refine h.of_same (hsteady.kept.holding i) ?_
  rintro n ⟨hn, hmaker⟩
  exact hrespects n hn fun heq => hj (Option.some.inj (hmaker.symm.trans heq))

/-! ## A call that has lost its file -/

/-- The call has failed, or is about to. -/
def Lost (s : Shared ι) (i : ι) : Prop := ∃ e, s.calls i = .failing e ∨ s.calls i = .failed e

theorem Lost.step {s : Shared ι} {i : ι} (h : Lost s i) (t : ι × Fault) :
    Lost (s.step sizeLimit token stream t).1 i := by
  obtain ⟨j, fault⟩ := t
  obtain ⟨e, h⟩ := h
  by_cases hj : i = j
  · subst hj
    refine ⟨e, .inr ?_⟩
    rw [step_calls]
    rcases h with h | h
    · rw [h]
      rfl
    · rw [h]
      rfl
  · have hturned : Turned token s j fault (s.step sizeLimit token stream (j, fault)).1 :=
      step_turned s j fault
    refine ⟨e, ?_⟩
    rw [(hturned.others hj).1]
    exact h

theorem Lost.run {s : Shared ι} {i : ι} (h : Lost s i) (turns : List (ι × Fault)) :
    Lost (Mealy.run (Shared.step sizeLimit token stream) s turns).1 i := by
  induction turns generalizing s with
  | nil => exact h
  | cons t turns ih => exact ih (h.step t)

/-- **Both names taken**: the received file is given up. -/
theorem lost_of_taken {s : Shared ι} {i : ι} {b : Body} (hstage : s.calls i = .reservingAlt b)
    (htaken : s.dir (altName (token i) b.re.filename) ≠ none) :
    Lost (s.step sizeLimit token stream (i, none)).1 i := by
  refine ⟨.io .alreadyExists, .inl ?_⟩
  rw [step_calls, hstage]
  unfold turn Dir.createNew
  simp only [Option.isSome_iff_ne_none.mpr htaken, if_true]

/-! ## Whole runs -/

/-- How many of the turns are the call's own. -/
def ownTurns (i : ι) (turns : List (ι × Fault)) : Nat := turns.countP fun t => t.1 = i

/-- Nothing that was received is given up; after enough turns the call has returned `Ok`; and then the
    directory holds the file under the name it returned. -/
structure Stored (sizeLimit : UInt64) (stream : ι → Nat → Except TransferError Message)
    (msgs : List Message) (turns : Nat) (s : Shared ι) (i : ι) : Prop where
  kept : ¬ Lost s i
  returns : msgs.length + 5 ≤ turns → ∃ n, (s.calls i).returned = some (.ok n)
  stored : ∀ n, (s.calls i).returned = some (.ok n) →
    ∃ bytes, Accepted sizeLimit (stream i) bytes ∧ s.dir n = some bytes

omit [DecidableEq ι] in
/-- A call on its track has lost nothing, and enough turns have brought it home. -/
theorem OnTrack.stored {re : FileReassembler} {k : Nat} {s : Shared ι} {i : ι} {turns : Nat}
    {msgs : List Message} (hmsgs : msgs.length = k + 2)
    (h : OnTrack sizeLimit token stream re k s i turns (s.calls i)) :
    Stored sizeLimit stream msgs turns s i := by
  refine ⟨?_, fun hturns => ?_, fun n hn => ?_⟩
  · rintro ⟨e, he | he⟩
    · rw [he] at h
      exact h
    · rw [he] at h
      exact h
  · cases hstage : s.calls i with
    | published b name => exact ⟨name, rfl⟩
    | opening =>
      rw [hstage] at h
      have hzero : turns = 0 := h
      omega
    | making re' =>
      rw [hstage] at h
      have hle := h.2
      omega
    | creating re' =>
      rw [hstage] at h
      have hle := h.2
      omega
    | receiving b n =>
      rw [hstage] at h
      obtain ⟨-, hn, hle, -⟩ := h
      omega
    | reserving b =>
      rw [hstage] at h
      have hle := h.2.1
      omega
    | reservingAlt b =>
      rw [hstage] at h
      have hle := h.2.1
      omega
    | moving b name =>
      rw [hstage] at h
      have hle := h.2.1
      omega
    | failing e =>
      rw [hstage] at h
      exact h.elim
    | failed e =>
      rw [hstage] at h
      exact h.elim
  · obtain ⟨b, hb⟩ := Downloads.returned_ok hn
    rw [hb] at h
    obtain ⟨⟨m, hm, hresult⟩, hdir, -⟩ := h
    exact ⟨b.written, ⟨b, m, hm, hresult, rfl⟩, hdir⟩

theorem steady_run {base : Dir} {turns : List (ι × Fault)}
    (hquiet : Mealy.EveryStep (step sizeLimit token stream) (start base) turns
      fun _ s t => Undisturbed token s t) :
    Steady token (Mealy.run (step sizeLimit token stream) (start base) turns).1 :=
  hquiet.final _ (P := fun _ s => Steady token s) (steady_start base)
    fun _ _ _ hs ht => hs.step ht

/-- **A sent transfer stays on its track**, as long as it finds its fallback free. -/
theorem onTrack_run {base : Dir} {turns : List (ι × Fault)} {i : ι} {re : FileReassembler} {k : Nat}
    (hears : Hears sizeLimit (stream i) re k)
    (hquiet : Mealy.EveryStep (step sizeLimit token stream) (start base) turns
      fun _ s t => Undisturbed token s t)
    (hfree : Mealy.EveryStep (step sizeLimit token stream) (start base) turns
      fun _ s t => t.1 = i → FallbackFree token s i) :
    OnTrack sizeLimit token stream re k
      (Mealy.run (step sizeLimit token stream) (start base) turns).1 i (ownTurns i turns)
      ((Mealy.run (step sizeLimit token stream) (start base) turns).1.calls i) := by
  induction turns using List.reverseRecOn with
  | nil => rfl
  | append_singleton turns t ih =>
    obtain ⟨hbefore, hlast⟩ := (Mealy.everyStep_concat _).mp hquiet
    obtain ⟨hfreeBefore, hlastFree⟩ := (Mealy.everyStep_concat _).mp hfree
    have hsteady := steady_run hbefore
    obtain ⟨j, fault⟩ := t
    have hcount : ownTurns i (turns ++ [(j, fault)]) =
        ownTurns i turns + if j = i then 1 else 0 := by
      unfold ownTurns
      rw [List.countP_append, List.countP_singleton]
      simp only [decide_eq_true_eq]
    rw [Mealy.run_concat, hcount]
    by_cases hj : j = i
    · subst hj
      obtain rfl : fault = none := hlast.1
      rw [if_pos rfl]
      exact (ih hbefore hfreeBefore).step hears hsteady hlast (hlastFree rfl)
    · rw [if_neg hj]
      exact (ih hbefore hfreeBefore).other hsteady (Ne.symm hj) fault

/-- **Exactly when a sent file is stored.**  Let any number of calls, with any tokens, receive into a
    directory with anything in it, in any order, where no operation fails but a reservation of a
    taken name, and no temporary name is taken.  Every transfer that its sender reports as sent is
    stored — it is never given up, and returns the name under which the directory holds the file
    when it has had its turns — if and only if whenever such a transfer finds its preferred name
    taken, its fallback name is free. -/
theorem stored_exactly (sizeLimit : UInt64) (token : ι → UInt64)
    (stream : ι → Nat → Except TransferError Message) (base : Dir) (turns : List (ι × Fault))
    (hquiet : Mealy.EveryStep (step sizeLimit token stream) (start base) turns
      fun _ s t => Undisturbed token s t) :
    (∀ i msgs, Sent sizeLimit (stream i) msgs →
      Stored sizeLimit stream msgs (ownTurns i turns)
        (Mealy.run (step sizeLimit token stream) (start base) turns).1 i) ↔
      Mealy.EveryStep (step sizeLimit token stream) (start base) turns fun _ s t =>
        (∃ msgs, Sent sizeLimit (stream t.1) msgs) → FallbackFree token s t.1 := by
  constructor
  · rintro hstored js ⟨i, fault⟩ hpre ⟨msgs, hsent⟩ b hb
    by_contra htaken
    have hstage := eq_reservingAlt hb
    obtain rfl : fault = none := (hquiet js _ hpre).1
    obtain ⟨rest, rfl⟩ := hpre
    refine (hstored i msgs hsent).kept ?_
    rw [Mealy.run_append, Mealy.run_concat]
    exact (lost_of_taken hstage htaken).run rest
  · intro hfree i msgs hsent
    obtain ⟨re, k, hmsgs, hoffered, hrunning, hended⟩ := hsent.heard
    refine OnTrack.stored hmsgs (onTrack_run ⟨hoffered, hrunning, hended⟩ hquiet ?_)
    refine hfree.mono _ fun _ s t hfree heq => ?_
    subst heq
    exact hfree ⟨msgs, hsent⟩

end Runs

/-! ## One byte, sent as `a` -/

/-- The stream of a file of one byte. -/
def oneByte : Nat → Except TransferError Message
  | 0 => .ok (offerMsg 1 "a" 1)
  | 1 => .ok (chunkMsg 1 0 [5])
  | _ => .ok (endMsg 1 1)

theorem sent_oneByte :
    Sent 10 oneByte [offerMsg 1 "a" 1, chunkMsg 1 0 [5], endMsg 1 1] := by
  have hd : Source.Delivers (ε := IoError) [.ok [5]] ([5] : List UInt8) :=
    Source.delivers_whole (by decide)
  have hchunks : Source.chunks (clampChunk 4) ([5] : List UInt8) = [[5]] := by
    rw [Source.chunks_of_pos (by decide) (by decide)]
    exact congrArg _ (Source.chunks_nil _)
  have hcount : (Source.chunks (clampChunk 4) ([5] : List UInt8)).length < 2 ^ 32 := by
    rw [hchunks]
    decide
  refine ⟨1, "a", 1, [.ok [5]], 4, [], .fileAccept 1 true, _, by decide,
    sendFramed_honest hd hcount 1, ?_, ?_⟩
  · show planMessages 1 "a" [5] (clampChunk 4) = _
    rw [planMessages_eq 1 "a" [5] (by decide), hchunks]
    rfl
  · intro i m hm
    match i with
    | 0 => exact congrArg Except.ok (Option.some.inj hm)
    | 1 => exact congrArg Except.ok (Option.some.inj hm)
    | 2 => exact congrArg Except.ok (Option.some.inj hm)

/-- The name `a` is taken, the fallback is not: the byte is stored, and can be found. -/
theorem stored_exactly_one :
    Stored 10 (fun _ : Unit => oneByte) [offerMsg 1 "a" 1, chunkMsg 1 0 [5], endMsg 1 1] 8
      (Mealy.run (step 10 (fun _ => 0) fun _ => oneByte)
        (start (update (fun _ => none) "a" (some [9]))) (List.replicate 8 ((), none))).1 () := by
  refine (stored_exactly 10 (fun _ : Unit => 0) (fun _ => oneByte)
    (update (fun _ => none) "a" (some [9])) (List.replicate 8 ((), none)) ?_).mpr ?_ () _ sent_oneByte
  · repeat refine (Mealy.everyStep_cons _).mpr ⟨by decide, ?_⟩
    exact Mealy.everyStep_nil _
  · repeat refine (Mealy.everyStep_cons _).mpr ⟨fun _ => by decide, ?_⟩
    exact Mealy.everyStep_nil _

/-- Both names are taken: the sender is told nothing, and its byte is thrown away. -/
theorem sent_and_discarded :
    ¬ ∀ (sizeLimit : UInt64) (token : Unit → UInt64)
      (stream : Unit → Nat → Except TransferError Message) (base : Dir) (turns : List (Unit × Fault)),
      Mealy.EveryStep (step sizeLimit token stream) (start base) turns
        (fun _ s t => Undisturbed token s t) →
      ∀ i msgs, Sent sizeLimit (stream i) msgs →
        Stored sizeLimit stream msgs (ownTurns i turns)
          (Mealy.run (step sizeLimit token stream) (start base) turns).1 i := by
  intro hall
  have hstored := hall 10 (fun _ => 0) (fun _ => oneByte)
    (update (update (fun _ => none) "a" (some [9])) "0-a" (some [9])) (List.replicate 8 ((), none))
    (by
      repeat refine (Mealy.everyStep_cons _).mpr ⟨by decide, ?_⟩
      exact Mealy.everyStep_nil _) () _ sent_oneByte
  exact hstored.kept ⟨.io .alreadyExists, by decide⟩

end Shared

end SelfKvm
