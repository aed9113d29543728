/-
  Receives that share temporary names.

  Every process numbers its transfers from zero, and a process that ends may leave temporary files
  behind.  So two calls may have the same token, and a temporary name may be taken by a file that is
  somebody else's.  Here the tokens are arbitrary, and beside the directory there is a record of
  who made each entry (`maker`) and which calls have created their temporary file (`opened`).

  A file that has lost its name is written to all the same; otherwise a turn is that of
  `SelfKvm.Daemon.Publish`.  `trespass_exactly` says that the one operation that
  can hit an entry of somebody else is the cleanup of a call that never created its temporary file.
-/
import SelfKvm.Daemon.Publish

namespace SelfKvm

open Function (update)

/-- A directory, the calls that receive into it, and who made what. -/
structure Shared (ι : Type) where
  dir : Dir
  calls : ι → Stage
  /-- The call that created the entry, if it was not there at the start. -/
  maker : String → Option ι
  /-- Whether the call has created its temporary file. -/
  opened : ι → Bool

namespace Shared

variable {ι : Type} [DecidableEq ι]

/-- Nothing has begun. -/
def start (dir : Dir) : Shared ι := ⟨dir, fun _ => .opening, fun _ => none, fun _ => false⟩

/-- One call takes its turn. -/
def step (sizeLimit : UInt64) (token : ι → UInt64) (stream : ι → Nat → Except TransferError Message)
    (s : Shared ι) : ι × Fault → Shared ι × List (ι × Message)
  | (i, fault) =>
    let tmp := tmpName (token i)
    let (dir, stage, replies) := turn sizeLimit (token i) (stream i) s.dir (s.calls i) fault
    let said := replies.map fun msg => (i, msg)
    let calls := update s.calls i stage
    match s.calls i, stage with
    | .creating _, .receiving _ _ =>
      ({ dir, calls, maker := update s.maker tmp (some i), opened := update s.opened i true }, said)
    -- the bytes go into the file that was opened, whatever has become of its name
    | .receiving _ _, _ =>
      ({ s with dir := if s.maker tmp = some i then dir else s.dir, calls }, said)
    | .reserving _, .moving _ name =>
      ({ s with dir, calls, maker := update s.maker name (some i) }, said)
    | .reservingAlt _, .moving _ name =>
      ({ s with dir, calls, maker := update s.maker name (some i) }, said)
    | .moving _ name, .published _ _ =>
      ({ s with dir, calls, maker := update (update s.maker name (s.maker tmp)) tmp none }, said)
    | .failing _, _ =>
      match fault with
      -- `let _ = remove_file(&tmp)`
      | some _ => ({ s with calls }, said)
      | none => ({ s with dir, calls, maker := update s.maker tmp none }, said)
    | _, _ => ({ s with dir, calls }, said)

section Runs

variable {sizeLimit : UInt64} {token : ι → UInt64} {stream : ι → Nat → Except TransferError Message}

/-- The call's next stage is that of its turn. -/
theorem step_calls (s : Shared ι) (i : ι) (fault : Fault) :
    (s.step sizeLimit token stream (i, fault)).1.calls i =
      (turn sizeLimit (token i) (stream i) s.dir (s.calls i) fault).2.1 := by
  unfold step
  simp only
  split
  case h_6 => split <;> exact Function.update_self ..
  all_goals exact Function.update_self ..

/-- The turn leaves alone every entry that its call did not create: it is there afterwards, and it is
    the same. -/
def Respects (sizeLimit : UInt64) (token : ι → UInt64)
    (stream : ι → Nat → Except TransferError Message) (s : Shared ι) (i : ι) (fault : Fault) : Prop :=
  ∀ n, s.dir n ≠ none → s.maker n ≠ some i →
    (s.step sizeLimit token stream (i, fault)).1.dir n = s.dir n ∧
      (s.step sizeLimit token stream (i, fault)).1.maker n = s.maker n

/-- A call that cleans up without having created its temporary file finds nothing under that name. -/
def CleansOwn (token : ι → UInt64) (s : Shared ι) (i : ι) (fault : Fault) : Prop :=
  ∀ e, s.calls i = .failing e → s.opened i = false → fault = none →
    s.dir (tmpName (token i)) = none

/-! ## What a call holds -/

/-- The entry is there, and the call made it. -/
def Owns (s : Shared ι) (i : ι) (n : String) : Prop := s.dir n ≠ none ∧ s.maker n = some i

/-- What the call must hold at each stage. -/
def Holding (token : ι → UInt64) (s : Shared ι) (i : ι) : Stage → Prop
  | .opening => s.opened i = false
  | .making _ => s.opened i = false
  | .creating _ => s.opened i = false
  | .receiving _ _ => s.Owns i (tmpName (token i))
  | .reserving _ => s.Owns i (tmpName (token i))
  | .reservingAlt _ => s.Owns i (tmpName (token i))
  | .moving _ name => s.Owns i (tmpName (token i)) ∧ s.Owns i name
  | .failing _ => s.opened i = true → s.Owns i (tmpName (token i))
  | .published _ _ => True
  | .failed _ => True

omit [DecidableEq ι] in
/-- It depends only on what the call owns and has opened. -/
theorem Holding.of_owns {s s' : Shared ι} {i : ι} (hopened : s'.opened i = s.opened i)
    (howns : ∀ n, s.Owns i n → s'.Owns i n) {stage : Stage} (h : Holding token s i stage) :
    Holding token s' i stage := by
  cases stage with
  | opening => exact hopened.trans h
  | making re => exact hopened.trans h
  | creating re => exact hopened.trans h
  | receiving b n => exact howns _ h
  | reserving b => exact howns _ h
  | reservingAlt b => exact howns _ h
  | moving b name => exact ⟨howns _ h.1, howns _ h.2⟩
  | failing e => exact fun ho => howns _ (h (hopened ▸ ho))
  | published b name => trivial
  | failed e => trivial

/-! ## What a turn can do -/

/-- The outcomes of a turn: the directory stays as it is, the temporary file is created or written to,
    a name is reserved, the file is renamed, or the cleanup removes what the temporary name
    stands for. -/
inductive Turned (token : ι → UInt64) (s : Shared ι) (i : ι) (fault : Fault) : Shared ι → Prop
  | quiet {stage : Stage} (hold : Holding token s i (s.calls i) → Holding token s i stage) :
    Turned token s i fault { s with calls := update s.calls i stage }
  | opens {b : Body} {n : Nat} (hfree : s.dir (tmpName (token i)) = none) :
    Turned token s i fault
      { dir := update s.dir (tmpName (token i)) (some []), calls := update s.calls i (.receiving b n),
        maker := update s.maker (tmpName (token i)) (some i), opened := update s.opened i true }
  | writes {bytes : List UInt8} {stage : Stage}
    (hold : Holding token s i (s.calls i) → s.Owns i (tmpName (token i)))
    (hnext : ∀ s' : Shared ι, s'.Owns i (tmpName (token i)) → Holding token s' i stage) :
    Turned token s i fault
      { s with
        dir := if s.maker (tmpName (token i)) = some i then
          s.dir.append (tmpName (token i)) bytes else s.dir
        calls := update s.calls i stage }
  | reserves {b : Body} {name : String}
    (hold : Holding token s i (s.calls i) → s.Owns i (tmpName (token i)))
    (hfree : s.dir name = none) :
    Turned token s i fault
      { s with
        dir := update s.dir name (some []), calls := update s.calls i (.moving b name)
        maker := update s.maker name (some i) }
  | moves {b : Body} {name : String} {c : List UInt8} (hstage : s.calls i = .moving b name) :
    Turned token s i fault
      { s with
        dir := update (update s.dir name (some c)) (tmpName (token i)) none
        calls := update s.calls i (.published b name)
        maker := update (update s.maker name (s.maker (tmpName (token i)))) (tmpName (token i)) none }
  | removes {e : TransferError} (hstage : s.calls i = .failing e) (hfault : fault = none) :
    Turned token s i fault
      { s with
        dir := update s.dir (tmpName (token i)) none, calls := update s.calls i (.failed e)
        maker := update s.maker (tmpName (token i)) none }

omit [DecidableEq ι] in
/-- A call that tries a name holds its temporary file. -/
theorem Holding.candidate {s : Shared ι} {i : ι} {stage : Stage} {b : Body} {name : String}
    (h : Holding token s i stage) (hc : Candidate (token i) stage b name) :
    s.Owns i (tmpName (token i)) := by
  cases hc with
  | preferred => exact h
  | fallback => exact h

/-- **There are no other outcomes.** -/
theorem step_turned (s : Shared ι) (i : ι) (fault : Fault) :
    Turned token s i fault (s.step sizeLimit token stream (i, fault)).1 := by
  have hout := turn_outcome sizeLimit (token i) (stream i) s.dir (s.calls i) fault
  unfold step
  simp only
  generalize turn sizeLimit (token i) (stream i) s.dir (s.calls i) fault = r at hout ⊢
  obtain ⟨dir', stage', replies⟩ := r
  have hquiet : ∀ {stage : Stage}, (Holding token s i (s.calls i) → Holding token s i stage) →
      Turned token s i fault { s with calls := update s.calls i stage } := fun h => .quiet h
  generalize hstage : s.calls i = stage at hout hquiet ⊢
  cases hout with
  | refused e hwhy => exact hquiet fun _ => trivial
  | accepted hoffer => exact hquiet fun h => h
  | unmade re e hfault => exact hquiet fun _ => trivial
  | made re => exact hquiet fun h => h
  | uncreated re e hwhy =>
    exact hquiet fun h hopened => absurd (h.symm.trans hopened) Bool.false_ne_true
  | created re hfree => exact .opens hfree
  | unreceived b n e hwhy =>
    simp only [ite_self]
    exact hquiet fun h _ => h
  | received hresult =>
    simp only [ite_self]
    exact hquiet fun h => h
  | unwritten b n bytes e hfault =>
    exact .writes (fun h => by rwa [hstage] at h) fun s' h _ => h
  | written hresult => exact .writes (fun h => by rwa [hstage] at h) fun s' h => h
  | unreserved hc e hfault =>
    have hhold := fun h : Holding token s i stage => h.candidate hc
    cases hc with
    | preferred => exact hquiet fun h _ => hhold h
    | fallback => exact hquiet fun h _ => hhold h
  | taken b hwhy => exact hquiet fun h => h
  | exhausted b htaken => exact hquiet fun h _ => h
  | reserved hc hfree =>
    have hhold : Holding token s i (s.calls i) → s.Owns i (tmpName (token i)) := by
      rw [hstage]
      exact fun h => h.candidate hc
    cases hc with
    | preferred => exact .reserves hhold hfree
    | fallback => exact .reserves hhold hfree
  | unmoved b name e hwhy => exact hquiet fun h _ => h.1
  | moved b name hsrc => exact .moves hstage
  | removed e hfault =>
    subst hfault
    exact .removes hstage rfl
  | unremoved e hfault =>
    obtain ⟨failure, rfl⟩ := Option.ne_none_iff_exists'.mp hfault
    exact hquiet fun _ => trivial
  | published b name => exact hquiet fun _ => trivial
  | failed e => exact hquiet fun _ => trivial

/-! ## What a turn keeps -/

omit [DecidableEq ι] in
/-- Another's entry is not one of the call's own. -/
theorem ne_of_maker {s : Shared ι} {i : ι} {n m : String} (hn : s.maker n ≠ some i)
    (hm : s.Owns i m) : n ≠ m := by
  rintro rfl
  exact hn hm.2

/-- **A turn of a call that holds what it must, and cleans up its own**, touches no other entry. -/
theorem Turned.respects {s s' : Shared ι} {i : ι} {fault : Fault} (h : Turned token s i fault s')
    (hhold : Holding token s i (s.calls i)) (hclean : CleansOwn token s i fault) {n : String}
    (hn : s.dir n ≠ none) (hmaker : s.maker n ≠ some i) :
    s'.dir n = s.dir n ∧ s'.maker n = s.maker n := by
  cases h with
  | quiet hold => exact ⟨rfl, rfl⟩
  | opens hfree =>
    have hne : n ≠ tmpName (token i) := by
      rintro rfl
      exact hn hfree
    exact ⟨Function.update_of_ne hne .., Function.update_of_ne hne ..⟩
  | @writes bytes stage hold hnext =>
    have hne := ne_of_maker hmaker (hold hhold)
    refine ⟨?_, rfl⟩
    show (if s.maker (tmpName (token i)) = some i then
      s.dir.append (tmpName (token i)) bytes else s.dir) n = s.dir n
    split
    · exact Function.update_of_ne hne ..
    · rfl
  | @reserves b name hold hfree =>
    have hne : n ≠ name := by
      rintro rfl
      exact hn hfree
    exact ⟨Function.update_of_ne hne .., Function.update_of_ne hne ..⟩
  | @moves b name c hstage =>
    rw [hstage] at hhold
    have htmp := ne_of_maker hmaker hhold.1
    have hname := ne_of_maker hmaker hhold.2
    constructor
    · exact (Function.update_of_ne htmp ..).trans (Function.update_of_ne hname ..)
    · exact (Function.update_of_ne htmp ..).trans (Function.update_of_ne hname ..)
  | @removes e hstage hfault =>
    have hne : n ≠ tmpName (token i) := by
      rw [hstage] at hhold
      cases hopened : s.opened i with
      | true => exact ne_of_maker hmaker (hhold hopened)
      | false =>
        rintro rfl
        exact hn (hclean e hstage hopened hfault)
    exact ⟨Function.update_of_ne hne .., Function.update_of_ne hne ..⟩

/-- The call holds what it must at its next stage. -/
theorem Turned.holding {s s' : Shared ι} {i : ι} {fault : Fault} (h : Turned token s i fault s')
    (hhold : Holding token s i (s.calls i)) : Holding token s' i (s'.calls i) := by
  cases h with
  | @quiet stage hold =>
    show Holding token _ i (update s.calls i stage i)
    rw [Function.update_self]
    exact (hold hhold).of_owns rfl fun _ howns => howns
  | @opens b n hfree =>
    show Holding token _ i (update s.calls i (.receiving b n) i)
    rw [Function.update_self]
    refine ⟨?_, Function.update_self ..⟩
    show update s.dir _ (some []) _ ≠ none
    rw [Function.update_self]
    exact Option.some_ne_none []
  | @writes bytes stage hold hnext =>
    obtain ⟨hdir, hmaker⟩ := hold hhold
    show Holding token _ i (update s.calls i stage i)
    rw [Function.update_self]
    refine hnext _ ⟨?_, hmaker⟩
    show (if s.maker (tmpName (token i)) = some i then
      s.dir.append (tmpName (token i)) bytes else s.dir) (tmpName (token i)) ≠ none
    rw [if_pos hmaker]
    unfold Dir.append
    rw [Function.update_self]
    exact fun hnone => hdir (Option.map_eq_none_iff.mp hnone)
  | @reserves b name hold hfree =>
    obtain ⟨hdir, hmaker⟩ := hold hhold
    have hne : tmpName (token i) ≠ name := by
      rintro rfl
      exact hdir hfree
    show Holding token _ i (update s.calls i (.moving b name) i)
    rw [Function.update_self]
    refine ⟨⟨?_, (Function.update_of_ne hne ..).trans hmaker⟩, ?_, Function.update_self ..⟩
    · show update s.dir name (some []) _ ≠ none
      rw [Function.update_of_ne hne]
      exact hdir
    · show update s.dir name (some []) _ ≠ none
      rw [Function.update_self]
      exact Option.some_ne_none []
  | @moves b name c hstage =>
    show Holding token _ i (update s.calls i (.published b name) i)
    rw [Function.update_self]
    trivial
  | @removes e hstage hfault =>
    show Holding token _ i (update s.calls i (.failed e) i)
    rw [Function.update_self]
    trivial

/-- Nobody else moves, or creates a temporary file. -/
theorem Turned.others {s s' : Shared ι} {i j : ι} {fault : Fault} (h : Turned token s i fault s')
    (hj : j ≠ i) : s'.calls j = s.calls j ∧ s'.opened j = s.opened j := by
  cases h with
  | opens hfree => exact ⟨Function.update_of_ne hj .., Function.update_of_ne hj ..⟩
  | _ => exact ⟨Function.update_of_ne hj .., rfl⟩

/-- Who has made something has created its temporary file before. -/
theorem Turned.made {s s' : Shared ι} {i : ι} {fault : Fault} (h : Turned token s i fault s')
    (hhold : Holding token s i (s.calls i))
    (hmade : ∀ n j, s.maker n = some j → s.opened j = true) :
    ∀ n j, s'.maker n = some j → s'.opened j = true := by
  have hset : ∀ {m : String} {o : Option ι}, (∀ j, o = some j → s.opened j = true) →
      ∀ {f : String → Option ι}, (∀ n j, f n = some j → s.opened j = true) →
      ∀ n j, update f m o n = some j → s.opened j = true := by
    intro m o ho f hf n j hn
    by_cases hnm : n = m
    · subst hnm
      rw [Function.update_self] at hn
      exact ho j hn
    · rw [Function.update_of_ne hnm] at hn
      exact hf n j hn
  cases h with
  | quiet hold => exact hmade
  | opens hfree =>
    intro n j hn
    by_cases hj : j = i
    · subst hj
      exact Function.update_self ..
    · show update s.opened i true j = true
      rw [Function.update_of_ne hj]
      by_cases hnm : n = tmpName (token i)
      · subst hnm
        have hi : update s.maker (tmpName (token i)) (some i) (tmpName (token i)) = some j := hn
        rw [Function.update_self] at hi
        injection hi with hi
        exact absurd hi.symm hj
      · have hold : update s.maker (tmpName (token i)) (some i) n = some j := hn
        rw [Function.update_of_ne hnm] at hold
        exact hmade n j hold
  | writes hold hnext => exact hmade
  | reserves hold hfree =>
    refine hset (fun j hj => ?_) hmade
    injection hj with hj
    exact hj ▸ hmade _ i (hold hhold).2
  | moves hstage =>
    exact hset (fun j hj => by cases hj) (hset (fun j hj => hmade _ j hj) hmade)
  | removes hstage hfault => exact hset (fun j hj => by cases hj) hmade

/-! ## Whole runs -/

/-- Every call holds what it must, and has created its temporary file before it made anything. -/
structure Kept (token : ι → UInt64) (s : Shared ι) : Prop where
  holding : ∀ i, Holding token s i (s.calls i)
  made : ∀ n i, s.maker n = some i → s.opened i = true

omit [DecidableEq ι] in
theorem kept_start (base : Dir) : Kept token (start (ι := ι) base) :=
  ⟨fun _ => rfl, fun _ _ h => by cases h⟩

theorem Kept.respects {s : Shared ι} (h : Kept token s) {i : ι} {fault : Fault}
    (hclean : CleansOwn token s i fault) : Respects sizeLimit token stream s i fault :=
  fun _ hn hmaker => (step_turned s i fault).respects (h.holding i) hclean hn hmaker

/-- **One more turn**, by a call that cleans up only its own. -/
theorem Kept.step {s : Shared ι} (h : Kept token s) {i : ι} {fault : Fault}
    (hclean : CleansOwn token s i fault) :
    Kept token (s.step sizeLimit token stream (i, fault)).1 := by
  have hturned : Turned token s i fault (s.step sizeLimit token stream (i, fault)).1 :=
    step_turned s i fault
  have hrespects : Respects sizeLimit token stream s i fault := h.respects hclean
  refine ⟨fun j => ?_, hturned.made (h.holding i) h.made⟩
  by_cases hj : j = i
  · subst hj
    exact hturned.holding (h.holding j)
  · obtain ⟨hcalls, hopened⟩ := hturned.others hj
    rw [hcalls]
    refine (h.holding j).of_owns hopened ?_
    rintro n ⟨hn, hmaker⟩
    have hother : s.maker n ≠ some i := by
      rw [hmaker]
      exact fun heq => hj (Option.some.inj heq)
    obtain ⟨hdir, hmaker'⟩ := hrespects n hn hother
    exact ⟨hdir ▸ hn, hmaker'.trans hmaker⟩

/-- The cleanup removes what the temporary name stands for. -/
theorem step_failing {s : Shared ι} {i : ι} {e : TransferError} (hstage : s.calls i = .failing e) :
    (s.step sizeLimit token stream (i, none)).1.dir (tmpName (token i)) = none := by
  unfold step turn
  simp only [hstage]
  exact Function.update_self ..

/-- **Exactly when nobody trespasses.**  Let any number of calls, with any tokens, receive into one
    directory with anything in it, taking turns in any order and meeting any faults.  No turn
    removes, overwrites or renames an entry that its call did not create, if and only if every
    call that cleans up without having created its temporary file finds nothing under that name. -/
theorem trespass_exactly (sizeLimit : UInt64) (token : ι → UInt64)
    (stream : ι → Nat → Except TransferError Message) (base : Dir) (turns : List (ι × Fault)) :
    Mealy.EveryStep (step sizeLimit token stream) (start base) turns
        (fun _ s t => Respects sizeLimit token stream s t.1 t.2) ↔
      Mealy.EveryStep (step sizeLimit token stream) (start base) turns
        fun _ s t => CleansOwn token s t.1 t.2 := by
  have hkept : ∀ {turns}, Mealy.EveryStep (step sizeLimit token stream) (start base) turns
      (fun _ s t => CleansOwn token s t.1 t.2) →
      Kept token (Mealy.run (step sizeLimit token stream) (start base) turns).1 :=
    fun h => h.final _ (P := fun _ s => Kept token s) (kept_start base)
      fun _ _ _ hs hclean => hs.step hclean
  constructor
  · intro h
    refine Mealy.everyStep_of_last _ fun js t hpre hjs => ?_
    obtain ⟨i, fault⟩ := t
    rintro e hstage hopened rfl
    by_contra htaken
    -- what is there is not the call's own, and the cleanup removes it
    have hmaker : (Mealy.run (step sizeLimit token stream) (start base) js).1.maker
        (tmpName (token i)) ≠ some i := by
      intro hmine
      exact absurd (((hkept hjs).made _ i hmine).symm.trans hopened) (by decide)
    have hsame := (h js (i, none) hpre _ htaken hmaker).1
    exact htaken (hsame.symm.trans (step_failing hstage))
  · intro h js t hpre
    have hjs := h.of_prefix _ ((List.prefix_append js [t]).trans hpre)
    exact (hkept hjs).respects (h js t hpre)

end Runs

/-- Two processes begin at once: the second finds the temporary name taken, and removes the file of
    the first. -/
theorem second_process_removes :
    ¬ ∀ (sizeLimit : UInt64) (stream : Bool × Nat → Nat → Except TransferError Message) (base : Dir)
      (turns : List ((Bool × Nat) × Fault)),
      Mealy.EveryStep (step sizeLimit (fun i => UInt64.ofNat i.2) stream) (start base) turns
        fun _ s t => Respects sizeLimit (fun i => UInt64.ofNat i.2) stream s t.1 t.2 := by
  intro hall
  have h := hall 10 (fun _ _ => .ok (offerMsg 7 "a" 1)) (fun _ => none)
    (List.replicate 3 ((true, 0), none) ++ List.replicate 4 ((false, 0), none))
    (List.replicate 3 ((true, 0), none) ++ List.replicate 3 ((false, 0), none)) ((false, 0), none)
    (List.prefix_refl _) ".incoming-0.part"
  revert h
  decide

end Shared

end SelfKvm
