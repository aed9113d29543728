/-
  One receive, stopped anywhere.

  `run` takes a call of `recv_file_to_dir` through its turns; the list of faults says how each
  operation ends, and where it stops is where the receive stops.  `Scene` is what the directory
  looks like at each stage, the start being `base`: as it was, with the temporary file, with that
  and an empty placeholder under the reserved name, or with the published file.  A stage of
  failure remembers what led to it.

  The placeholder is what a stop can leave behind.  `receive_atomic` says when it does
  (`Interrupted`), and when the cleanup removes a temporary file of somebody else (`Evicted`).  A
  cleanup that fails itself leaves the temporary file, which is under no real name.
-/
import SelfKvm.Daemon.Publish

namespace SelfKvm

open Function (update)

namespace Receive

section Runs

variable (sizeLimit : UInt64) (token : UInt64) (stream : Nat → Except TransferError Message)

/-- One turn of the call, alone in its directory. -/
def step (s : Dir × Stage) (fault : Fault) : (Dir × Stage) × List Message :=
  let (dir, stage, replies) := turn sizeLimit token stream s.1 s.2 fault
  ((dir, stage), replies)

/-- The directory and the stage after these turns. -/
def after (base : Dir) (faults : List Fault) : Dir × Stage :=
  (Mealy.run (step sizeLimit token stream) (base, .opening) faults).1

theorem after_concat (base : Dir) (faults : List Fault) (fault : Fault) :
    after sizeLimit token stream base (faults ++ [fault]) =
      (step sizeLimit token stream (after sizeLimit token stream base faults) fault).1 := by
  unfold after
  rw [Mealy.run_concat]

/-- What the directory must look like at any moment: under a real name there is what was there
    before, or a whole file; and when the call has failed, the same names as before, but for a
    temporary file of its own. -/
structure Atomic (base dir : Dir) (stage : Stage) : Prop where
  complete : ∀ n c, dir n = some c → (∀ t, n ≠ tmpName t) →
    base n = some c ∨ Accepted sizeLimit stream c
  undone : ∀ e, stage = .failed e → ∀ n, (n = tmpName token ∧ base n = none) ∨
    (dir n ≠ none ↔ base n ≠ none)

/-- The receive stops between reserving a name and renaming onto it, or this renaming fails.  An
    empty file is whole already as a placeholder, so that it only matters once the error is
    returned. -/
def Interrupted (base : Dir) (faults : List Fault) : Prop :=
  ∃ js b name rest, faults = js ++ rest ∧
    (after sizeLimit token stream base js).2 = .moving b name ∧
      ((rest = [] ∧ b.written ≠ []) ∨
        ∃ failure more, rest = some failure :: more ∧ (b.written ≠ [] ∨ more ≠ []))

/-- The temporary name was taken at the start, and the call has cleaned up after finding it so: the
    turn after that one has removed what was there. -/
def Evicted (base : Dir) (faults : List Fault) : Prop :=
  base (tmpName token) ≠ none ∧ ∃ js re fault rest, faults = js ++ fault :: none :: rest ∧
    (after sizeLimit token stream base js).2 = .creating re

end Runs

section Scenes

variable {sizeLimit : UInt64} {token : UInt64} {stream : Nat → Except TransferError Message}

/-! ## What was received is one file -/

theorem recvBody_settled {re : FileReassembler} {n m : Nat} (hle : n ≤ m)
    (h : (recvBody re stream n).result ≠ none) : recvBody re stream m = recvBody re stream n := by
  induction hle with
  | refl => rfl
  | step _ ih =>
    show (recvBody re stream _).step _ = _
    rw [ih]
    exact Body.step_returned h _

/-- **A stream completes one file only.** -/
theorem accepted_unique {b : Body} {bytes : List UInt8} (h : Complete sizeLimit stream b)
    (ha : Accepted sizeLimit stream bytes) : bytes = b.written := by
  obtain ⟨n, ⟨re, hoffer, rfl⟩, hn⟩ := h
  obtain ⟨_, m, ⟨re', hoffer', rfl⟩, hm, rfl⟩ := ha
  have hre : re' = re := by
    have heq := hoffer'.symm.trans hoffer
    injection heq
  subst hre
  rcases Nat.le_total n m with hle | hle
  · rw [recvBody_settled hle (hn ▸ Option.some_ne_none _)]
  · rw [recvBody_settled hle (hm ▸ Option.some_ne_none _)]

theorem accepted_of_complete {b : Body} (h : Complete sizeLimit stream b) :
    Accepted sizeLimit stream b.written := by
  obtain ⟨n, hn, hresult⟩ := h
  exact ⟨b, n, hn, hresult, rfl⟩

/-! ## The scenes -/

/-- The directory with the temporary file, holding `c`. -/
def withTmp (token : UInt64) (base : Dir) (c : List UInt8) : Dir :=
  update base (tmpName token) (some c)

/-- The directory with that and an empty placeholder. -/
def withPlaceholder (token : UInt64) (base : Dir) (c : List UInt8) (name : String) : Dir :=
  update (withTmp token base c) name (some [])

/-- A name that can be reserved: safe, and free at the start. -/
structure Reservable (base : Dir) (name : String) : Prop where
  safe : SafeName name
  free : base name = none

/-- What the directory looks like at each stage, after these turns. -/
def Scene (sizeLimit : UInt64) (token : UInt64) (stream : Nat → Except TransferError Message)
    (base : Dir) (faults : List Fault) (dir : Dir) : Stage → Prop
  | .opening => dir = base
  | .making re => Offered sizeLimit stream re ∧ dir = base
  | .creating re => Offered sizeLimit stream re ∧ dir = base
  | .receiving b n =>
    base (tmpName token) = none ∧ Reached sizeLimit stream b n ∧ dir = withTmp token base b.written
  | .reserving b =>
    base (tmpName token) = none ∧ Complete sizeLimit stream b ∧ dir = withTmp token base b.written
  | .reservingAlt b =>
    base (tmpName token) = none ∧ Complete sizeLimit stream b ∧ dir = withTmp token base b.written
  | .moving b name =>
    base (tmpName token) = none ∧ Complete sizeLimit stream b ∧ Reservable base name ∧
      dir = withPlaceholder token base b.written name
  | .published b name =>
    base (tmpName token) = none ∧ Complete sizeLimit stream b ∧ Reservable base name ∧
      dir = update base name (some b.written)
  | .failing _ =>
    -- nothing was created
    (dir = base ∧ ∃ js re fault, faults = js ++ [fault] ∧
      (after sizeLimit token stream base js).2 = .creating re) ∨
    -- a temporary file was
    (base (tmpName token) = none ∧ ∃ c, dir = withTmp token base c) ∨
    -- the renaming failed
    (base (tmpName token) = none ∧ ∃ js b name failure, faults = js ++ [some failure] ∧
      (after sizeLimit token stream base js).2 = .moving b name ∧ Complete sizeLimit stream b ∧
      Reservable base name ∧ dir = withPlaceholder token base b.written name)
  | .failed _ =>
    dir = base ∨
    (dir = update base (tmpName token) none ∧ Evicted sizeLimit token stream base faults) ∨
    -- the temporary file could not be removed
    (base (tmpName token) = none ∧ ∃ c, dir = withTmp token base c) ∨
    -- the renaming failed
    ∃ js b name failure fault rest, faults = js ++ some failure :: fault :: rest ∧
      (after sizeLimit token stream base js).2 = .moving b name ∧
      dir = (withPlaceholder token base b.written name).removeFile (tmpName token) fault

variable {base : Dir} {faults : List Fault} {dir : Dir}

/-- Removing the temporary file brings back a directory that had none. -/
theorem removeFile_withTmp (hfree : base (tmpName token) = none) (c : List UInt8) :
    (withTmp token base c).removeFile (tmpName token) none = base := by
  show update (withTmp token base c) (tmpName token) none = base
  unfold withTmp
  rw [Function.update_idem, ← hfree, Function.update_eq_self]

/-- Removing it, or failing to, leaves a placeholder alone. -/
theorem removeFile_placeholder {name : String} (hname : SafeName name) (c : List UInt8)
    (fault : Fault) :
    (withPlaceholder token base c name).removeFile (tmpName token) fault name = some [] := by
  have hself : withPlaceholder token base c name name = some [] := Function.update_self ..
  cases fault with
  | some failure => exact hself
  | none => exact (Function.update_of_ne (hname.ne_tmpName token) ..).trans hself

/-- A file that is written goes on in the temporary file. -/
theorem append_withTmp (c more : List UInt8) :
    (withTmp token base c).append (tmpName token) more = withTmp token base (c ++ more) := by
  unfold Dir.append withTmp
  rw [Function.update_self, Function.update_idem]
  rfl

/-- Beside the placeholder the temporary file is still there. -/
theorem placeholder_tmp {name : String} (hname : SafeName name) {c : List UInt8} :
    withPlaceholder token base c name (tmpName token) = some c := by
  unfold withPlaceholder withTmp
  rw [Function.update_of_ne (hname.ne_tmpName token).symm, Function.update_self]

/-- The renaming: the file appears under its name, and nothing else is left. -/
theorem move_placeholder (hfree : base (tmpName token) = none) {name : String}
    (hname : SafeName name) (c : List UInt8) :
    update (update (withPlaceholder token base c name) name (some c)) (tmpName token) none =
      update base name (some c) := by
  have hne : name ≠ tmpName token := hname.ne_tmpName token
  unfold withPlaceholder withTmp
  rw [Function.update_idem, Function.update_comm hne, Function.update_idem, ← hfree,
    Function.update_eq_self]

/-- What reserving finds: a name the start did not hold. -/
theorem reservable_of_free {name : String} (hname : SafeName name) {c : List UInt8}
    (hfree : withTmp token base c name = none) : Reservable base name := by
  refine ⟨hname, ?_⟩
  unfold withTmp at hfree
  rw [Function.update_of_ne (hname.ne_tmpName token)] at hfree
  exact hfree

/-! ## Every stage is as its scene says -/

theorem Evicted.concat (h : Evicted sizeLimit token stream base faults) (fault : Fault) :
    Evicted sizeLimit token stream base (faults ++ [fault]) := by
  obtain ⟨htaken, js, re, f, rest, rfl, hstage⟩ := h
  refine ⟨htaken, js, re, f, rest ++ [fault], ?_, hstage⟩
  rw [List.append_assoc, List.cons_append, List.cons_append]

/-- The scene of a call that tries a name. -/
theorem Scene.candidate {stage : Stage} {b : Body} {name : String}
    (h : Scene sizeLimit token stream base faults dir stage) (hc : Candidate token stage b name) :
    base (tmpName token) = none ∧ Complete sizeLimit stream b ∧
      dir = withTmp token base b.written := by
  cases hc with
  | preferred => exact h
  | fallback => exact h

/-- The cleanup: what led to the failure, and whether the removal goes through, decide what is
    left. -/
theorem scene_failing {e : TransferError}
    (h : Scene sizeLimit token stream base faults dir (.failing e)) (fault : Fault) :
    Scene sizeLimit token stream base (faults ++ [fault]) (dir.removeFile (tmpName token) fault)
      (.failed e) := by
  rcases h with ⟨rfl, js, re, f, rfl, hstage⟩ | ⟨hfree, c, rfl⟩ |
    ⟨-, js, b, name, f, rfl, hstage, -, -, rfl⟩
  · cases fault with
    | some failure => exact .inl rfl
    | none =>
      cases htmp : dir (tmpName token) with
      | none =>
        left
        show update dir (tmpName token) none = dir
        rw [← htmp, Function.update_eq_self]
      | some c =>
        refine .inr (.inl ⟨rfl, htmp ▸ Option.some_ne_none c, js, re, f, [], ?_, hstage⟩)
        rw [List.append_assoc, List.singleton_append]
  · cases fault with
    | some failure => exact .inr (.inr (.inl ⟨hfree, c, rfl⟩))
    | none => exact .inl (removeFile_withTmp hfree c)
  · refine .inr (.inr (.inr ⟨js, b, name, f, fault, [], ?_, hstage, rfl⟩))
    rw [List.append_assoc, List.singleton_append]

/-- A renaming that did not happen failed: its source is there. -/
theorem scene_unmoved {b : Body} {name : String} {fault : Fault} (e : TransferError)
    (hstage : (after sizeLimit token stream base faults).2 = .moving b name)
    (h : Scene sizeLimit token stream base faults dir (.moving b name))
    (hwhy : fault ≠ none ∨ dir (tmpName token) = none) :
    Scene sizeLimit token stream base (faults ++ [fault]) dir (.failing e) := by
  obtain ⟨hfree, hb, hname, rfl⟩ := h
  rcases hwhy with hfault | hnone
  · obtain ⟨failure, rfl⟩ := Option.ne_none_iff_exists'.mp hfault
    exact .inr (.inr ⟨hfree, faults, b, name, failure, rfl, hstage, hb, hname, rfl⟩)
  · rw [placeholder_tmp hname.safe] at hnone
    cases hnone

/-- **One turn keeps the scene.** -/
theorem scene_step {stage : Stage} (hnow : after sizeLimit token stream base faults = (dir, stage))
    (h : Scene sizeLimit token stream base faults dir stage) (fault : Fault) :
    Scene sizeLimit token stream base (faults ++ [fault])
      (turn sizeLimit token stream dir stage fault).1
      (turn sizeLimit token stream dir stage fault).2.1 := by
  have hstage : (after sizeLimit token stream base faults).2 = stage := by
    rw [hnow]
  have hout := turn_outcome sizeLimit token stream dir stage fault
  generalize turn sizeLimit token stream dir stage fault = r at hout ⊢
  obtain ⟨dir', stage', replies⟩ := r
  cases hout with
  | refused e hwhy => exact .inl h
  | accepted hoffer => exact ⟨hoffer, h⟩
  | unmade re e hfault => exact .inl h.2
  | made re => exact h
  | uncreated re e hwhy => exact .inl ⟨h.2, faults, re, fault, rfl, hstage⟩
  | created re hfree =>
    obtain ⟨hoffer, rfl⟩ := h
    exact ⟨hfree, ⟨re, hoffer, rfl⟩, rfl⟩
  | unreceived b n e hwhy => exact .inr (.inl ⟨h.1, _, h.2.2⟩)
  | received hresult =>
    obtain ⟨hfree, hb, rfl⟩ := h
    obtain ⟨hcomplete, hwritten⟩ := hb.complete hresult
    refine ⟨hfree, hcomplete, ?_⟩
    rw [hwritten]
  | unwritten b n bytes e hfault =>
    obtain ⟨hfree, -, rfl⟩ := h
    exact .inr (.inl ⟨hfree, _, append_withTmp _ _⟩)
  | written hresult =>
    obtain ⟨hfree, hb, rfl⟩ := h
    refine ⟨hfree, hb.next, ?_⟩
    show Dir.append _ _ _ = _
    rw [append_withTmp, Body.step_written]
  | unreserved hc e hfault =>
    obtain ⟨hfree, -, rfl⟩ := h.candidate hc
    exact .inr (.inl ⟨hfree, _, rfl⟩)
  | taken b hwhy => exact h
  | exhausted b htaken => exact .inr (.inl ⟨h.1, _, h.2.2⟩)
  | reserved hc hname =>
    obtain ⟨hfree, hb, rfl⟩ := h.candidate hc
    exact ⟨hfree, hb, reservable_of_free (hc.safe hb) hname, rfl⟩
  | unmoved b name e hwhy => exact scene_unmoved e hstage h hwhy
  | moved b name hsrc =>
    obtain ⟨hfree, hb, hname, rfl⟩ := h
    rw [placeholder_tmp hname.safe] at hsrc
    obtain rfl := Option.some.inj hsrc
    exact ⟨hfree, hb, hname, move_placeholder hfree hname.safe b.written⟩
  | removed e hfault =>
    subst hfault
    exact scene_failing h none
  | unremoved e hfault =>
    obtain ⟨failure, rfl⟩ := Option.ne_none_iff_exists'.mp hfault
    exact scene_failing h (some failure)
  | published b name => exact h
  | failed e =>
    rcases h with h | ⟨h, hevicted⟩ | h | ⟨js, b, name, f, f', rest, rfl, hmoving, h⟩
    · exact .inl h
    · exact .inr (.inl ⟨h, hevicted.concat fault⟩)
    · exact .inr (.inr (.inl h))
    · refine .inr (.inr (.inr ⟨js, b, name, f, f', rest ++ [fault], ?_, hmoving, h⟩))
      rw [List.append_assoc, List.cons_append, List.cons_append]

/-- After any turns and any faults. -/
theorem scene (sizeLimit : UInt64) (token : UInt64) (stream : Nat → Except TransferError Message)
    (base : Dir) (faults : List Fault) :
    Scene sizeLimit token stream base faults (after sizeLimit token stream base faults).1
      (after sizeLimit token stream base faults).2 := by
  induction faults using List.reverseRecOn with
  | nil => exact rfl
  | append_singleton faults fault ih =>
    rw [after_concat]
    exact scene_step rfl ih fault

/-! ## What a stop leaves behind -/

theorem after_append (base : Dir) (js ks : List Fault) :
    after sizeLimit token stream base (js ++ ks) =
      (Mealy.run (step sizeLimit token stream) (after sizeLimit token stream base js) ks).1 := by
  unfold after
  rw [Mealy.run_append]

/-- A call that has failed does nothing more. -/
theorem run_failed (dir : Dir) (e : TransferError) (faults : List Fault) :
    (Mealy.run (step sizeLimit token stream) (dir, .failed e) faults).1 = (dir, .failed e) := by
  induction faults with
  | nil => rfl
  | cons fault faults ih => exact ih

/-- **A failure is returned after the cleanup**, and nothing happens after that. -/
theorem run_failing (dir : Dir) (e : TransferError) (fault : Fault) (faults : List Fault) :
    (Mealy.run (step sizeLimit token stream) (dir, .failing e) (fault :: faults)).1 =
      (dir.removeFile (tmpName token) fault, .failed e) := by
  rw [Mealy.run_cons]
  exact run_failed _ _ faults

/-- A placeholder that is not the whole file breaks the promise. -/
theorem not_atomic_of_placeholder {b : Body} {name : String} {stage : Stage}
    (hb : Complete sizeLimit stream b) (hname : Reservable base name) (hwritten : b.written ≠ []) :
    ¬ Atomic sizeLimit token stream base (withPlaceholder token base b.written name) stage := by
  intro h
  rcases h.complete name [] (Function.update_self ..) fun t => hname.safe.ne_tmpName t with
    hbase | haccepted
  · rw [hname.free] at hbase
    cases hbase
  · exact hwritten (accepted_unique hb haccepted).symm

theorem not_atomic_of_interrupted (h : Interrupted sizeLimit token stream base faults) :
    ¬ Atomic sizeLimit token stream base (after sizeLimit token stream base faults).1
      (after sizeLimit token stream base faults).2 := by
  obtain ⟨js, b, name, rest, rfl, hstage, hcase⟩ := h
  have hscene := scene sizeLimit token stream base js
  rw [hstage] at hscene
  obtain ⟨-, hb, hname, hdir⟩ := hscene
  have hnow : after sizeLimit token stream base js =
      (withPlaceholder token base b.written name, .moving b name) :=
    Prod.ext hdir hstage
  rw [after_append, hnow]
  rcases hcase with ⟨rfl, hwritten⟩ | ⟨⟨k, e⟩, more, rfl, hmore⟩
  · exact not_atomic_of_placeholder hb hname hwritten
  · rw [Mealy.run_cons]
    show ¬ Atomic _ _ _ _ (Mealy.run (step sizeLimit token stream)
      (withPlaceholder token base b.written name, Stage.failing (.io e)) more).1.1
      (Mealy.run (step sizeLimit token stream)
        (withPlaceholder token base b.written name, Stage.failing (.io e)) more).1.2
    cases more with
    | nil =>
      rcases hmore with hwritten | hmore
      · exact not_atomic_of_placeholder hb hname hwritten
      · exact absurd rfl hmore
    | cons fault more =>
      rw [run_failing]
      intro h
      rcases h.undone _ rfl name with ⟨htmp, -⟩ | hsame
      · exact hname.safe.ne_tmpName token htmp
      · refine hsame.mp ?_ hname.free
        show (withPlaceholder token base b.written name).removeFile _ fault name ≠ none
        rw [removeFile_placeholder hname.safe]
        exact Option.some_ne_none _

theorem not_atomic_of_evicted (h : Evicted sizeLimit token stream base faults) :
    ¬ Atomic sizeLimit token stream base (after sizeLimit token stream base faults).1
      (after sizeLimit token stream base faults).2 := by
  obtain ⟨htaken, js, re, fault, rest, rfl, hstage⟩ := h
  have hscene := scene sizeLimit token stream base js
  rw [hstage] at hscene
  have hnow : after sizeLimit token stream base js = (base, .creating re) :=
    Prod.ext hscene.2 hstage
  -- whatever the operation meets, the temporary file is not created
  obtain ⟨e, he⟩ : ∃ e, base.createNew (tmpName token) fault = .error e := by
    cases hc : base.createNew (tmpName token) fault with
    | error e => exact ⟨e, rfl⟩
    | ok dir' => exact absurd (createNew_eq_ok hc).1 htaken
  have hstep : (step sizeLimit token stream (base, .creating re) fault).1 =
      (base, .failing (.io e)) := by
    unfold step turn
    simp only [he]
  rw [after_append, hnow, Mealy.run_cons, hstep]
  simp only
  rw [run_failing]
  intro h
  rcases h.undone _ rfl (tmpName token) with ⟨-, hnone⟩ | hsame
  · exact htaken hnone
  · have hgone : base.removeFile (tmpName token) none (tmpName token) = none :=
      Function.update_self ..
    exact hsame.mpr htaken hgone

/-- A directory that differs from the start in a temporary file of the call's own only. -/
theorem atomic_of_withTmp (hfree : base (tmpName token) = none) {c : List UInt8} {stage : Stage} :
    Atomic sizeLimit token stream base (withTmp token base c) stage := by
  constructor
  · intro n c' hn htmp
    left
    unfold withTmp at hn
    rw [← hn, Function.update_of_ne (htmp token)]
  · intro e _ n
    by_cases hn : n = tmpName token
    · exact .inl ⟨hn, hn ▸ hfree⟩
    · right
      unfold withTmp
      rw [Function.update_of_ne hn]

theorem atomic_base {stage : Stage} : Atomic sizeLimit token stream base base stage :=
  ⟨fun _ _ hn _ => .inl hn, fun _ _ _ => .inr Iff.rfl⟩

/-- A directory with one file more, a whole one. -/
theorem atomic_of_file {b : Body} {name : String} {dir : Dir} {stage : Stage}
    (hb : Complete sizeLimit stream b) (hstage : ∀ e, stage ≠ .failed e)
    (hdir : ∀ n c, dir n = some c → (∀ t, n ≠ tmpName t) → n ≠ name → base n = some c)
    (hname : dir name = some b.written) : Atomic sizeLimit token stream base dir stage := by
  refine ⟨?_, fun e he => absurd he (hstage e)⟩
  intro n c hn htmp
  by_cases heq : n = name
  · subst heq
    right
    rw [hn] at hname
    injection hname with hname
    rw [hname]
    exact accepted_of_complete hb
  · exact .inl (hdir n c hn htmp heq)

/-- An empty file's placeholder is the whole file. -/
theorem atomic_of_empty {b : Body} {name : String} {stage : Stage}
    (hb : Complete sizeLimit stream b) (hstage : ∀ e, stage ≠ .failed e) (hwritten : b.written = []) :
    Atomic sizeLimit token stream base (withPlaceholder token base b.written name) stage := by
  have hname : withPlaceholder token base b.written name name = some b.written := by
    rw [hwritten]
    exact Function.update_self ..
  refine atomic_of_file hb hstage ?_ hname
  intro n c hn htmp hname
  unfold withPlaceholder withTmp at hn
  rw [← hn, Function.update_of_ne hname, Function.update_of_ne (htmp token)]

/-- **Exactly when a receive is atomic.**  Whatever the directory held, whatever the peer sends, and
    wherever the receive stops or fails: under real names there are only whole files and what was
    there before, and an error leaves no trace but a temporary file it could not remove — if and
    only if the receive neither stops between reserving a name and renaming onto it, nor fails in
    that renaming, nor cleans up after finding its temporary name taken. -/
theorem receive_atomic (sizeLimit : UInt64) (token : UInt64)
    (stream : Nat → Except TransferError Message) (base : Dir) (faults : List Fault) :
    Atomic sizeLimit token stream base (after sizeLimit token stream base faults).1
        (after sizeLimit token stream base faults).2 ↔
      ¬ Interrupted sizeLimit token stream base faults ∧
        ¬ Evicted sizeLimit token stream base faults := by
  constructor
  · intro h
    exact ⟨fun hi => not_atomic_of_interrupted hi h, fun he => not_atomic_of_evicted he h⟩
  · rintro ⟨hinterrupted, hevicted⟩
    have hscene := scene sizeLimit token stream base faults
    cases hs : after sizeLimit token stream base faults with
    | mk dir stage =>
      rw [hs] at hscene
      simp only at hscene
      cases stage with
      | opening =>
        rw [show dir = base from hscene]
        exact atomic_base
      | making re =>
        rw [hscene.2]
        exact atomic_base
      | creating re =>
        rw [hscene.2]
        exact atomic_base
      | receiving b n =>
        rw [hscene.2.2]
        exact atomic_of_withTmp hscene.1
      | reserving b =>
        rw [hscene.2.2]
        exact atomic_of_withTmp hscene.1
      | reservingAlt b =>
        rw [hscene.2.2]
        exact atomic_of_withTmp hscene.1
      | moving b name =>
        obtain ⟨-, hb, hname, rfl⟩ := hscene
        refine atomic_of_empty hb (fun e he => by cases he) ?_
        by_contra hwritten
        refine hinterrupted ⟨faults, b, name, [], (List.append_nil _).symm, ?_, .inl ⟨rfl, hwritten⟩⟩
        rw [hs]
      | published b name =>
        obtain ⟨-, hb, hname, rfl⟩ := hscene
        refine atomic_of_file hb (fun e he => by cases he) ?_ (Function.update_self ..)
        intro n c hn _ hne
        rw [← hn]
        exact (Function.update_of_ne hne ..).symm
      | failing e =>
        rcases hscene with ⟨rfl, -⟩ | ⟨hfree, c, rfl⟩ |
          ⟨-, js, b, name, f, rfl, hstage, hb, hname, rfl⟩
        · exact atomic_base
        · exact atomic_of_withTmp hfree
        · refine atomic_of_empty hb (fun e he => by cases he) ?_
          by_contra hwritten
          exact hinterrupted ⟨js, b, name, _, rfl, hstage, .inr ⟨f, [], rfl, .inl hwritten⟩⟩
      | failed e =>
        rcases hscene with rfl | ⟨-, he⟩ | ⟨hfree, c, rfl⟩ |
          ⟨js, b, name, f, f', rest, rfl, hstage, -⟩
        · exact atomic_base
        · exact absurd he hevicted
        · exact atomic_of_withTmp hfree
        · exact absurd ⟨js, b, name, _, rfl, hstage,
            .inr ⟨f, f' :: rest, rfl, .inr (List.cons_ne_nil _ _)⟩⟩ hinterrupted

end Scenes

/-- A stop right after the name is reserved: an empty file stands under the real name. -/
theorem placeholder_survives :
    ¬ ∀ (sizeLimit : UInt64) (token : UInt64) (stream : Nat → Except TransferError Message)
      (base : Dir) (faults : List Fault),
      Atomic sizeLimit token stream base (after sizeLimit token stream base faults).1
        (after sizeLimit token stream base faults).2 := by
  intro hall
  refine not_atomic_of_interrupted ⟨List.replicate 6 none, ⟨⟨7, "a", 1, 1, 1⟩, [5], some (.ok ())⟩,
    "a", [], rfl, ?_, .inl ⟨rfl, by decide⟩⟩ (hall 10 0 (fun n =>
      if n = 0 then .ok (offerMsg 7 "a" 1)
      else if n = 1 then .ok (chunkMsg 7 0 [5])
      else .ok (endMsg 7 1)) (fun _ => none) (List.replicate 6 none))
  decide

end Receive

end SelfKvm
