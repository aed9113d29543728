/-
  Concurrent receives.

  Any number of transfers share one directory, and their names clash on purpose: peers choose the
  preferred names, and may choose another transfer's fallback name.  What keeps the transfers apart
  is who owns what (`SelfKvm.Base.Ownership`): `Sound` says what a transfer owns at each stage, and
  `Sound.turn` that a turn touches nothing else.  A temporary name is its transfer's because the
  tokens differ and no published name starts with a dot.
-/
import SelfKvm.Base.Ownership
import SelfKvm.Daemon.Publish

namespace SelfKvm

open Ownership

/-! ## What a transfer owns -/

section Sound

variable {clean : Prop} {sizeLimit : UInt64} {token : UInt64}
  {stream : Nat → Except TransferError Message}

/-- What a transfer owns at each stage: nothing, its temporary file, that and a placeholder, or its
    published file.  While it fails it may have a temporary file with anything in it; and afterwards,
    unless no cleanup fails (`clean`). -/
def Sound (clean : Prop) (sizeLimit : UInt64) (token : UInt64)
    (stream : Nat → Except TransferError Message) (mine : Dir) : Stage → Prop
  | .opening => mine = fun _ => none
  | .making re => Offered sizeLimit stream re ∧ mine = fun _ => none
  | .creating re => Offered sizeLimit stream re ∧ mine = fun _ => none
  | .receiving b n => Reached sizeLimit stream b n ∧ mine = only (tmpName token) b.written
  | .reserving b => Complete sizeLimit stream b ∧ mine = only (tmpName token) b.written
  | .reservingAlt b => Complete sizeLimit stream b ∧ mine = only (tmpName token) b.written
  | .moving b name =>
    Complete sizeLimit stream b ∧ SafeName name ∧
      mine = Function.update (only (tmpName token) b.written) name (some [])
  | .failing _ => (mine = fun _ => none) ∨ ∃ c, mine = only (tmpName token) c
  | .published b name =>
    Complete sizeLimit stream b ∧ SafeName name ∧ mine = only name b.written
  | .failed _ => (mine = fun _ => none) ∨ ¬ clean ∧ ∃ c, mine = only (tmpName token) c

/-- Every name a transfer owns is its temporary one or a safe one. -/
theorem Sound.names {mine : Dir} {stage : Stage} (h : Sound clean sizeLimit token stream mine stage)
    {n : String} (hn : mine n ≠ none) : n = tmpName token ∨ SafeName n := by
  have honly : ∀ {m : String} {c : List UInt8}, mine = only m c → n = m := by
    rintro m c rfl
    obtain ⟨c', hc'⟩ := Option.ne_none_iff_exists'.mp hn
    exact (eq_of_only hc').1
  have hnothing : ∀ {P : Prop}, (mine = fun _ => none) → P := by
    rintro P rfl
    exact absurd rfl hn
  cases stage with
  | opening => exact hnothing h
  | making re => exact hnothing h.2
  | creating re => exact hnothing h.2
  | receiving b n' => exact .inl (honly h.2)
  | reserving b => exact .inl (honly h.2)
  | reservingAlt b => exact .inl (honly h.2)
  | moving b name =>
    obtain ⟨-, hsafe, rfl⟩ := h
    by_cases hname : n = name
    · right
      rw [hname]
      exact hsafe
    · rw [Function.update_of_ne hname] at hn
      obtain ⟨c', hc'⟩ := Option.ne_none_iff_exists'.mp hn
      exact .inl (eq_of_only hc').1
  | failing e =>
    rcases h with h | ⟨c, h⟩
    · exact hnothing h
    · exact .inl (honly h)
  | published b name =>
    right
    rw [honly h.2.2]
    exact h.2.1
  | failed e =>
    rcases h with h | ⟨-, c, h⟩
    · exact hnothing h
    · exact .inl (honly h)

/-- What one turn of a call keeps, whatever the others own. -/
def Keeps {ι : Type} [DecidableEq ι] (clean : Prop) (sizeLimit : UInt64) (token : UInt64)
    (stream : Nat → Except TransferError Message) (base : Dir) (own : ι → Dir) (i : ι)
    (r : Dir × Stage × List Message) : Prop :=
  ∃ mine, Split base (Function.update own i mine) r.1 ∧ Sound clean sizeLimit token stream mine r.2.1

variable {ι : Type} [DecidableEq ι] {base dir : Dir} {own : ι → Dir} {i : ι}

/-- A turn that leaves the directory alone. -/
theorem keeps_still (h : Split base own dir) {stage : Stage} {replies : List Message}
    (hs : Sound clean sizeLimit token stream (own i) stage) :
    Keeps clean sizeLimit token stream base own i (dir, stage, replies) := by
  refine ⟨own i, ?_, hs⟩
  rw [Function.update_eq_self]
  exact h

/-- A call that tries a name has the whole file in its temporary one. -/
theorem Sound.candidate {mine : Dir} {stage : Stage} {b : Body} {name : String}
    (h : Sound clean sizeLimit token stream mine stage) (hc : Candidate token stage b name) :
    Complete sizeLimit stream b ∧ mine = only (tmpName token) b.written := by
  cases hc with
  | preferred => exact h
  | fallback => exact h

/-- Reserving a safe name, with the whole file in the temporary one. -/
theorem keeps_reserve (h : Split base own dir) {b : Body} {name : String}
    {replies : List Message} (hb : Complete sizeLimit stream b) (hname : SafeName name)
    (hown : own i = only (tmpName token) b.written) (hfree : dir name = none) :
    Keeps clean sizeLimit token stream base own i
      (Function.update dir name (some []), .moving b name, replies) := by
  refine ⟨_, h.set i name (.inl hfree) _, hb, hname, ?_⟩
  rw [hown]

/-- What is appended goes into the call's own temporary file. -/
theorem keeps_append (h : Split base own dir) {c bytes : List UInt8} {stage : Stage}
    {replies : List Message} (hown : own i = only (tmpName token) c)
    (htmp : dir (tmpName token) = none ∨ own i (tmpName token) ≠ none)
    (hs : Sound clean sizeLimit token stream (only (tmpName token) (c ++ bytes)) stage) :
    Keeps clean sizeLimit token stream base own i (dir.append (tmpName token) bytes, stage, replies) := by
  refine ⟨_, ?_, hs⟩
  have hheld := h.held i (tmpName token) c (by rw [hown, only_self])
  have hset := h.set i (tmpName token) htmp (some (c ++ bytes))
  rw [hown, only_update] at hset
  unfold Dir.append
  rw [hheld]
  exact hset

omit [DecidableEq ι] in
/-- While a call moves its file, the file is under its temporary name. -/
theorem tmp_of_moving (h : Split base own dir) {b : Body} {name : String} (hname : SafeName name)
    (hown : own i = Function.update (only (tmpName token) b.written) name (some [])) :
    dir (tmpName token) = some b.written := by
  apply h.held i
  rw [hown, Function.update_of_ne (hname.ne_tmpName token).symm, only_self]

/-- The renaming: first the placeholder takes the content, then the temporary name goes. -/
theorem keeps_move (h : Split base own dir) {b : Body} {name : String} {replies : List Message}
    (hb : Complete sizeLimit stream b) (hname : SafeName name)
    (hown : own i = Function.update (only (tmpName token) b.written) name (some [])) :
    Keeps clean sizeLimit token stream base own i
      (Function.update (Function.update dir name (some b.written)) (tmpName token) none,
        .published b name, replies) := by
  have hne : name ≠ tmpName token := hname.ne_tmpName token
  have hplace : own i name ≠ none := by
    rw [hown, Function.update_self]
    exact Option.some_ne_none _
  have hfirst := h.set i name (.inr hplace) (some b.written)
  rw [hown, Function.update_idem] at hfirst
  have hstill : Function.update own i (Function.update (only (tmpName token) b.written) name
      (some b.written)) i (tmpName token) ≠ none := by
    rw [Function.update_self, Function.update_of_ne hne.symm, only_self]
    exact Option.some_ne_none _
  have hsecond := hfirst.set i (tmpName token) (.inr hstill) none
  rw [Function.update_idem, Function.update_self, only_rename hne] at hsecond
  exact ⟨_, hsecond, hb, hname, rfl⟩

/-- **One turn.**  A call whose temporary name is nobody else's touches only what it owns and what is
    free, provided its renaming does not fail. -/
theorem Sound.turn (h : Split base own dir) {stage : Stage} {fault : Fault}
    (hs : Sound clean sizeLimit token stream (own i) stage)
    (htmp : dir (tmpName token) = none ∨ own i (tmpName token) ≠ none)
    (hrename : ∀ b name, stage = .moving b name → fault = none)
    (hremove : clean → ∀ e, stage = .failing e → fault = none) :
    Keeps clean sizeLimit token stream base own i
      (SelfKvm.turn sizeLimit token stream dir stage fault) := by
  have hout := turn_outcome sizeLimit token stream dir stage fault
  generalize SelfKvm.turn sizeLimit token stream dir stage fault = r at hout ⊢
  obtain ⟨dir', stage', replies⟩ := r
  cases hout with
  | refused e hwhy => exact keeps_still h (.inl hs)
  | accepted hoffer => exact keeps_still h ⟨hoffer, hs⟩
  | unmade re e hfault => exact keeps_still h (.inl hs.2)
  | made re => exact keeps_still h hs
  | uncreated re e hwhy => exact keeps_still h (.inl hs.2)
  | created re hfree =>
    refine ⟨_, h.set i _ htmp _, ⟨re, hs.1, rfl⟩, ?_⟩
    rw [hs.2]
    rfl
  | unreceived b n e hwhy => exact keeps_still h (.inr ⟨_, hs.2⟩)
  | received hresult =>
    obtain ⟨hcomplete, hwritten⟩ := hs.1.complete hresult
    refine keeps_still h ⟨hcomplete, ?_⟩
    rw [hwritten]
    exact hs.2
  | unwritten b n bytes e hfault => exact keeps_append h hs.2 htmp (.inr ⟨_, rfl⟩)
  | written hresult =>
    refine keeps_append h hs.2 htmp ⟨hs.1.next, ?_⟩
    rw [Body.step_written]
  | unreserved hc e hfault => exact keeps_still h (.inr ⟨_, (hs.candidate hc).2⟩)
  | taken b hwhy => exact keeps_still h hs
  | exhausted b htaken => exact keeps_still h (.inr ⟨_, hs.2⟩)
  | reserved hc hfree =>
    obtain ⟨hb, hown⟩ := hs.candidate hc
    exact keeps_reserve h hb (hc.safe hb) hown hfree
  | unmoved b name e hwhy =>
    obtain ⟨-, hname, hown⟩ := hs
    have hsrc := tmp_of_moving h hname hown
    rcases hwhy with hfault | hnone
    · exact absurd (hrename b name rfl) hfault
    · rw [hsrc] at hnone
      cases hnone
  | moved b name hsrc =>
    obtain ⟨hb, hname, hown⟩ := hs
    rw [tmp_of_moving h hname hown] at hsrc
    obtain rfl := Option.some.inj hsrc
    exact keeps_move h hb hname hown
  | unremoved e hfault =>
    refine keeps_still h (hs.imp_right fun htmp => ⟨fun hclean => ?_, htmp⟩)
    exact hfault (hremove hclean e rfl)
  | removed e =>
    refine ⟨_, h.set i _ htmp none, .inl ?_⟩
    rcases hs with hown | ⟨c, hown⟩
    · rw [hown]
      exact Function.update_eq_self _ _
    · rw [hown, only_remove]
  | published b name => exact keeps_still h hs
  | failed e => exact keeps_still h hs

end Sound

/-! ## Whole runs -/

namespace Downloads

section Runs

variable {ι : Type} [DecidableEq ι] {clean : Prop} {sizeLimit : UInt64} {token : ι → UInt64}
  {stream : ι → Nat → Except TransferError Message} {base : Dir}

/-- The directory is what it was at the start and, beside it, what the transfers own. -/
def Owned (clean : Prop) (sizeLimit : UInt64) (token : ι → UInt64)
    (stream : ι → Nat → Except TransferError Message) (base : Dir) (d : Downloads ι) : Prop :=
  ∃ own : ι → Dir, Split base own d.dir ∧
    ∀ i, Sound clean sizeLimit (token i) (stream i) (own i) (d.calls i)

omit [DecidableEq ι] in
/-- A temporary name is its transfer's own, or free. -/
theorem tmpName_mine {own : ι → Dir} {d : Downloads ι} (htoken : Function.Injective token)
    (htmp : ∀ t, base (tmpName t) = none) (hsplit : Split base own d.dir)
    (hsound : ∀ i, Sound clean sizeLimit (token i) (stream i) (own i) (d.calls i)) (i : ι) :
    d.dir (tmpName (token i)) = none ∨ own i (tmpName (token i)) ≠ none := by
  cases hheld : d.dir (tmpName (token i)) with
  | none => exact .inl rfl
  | some c =>
    right
    rcases hsplit.covered _ c hheld with hbase | ⟨j, hj⟩
    · rw [htmp] at hbase
      cases hbase
    · have hown : own j (tmpName (token i)) ≠ none := hj ▸ Option.some_ne_none c
      -- whose temporary name is it?
      rcases (hsound j).names hown with hname | hsafe
      · rw [htoken (tmpName_injective hname)]
        rw [htoken (tmpName_injective hname)] at hown
        exact hown
      · exact absurd rfl (hsafe.ne_tmpName (token i))

/-- One more turn, whoever takes it. -/
theorem Owned.step {d : Downloads ι} (htoken : Function.Injective token)
    (htmp : ∀ t, base (tmpName t) = none) (h : Owned clean sizeLimit token stream base d) (i : ι)
    (fault : Fault) (hrename : ∀ b name, d.calls i = .moving b name → fault = none)
    (hremove : clean → ∀ e, d.calls i = .failing e → fault = none) :
    Owned clean sizeLimit token stream base (d.step sizeLimit token stream (i, fault)).1 := by
  obtain ⟨own, hsplit, hsound⟩ := h
  obtain ⟨mine, hsplit', hsound'⟩ := Sound.turn hsplit (hsound i)
    (tmpName_mine htoken htmp hsplit hsound i) hrename hremove
  refine ⟨Function.update own i mine, hsplit', ?_⟩
  intro j
  show Sound clean sizeLimit (token j) (stream j) (Function.update own i mine j)
    (Function.update d.calls i _ j)
  by_cases hj : j = i
  · subst hj
    rw [Function.update_self, Function.update_self]
    exact hsound'
  · rw [Function.update_of_ne hj, Function.update_of_ne hj]
    exact hsound j

/-- No renaming fails along the run. -/
def RenamesSucceed (sizeLimit : UInt64) (token : ι → UInt64)
    (stream : ι → Nat → Except TransferError Message) (base : Dir) (turns : List (ι × Fault)) :
    Prop :=
  Mealy.EveryStep (step sizeLimit token stream) (start base) turns fun _ d (i, fault) =>
    ∀ b name, d.calls i = .moving b name → fault = none

/-- No cleanup fails along the run: an error removes the temporary file. -/
def RemovesSucceed (sizeLimit : UInt64) (token : ι → UInt64)
    (stream : ι → Nat → Except TransferError Message) (base : Dir) (turns : List (ι × Fault)) :
    Prop :=
  Mealy.EveryStep (step sizeLimit token stream) (start base) turns fun _ d (i, fault) =>
    ∀ e, d.calls i = .failing e → fault = none

/-- After any turns in any order, the directory holds what it held and what the transfers own. -/
theorem run_owned (htoken : Function.Injective token) (htmp : ∀ t, base (tmpName t) = none)
    {turns : List (ι × Fault)} (hrename : RenamesSucceed sizeLimit token stream base turns)
    (hremove : clean → RemovesSucceed sizeLimit token stream base turns) :
    Owned clean sizeLimit token stream base
      (Mealy.run (step sizeLimit token stream) (start base) turns).1 := by
  induction turns using List.reverseRecOn with
  | nil => exact ⟨fun _ _ => none, Split.init base, fun _ => rfl⟩
  | append_singleton turns turn ih =>
    obtain ⟨hrenames, hrename⟩ := (Mealy.everyStep_concat _).mp hrename
    rw [Mealy.run_concat]
    refine (ih hrenames fun hclean => ?_).step htoken htmp turn.1 turn.2 hrename fun hclean => ?_
    · exact ((Mealy.everyStep_concat _).mp (hremove hclean)).1
    · exact ((Mealy.everyStep_concat _).mp (hremove hclean)).2

theorem returned_ok {stage : Stage} {n : String} (h : stage.returned = some (.ok n)) :
    ∃ b, stage = .published b n := by
  cases stage with
  | published b name =>
    injection h with h
    injection h with h
    exact ⟨b, by rw [h]⟩
  | failed e =>
    injection h with h
    cases h
  | _ => cases h

/-- **Concurrent receives never corrupt, clobber or mix files.**  Let any number of transfers with
    distinct tokens receive whatever their peers send into one directory, taking turns in any
    order and meeting any faults but a failed renaming, the directory holding no temporary files at
    the start.  When all that began have returned: every entry of the start is unchanged; the names
    returned are new, safe, and hold exactly the bytes their transfers accepted; no two transfers
    return the same name; and there is nothing else in the directory but temporary files of transfers
    that have failed, and not even these if every error has removed its own. -/
theorem concurrent_receives (sizeLimit : UInt64) (token : ι → UInt64)
    (stream : ι → Nat → Except TransferError Message) (base : Dir) (turns : List (ι × Fault))
    (htoken : Function.Injective token) (htmp : ∀ t, base (tmpName t) = none)
    (hrename : RenamesSucceed sizeLimit token stream base turns) :
    let d := (Mealy.run (step sizeLimit token stream) (start base) turns).1
    (∀ i, d.calls i = .opening ∨ (d.calls i).returned ≠ none) →
    (∀ n c, base n = some c → d.dir n = some c) ∧
    (∀ i n, (d.calls i).returned = some (.ok n) → base n = none ∧ SafeName n ∧
      ∃ bytes, Accepted sizeLimit (stream i) bytes ∧ d.dir n = some bytes) ∧
    (∀ i j n, (d.calls i).returned = some (.ok n) → (d.calls j).returned = some (.ok n) → i = j) ∧
    (∀ n, base n = none → d.dir n ≠ none → (∃ i, (d.calls i).returned = some (.ok n)) ∨
      ∃ i e, (d.calls i).returned = some (.error e) ∧ n = tmpName (token i)) ∧
    (RemovesSucceed sizeLimit token stream base turns →
      ∀ n, base n = none → d.dir n ≠ none → ∃ i, (d.calls i).returned = some (.ok n)) := by
  intro d hdone
  obtain ⟨own, hsplit, hsound⟩ := run_owned htoken htmp hrename
    (fun h : RemovesSucceed sizeLimit token stream base turns => h)
  -- who has returned a name owns it, with what was accepted in it
  have hreturned : ∀ i n, (d.calls i).returned = some (.ok n) → SafeName n ∧
      ∃ bytes, Accepted sizeLimit (stream i) bytes ∧ own i n = some bytes := by
    intro i n hi
    obtain ⟨b, hb⟩ := returned_ok hi
    have hs := hsound i
    rw [show (Mealy.run (step sizeLimit token stream) (start base) turns).1.calls i
      = .published b n from hb] at hs
    obtain ⟨⟨m, hm, hresult⟩, hname, hown⟩ := hs
    refine ⟨hname, b.written, ⟨b, m, hm, hresult, rfl⟩, ?_⟩
    rw [hown, only_self]
  -- whatever is new is owned by a transfer that has returned
  have hnew : ∀ n, base n = none → d.dir n ≠ none → (∃ i, (d.calls i).returned = some (.ok n)) ∨
      ∃ i e, (d.calls i).returned = some (.error e) ∧ n = tmpName (token i) ∧
        ¬ RemovesSucceed sizeLimit token stream base turns := by
    intro n hn hheld
    obtain ⟨c, hc⟩ := Option.ne_none_iff_exists'.mp hheld
    rcases hsplit.covered n c hc with hbase | ⟨i, hi⟩
    · rw [hn] at hbase
      cases hbase
    · have hs := hsound i
      have hi' := hdone i
      change Sound _ sizeLimit (token i) (stream i) (own i) (d.calls i) at hs
      cases hstage : d.calls i with
      | opening =>
        rw [hstage] at hs
        rw [show own i = fun _ => none from hs] at hi
        cases hi
      | published b name =>
        rw [hstage] at hs
        rw [hs.2.2] at hi
        refine .inl ⟨i, ?_⟩
        rw [hstage, (eq_of_only hi).1]
        rfl
      | failed e =>
        rw [hstage] at hs
        rcases hs with hnone | ⟨hdirty, c', htmpOnly⟩
        · rw [hnone] at hi
          cases hi
        · rw [htmpOnly] at hi
          exact .inr ⟨i, e, by rw [hstage]; rfl, (eq_of_only hi).1, hdirty⟩
      | _ =>
        rw [hstage] at hi'
        rcases hi' with hi' | hi'
        · cases hi'
        · exact absurd rfl hi'
  refine ⟨hsplit.kept, ?_, ?_, ?_, ?_⟩
  · intro i n hi
    obtain ⟨hname, bytes, hbytes, hown⟩ := hreturned i n hi
    exact ⟨hsplit.fresh i n bytes hown, hname, bytes, hbytes, hsplit.held i n bytes hown⟩
  · intro i j n hi hj
    obtain ⟨-, bytes, -, hi⟩ := hreturned i n hi
    obtain ⟨-, bytes', -, hj⟩ := hreturned j n hj
    exact hsplit.apart i j n bytes bytes' hi hj
  · intro n hn hheld
    exact (hnew n hn hheld).imp_right fun ⟨i, e, he, hname, _⟩ => ⟨i, e, he, hname⟩
  · intro hclean n hn hheld
    exact (hnew n hn hheld).resolve_right fun ⟨_, _, _, _, hdirty⟩ => hdirty hclean

/-- Two peers offer the same name, which is taken already: both files arrive, each under its own
    fallback, the old one is untouched, and nothing else is there. -/
theorem concurrent_receives_two :
    let base : Dir := Function.update (fun _ => none) "a" (some [9])
    let stream := fun (i : Bool) n => match n with
      | 0 => Except.ok (offerMsg 7 "a" 1)
      | 1 => .ok (chunkMsg 7 0 [if i then 1 else 2])
      | _ => .ok (endMsg 7 1)
    let d := (Mealy.run (step 10 (fun i => if i then 1 else 0) stream) (start base)
      (List.replicate 8 [(false, none), (true, none)]).flatten).1
    d.dir "a" = some [9] ∧ base "0-a" = none ∧ base "1-a" = none ∧
      (∃ bytes, Accepted 10 (stream true) bytes ∧ d.dir "1-a" = some bytes) ∧
      ∀ n, base n = none → d.dir n ≠ none → ∃ i, (d.calls i).returned = some (.ok n) := by
  intro base stream d
  have htoken : Function.Injective fun i : Bool => if i then (1 : UInt64) else 0 := by
    intro i j h
    cases i <;> cases j <;> first | rfl | exact absurd h (by decide)
  have htmp : ∀ t, base (tmpName t) = none := by
    intro t
    have hsafe : SafeName "a" := sanitizeFilename_safe (show sanitizeFilename "a" = .ok "a" by decide)
    exact Function.update_of_ne (hsafe.ne_tmpName t).symm ..
  have hnone : ∀ js (turn : Bool × Fault),
      js ++ [turn] <+: (List.replicate 8 [(false, none), (true, none)]).flatten →
      turn.2 = none := by
    intro js turn hpre
    have hmem : turn ∈ (List.replicate 8 [(false, none), (true, none)]).flatten :=
      hpre.subset (List.mem_append_right _ (List.mem_singleton_self _))
    have hall : ∀ t ∈ (List.replicate 8 [(false, (none : Fault)), (true, none)]).flatten,
        t.2 = none := by decide
    exact hall turn hmem
  obtain ⟨hkept, hreturned, -, -, hnothing⟩ := concurrent_receives 10
    (fun i : Bool => if i then 1 else 0) stream base _ htoken htmp
    (fun js turn hpre _ _ _ => hnone js turn hpre) (by
      intro i
      right
      cases i <;> decide)
  obtain ⟨hfirst, -, -⟩ := hreturned false "0-a" (by decide)
  obtain ⟨hsecond, -, hbytes⟩ := hreturned true "1-a" (by decide)
  exact ⟨hkept "a" [9] rfl, hfirst, hsecond, hbytes,
    hnothing fun js turn hpre _ _ => hnone js turn hpre⟩

end Runs

end Downloads

end SelfKvm
