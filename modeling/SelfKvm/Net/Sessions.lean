/-
  Sessions one after the other (`kvm-net/src/tls.rs`, `MemoryTrustStore` and `FileTrustStore`).

  A session loads a store, asks it any number of questions and is over before the next one loads its
  own.  Then the file is a store's memory: what one session writes, the next reads back, whatever
  order the map was visited in (`load_persist`).  So every question is answered as by one store
  that never left memory, which is `sessions_as_memory`.
-/
import SelfKvm.Net.TrustRuns

namespace SelfKvm

/-! ## The store in memory -/

structure MemoryTrustStore where
  map : Pins

namespace MemoryTrustStore

def check (store : MemoryTrustStore) (identity fingerprint : String) :
    Except String Unit × MemoryTrustStore :=
  match store.map.lookup identity with
  | some known =>
    if known = fingerprint then
      (.ok (), store)
    else
      (.error s!"fingerprint changed for {identity}: trusted {known}, got {fingerprint}", store)
  | none => (.ok (), ⟨store.map.insert identity fingerprint⟩)

end MemoryTrustStore

/-! ## Sessions -/

/-- A question, and the order in which the map is visited if it is written. -/
structure TrustCheck where
  identity : PlainText
  fingerprint : PlainText
  visit : Visit

/-- The question, put to one of the stores. -/
def TrustCheck.event (store : Nat) (c : TrustCheck) : TrustEvent :=
  .check store c.identity c.fingerprint c.visit

/-- Each session loads the next store and puts its questions to that one. -/
def sessionEvents (store : Nat) : List (List TrustCheck) → List TrustEvent
  | [] => []
  | checks :: sessions =>
    .load :: checks.map (TrustCheck.event store) ++ sessionEvents (store + 1) sessions

def MemoryTrustStore.step (store : MemoryTrustStore) (c : TrustCheck) :
    MemoryTrustStore × List (Except String Unit) :=
  let (result, store) := store.check c.identity.text c.fingerprint.text
  (store, [result])

/-! ## One question -/

/-- Two maps with the same pins. -/
def SamePins (pins pins' : Pins) : Prop := ∀ id, pins.lookup id = pins'.lookup id

theorem SamePins.insert {pins pins' : Pins} (h : SamePins pins pins') (identity fingerprint : String) :
    SamePins (pins.insert identity fingerprint) (pins'.insert identity fingerprint) := by
  intro id
  by_cases hid : id = identity
  · rw [hid, AList.lookup_insert, AList.lookup_insert]
  · rw [AList.lookup_insert_ne hid, AList.lookup_insert_ne hid]
    exact h id

/-- Stores with the same pins answer alike, and have the same pins afterwards. -/
theorem check_as_memory {store : FileTrustStore} {mem : MemoryTrustStore}
    (h : SamePins store.mem mem.map) (identity fingerprint : String) (visit : Visit) :
    (store.check identity fingerprint visit).1 = (mem.check identity fingerprint).1 ∧
      SamePins (store.check identity fingerprint visit).2.1.mem
        (mem.check identity fingerprint).2.map := by
  unfold FileTrustStore.check MemoryTrustStore.check
  rw [h identity]
  cases mem.map.lookup identity with
  | none => exact ⟨rfl, h.insert identity fingerprint⟩
  | some known =>
    by_cases hknown : known = fingerprint
    · simp only [hknown, if_true]
      exact ⟨trivial, h⟩
    · simp only [hknown, if_false]
      exact ⟨trivial, h⟩

/-- A store that is asked writes nothing and stays as it is, or writes all that it holds then. -/
theorem check_written (store : FileTrustStore) (identity fingerprint : String) (visit : Visit) :
    (store.check identity fingerprint visit).2 = (store, none) ∨
      (store.check identity fingerprint visit).2.2 =
        some (FileTrustStore.persist (store.check identity fingerprint visit).2.1.mem visit) ∧
      (store.check identity fingerprint visit).2.1.mem = store.mem.insert identity fingerprint := by
  cases hlookup : store.mem.lookup identity with
  | some known => exact .inl (FileTrustStore.check_pinned hlookup fingerprint visit).1
  | none =>
    rw [FileTrustStore.check_unknown hlookup]
    exact .inr ⟨rfl, rfl⟩

namespace SharedTrust

/-- During a session the newest store, the file and the store in memory have the same pins. -/
structure Mirrors (n : Nat) (w : SharedTrust) (mem : MemoryTrustStore) : Prop where
  opened : w.stores.length = n + 1
  newest : ∃ store, w.stores[n]? = some store ∧ Writable store.mem ∧ SamePins store.mem mem.map
  file : SamePins w.pins mem.map

theorem step_check {w : SharedTrust} {i : Nat} {store : FileTrustStore}
    (hi : w.stores[i]? = some store) (identity fingerprint : PlainText) (visit : Visit) :
    w.step (.check i identity fingerprint visit) =
      (⟨(store.check identity.text fingerprint.text visit).2.2.or w.file,
        w.stores.set i (store.check identity.text fingerprint.text visit).2.1⟩,
        [⟨i, identity.text, fingerprint.text,
          (store.check identity.text fingerprint.text visit).1⟩]) := by
  unfold step
  simp only [hi]

variable {n : Nat} {w : SharedTrust} {mem : MemoryTrustStore}

/-- **One question** is answered as by the store in memory, and the three stay the same. -/
theorem Mirrors.step (h : Mirrors n w mem) (c : TrustCheck) :
    Mirrors n (w.step (c.event n)).1 (mem.step c).1 ∧
      (w.step (c.event n)).2.map Verdict.result = (mem.step c).2 := by
  obtain ⟨hopened, ⟨store, hnewest, hwritable, hsame⟩, hfile⟩ := h
  have hlt : n < w.stores.length := by omega
  obtain ⟨hresult, hsame'⟩ := check_as_memory hsame c.identity.text c.fingerprint.text c.visit
  have hwritten := check_written store c.identity.text c.fingerprint.text c.visit
  unfold TrustCheck.event
  rw [step_check hnewest]
  refine ⟨⟨?_, ?_, ?_⟩, congrArg (fun r => [r]) hresult⟩
  · rw [List.length_set]
    exact hopened
  · refine ⟨_, List.getElem?_set_self hlt, ?_, hsame'⟩
    rcases hwritten with hquiet | ⟨-, hmem⟩
    · rw [hquiet]
      exact hwritable
    · rw [hmem]
      exact hwritable.insert (c.identity.plain.writable c.fingerprint.plain)
  · intro id
    rcases hwritten with hquiet | ⟨hwrote, hmem⟩
    · -- nothing new: the file is the one before
      rw [hquiet] at hsame' ⊢
      show w.pins.lookup id = _
      rw [hfile id, ← hsame id]
      exact hsame' id
    · rw [hmem] at hsame'
      show (FileTrustStore.load (Option.or _ w.file)).mem.lookup id = _
      rw [hwrote, hmem, Option.some_or, FileTrustStore.load_persist
        (hwritable.insert (c.identity.plain.writable c.fingerprint.plain))]
      exact hsame' id

/-- The next session starts from what the file holds. -/
theorem mirrors_load (hopened : w.stores.length = n) (hfile : SamePins w.pins mem.map) :
    Mirrors n (w.step .load).1 mem := by
  show Mirrors n { w with stores := w.stores ++ [.load w.file] } mem
  refine ⟨?_, ⟨.load w.file, ?_, FileTrustStore.load_writable w.file, hfile⟩, hfile⟩
  · rw [List.length_append, hopened]
    rfl
  · rw [← hopened, List.getElem?_append_right (Nat.le_refl _), Nat.sub_self]
    rfl

/-! ## Whole sequences -/

/-- Session after session, from any file. -/
theorem run_sessions (hopened : w.stores.length = n) (hfile : SamePins w.pins mem.map)
    (sessions : List (List TrustCheck)) :
    (Mealy.run step w (sessionEvents n sessions)).2.map Verdict.result =
      (Mealy.run MemoryTrustStore.step mem sessions.flatten).2 := by
  induction sessions generalizing n w mem with
  | nil => rfl
  | cons checks sessions ih =>
    obtain ⟨hmirrors, hout⟩ := Mealy.run_lockstep (R := Mirrors n) (TrustCheck.event n)
      Verdict.result (fun _ _ c h => h.step c) (mirrors_load hopened hfile) checks
    have hrest := ih hmirrors.opened hmirrors.file
    show (Mealy.run step w (.load :: (checks.map (TrustCheck.event n) ++ _))).2.map _ = _
    rw [Mealy.run_cons, Mealy.run_append, List.flatten_cons, Mealy.run_append, List.map_append,
      List.map_append, hout, hrest]
    rfl

/-- **The file is as good as memory.**  A map from identities to fingerprints without whitespace is
    read back from the text that is written of it, in whatever order it was visited; and over any
    sessions one after the other, from whatever file, every question is answered as by a single
    store in memory that begins with what the file holds. -/
theorem sessions_as_memory (pins : Pins)
    (hplain : ∀ identity fingerprint, pins.lookup identity = some fingerprint →
      Plain identity ∧ Plain fingerprint)
    (visit : Visit) (file : Option String) (sessions : List (List TrustCheck)) :
    SamePins (FileTrustStore.load (some (FileTrustStore.persist pins visit))).mem pins ∧
    (Mealy.run step (start file) (sessionEvents 0 sessions)).2.map Verdict.result =
      (Mealy.run MemoryTrustStore.step ⟨(FileTrustStore.load file).mem⟩ sessions.flatten).2 := by
  refine ⟨?_, run_sessions rfl (fun _ => rfl) sessions⟩
  intro id
  apply FileTrustStore.load_persist
  intro identity fingerprint hlookup
  obtain ⟨hid, hfp⟩ := hplain identity fingerprint hlookup
  exact hid.writable hfp

/-- A host is pinned in one session, and refused with another fingerprint in the next. -/
theorem sessions_as_memory_refused :
    let pins : Pins := (∅ : Pins).insert "" "a"
    let checks : List TrustCheck := [⟨⟨"host:1", by decide⟩, ⟨"a", by decide⟩, .plain⟩]
    let again : List TrustCheck := [⟨⟨"host:1", by decide⟩, ⟨"b", by decide⟩, .plain⟩]
    SamePins (FileTrustStore.load (some (FileTrustStore.persist pins .plain))).mem pins ∧
    (Mealy.run step (start none) (sessionEvents 0 [checks, again])).2.map Verdict.result =
      [.ok (), .error "fingerprint changed for host:1: trusted a, got b"] := by
  intro pins checks again
  refine (sessions_as_memory pins ?_ .plain none [checks, again]).imp_right fun h => h.trans rfl
  intro identity fingerprint hlookup
  by_cases hid : identity = ""
  · subst hid
    rw [AList.lookup_insert] at hlookup
    injection hlookup with hlookup
    subst hlookup
    exact ⟨by decide, by decide⟩
  · rw [AList.lookup_insert_ne hid, AList.lookup_empty] at hlookup
    cases hlookup

end SharedTrust

end SelfKvm
