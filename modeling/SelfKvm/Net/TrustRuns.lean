/-
  Several trust stores over one file.

  The client's control connection and every file it sends over TLS load a store of their own from
  the same path.  A run is any order of loads and checks; each reads or writes the file in one
  piece.  A store that pins something new writes its own map over the file, and with it whatever
  another store has pinned since it was loaded.

  `pinned_exactly` says when that does harm.  Under `UpToDate` (nothing the file holds is missing
  from what is written over it) the file only grows, and holds every pin that was ever accepted
  (`Recorded`); the first write that is not up to date loses such a pin, and a store loaded right
  then takes any fingerprint for it.
-/
import SelfKvm.Base.Mealy
import SelfKvm.Net.Trust

namespace SelfKvm

/-! ## The system -/

/-- A text without whitespace. -/
structure PlainText where
  text : String
  plain : Plain text

inductive TrustEvent where
  /-- One more store is loaded. -/
  | load
  /-- A store is asked; the stores are numbered as they were loaded. -/
  | check (store : Nat) (identity fingerprint : PlainText) (visit : Visit)

/-- What a store answered to which question. -/
structure Verdict where
  store : Nat
  identity : String
  fingerprint : String
  result : Except String Unit
  deriving DecidableEq

/-- The file and the stores over it. -/
structure SharedTrust where
  file : Option String
  stores : List FileTrustStore

namespace SharedTrust

def start (file : Option String) : SharedTrust := ⟨file, []⟩

def step (w : SharedTrust) : TrustEvent → SharedTrust × List Verdict
  | .load => ({ w with stores := w.stores ++ [.load w.file] }, [])
  | .check i identity fingerprint visit =>
    match w.stores[i]? with
    | none => (w, [])
    | some store =>
      let (result, store, written) := store.check identity.text fingerprint.text visit
      ({ file := written.or w.file, stores := w.stores.set i store },
        [⟨i, identity.text, fingerprint.text, result⟩])

/-- What a store loaded now would hold. -/
def pins (w : SharedTrust) : Pins := (FileTrustStore.load w.file).mem

/-! ## What a step does -/

/-- The outcomes of a step: a store is loaded, nobody is asked, a pin answers, or a new pin is made
    and the file replaced. -/
inductive Outcome (w : SharedTrust) : TrustEvent → SharedTrust × List Verdict → Prop
  | loaded : Outcome w .load ({ w with stores := w.stores ++ [.load w.file] }, [])
  | nobody {i : Nat} {identity fingerprint : PlainText} {visit : Visit} :
    Outcome w (.check i identity fingerprint visit) (w, [])
  | pinned {i : Nat} {identity fingerprint : PlainText} {visit : Visit} {store : FileTrustStore}
    {known : String} {result : Except String Unit} (hi : w.stores[i]? = some store)
    (hknown : store.mem.lookup identity.text = some known)
    (hresult : result = .ok () ↔ fingerprint.text = known) :
    Outcome w (.check i identity fingerprint visit)
      (w, [⟨i, identity.text, fingerprint.text, result⟩])
  | first {i : Nat} {identity fingerprint : PlainText} {visit : Visit} {store : FileTrustStore}
    (hi : w.stores[i]? = some store) (hnew : store.mem.lookup identity.text = none) :
    Outcome w (.check i identity fingerprint visit)
      (⟨some (FileTrustStore.persist (store.mem.insert identity.text fingerprint.text) visit),
        w.stores.set i ⟨store.mem.insert identity.text fingerprint.text⟩⟩,
        [⟨i, identity.text, fingerprint.text, .ok ()⟩])

/-- A first sight: the store's map, with the new pin, replaces the file. -/
theorem step_first {w : SharedTrust} {i : Nat} {store : FileTrustStore} {identity : PlainText}
    (hget : w.stores[i]? = some store) (hnew : store.mem.lookup identity.text = none)
    (fingerprint : PlainText) (visit : Visit) :
    w.step (.check i identity fingerprint visit) =
      (⟨some (FileTrustStore.persist (store.mem.insert identity.text fingerprint.text) visit),
        w.stores.set i ⟨store.mem.insert identity.text fingerprint.text⟩⟩,
        [⟨i, identity.text, fingerprint.text, .ok ()⟩]) := by
  unfold step
  simp only [hget]
  rw [FileTrustStore.check_unknown hnew]
  rfl

theorem step_outcome (w : SharedTrust) (e : TrustEvent) : Outcome w e (w.step e) := by
  cases e with
  | load => exact .loaded
  | check i identity fingerprint visit =>
    cases hi : w.stores[i]? with
    | none =>
      unfold step
      simp only [hi]
      exact .nobody
    | some store =>
      cases hlookup : store.mem.lookup identity.text with
      | none =>
        rw [step_first hi hlookup]
        exact .first hi hlookup
      | some known =>
        unfold step
        simp only [hi]
        obtain ⟨hrest, hresult⟩ :=
          FileTrustStore.check_pinned hlookup fingerprint.text visit
        obtain ⟨hlt, hget⟩ := List.getElem?_eq_some_iff.mp hi
        have hsame : w.stores.set i store = w.stores := by
          rw [← hget]
          exact List.set_getElem_self hlt
        generalize store.check identity.text fingerprint.text visit = r at hrest hresult ⊢
        obtain ⟨result, store', written⟩ := r
        injection hrest with hstore hwritten
        subst hstore hwritten
        show Outcome w _ ({ file := w.file, stores := w.stores.set i store' }, _)
        rw [hsame]
        exact .pinned hi hlookup hresult

/-! ## The invariant -/

/-- A check that pins something new is made by a store that, with the new pin, has everything the
    file holds: what it writes over the file loses nothing. -/
def UpToDate (w : SharedTrust) : TrustEvent → Prop
  | .load => True
  | .check i identity fingerprint _ =>
    ∀ store, w.stores[i]? = some store → store.mem.lookup identity.text = none →
      ∀ id fp, w.pins.lookup id = some fp →
        (store.mem.insert identity.text fingerprint.text).lookup id = some fp

/-- The file holds all that the stores hold and all that was accepted; and what it holds was
    accepted, or every store has it. -/
structure Recorded (outs : List Verdict) (w : SharedTrust) : Prop where
  writable : ∀ store ∈ w.stores, Writable store.mem
  held : ∀ store ∈ w.stores, ∀ id fp, store.mem.lookup id = some fp → w.pins.lookup id = some fp
  accepted : ∀ v ∈ outs, v.result = .ok () → w.pins.lookup v.identity = some v.fingerprint
  origin : ∀ id fp, w.pins.lookup id = some fp →
    (∃ v ∈ outs, v.result = .ok () ∧ v.identity = id ∧ v.fingerprint = fp) ∨
      ∀ store ∈ w.stores, store.mem.lookup id = some fp

theorem recorded_start (file : Option String) : Recorded [] (start file) := by
  refine ⟨?_, ?_, ?_, ?_⟩
  · intro store hstore
    cases hstore
  · intro store hstore
    cases hstore
  · intro v hv
    cases hv
  · intro id fp _
    right
    intro store hstore
    cases hstore

/-- The file after a new pin: exactly what was written into it. -/
theorem pins_first {store : FileTrustStore} (hstore : Writable store.mem)
    (identity fingerprint : PlainText) (visit : Visit) (stores : List FileTrustStore) (id : String) :
    (SharedTrust.mk (some (FileTrustStore.persist
        (store.mem.insert identity.text fingerprint.text) visit)) stores).pins.lookup id =
      (store.mem.insert identity.text fingerprint.text).lookup id :=
  FileTrustStore.load_persist (hstore.insert (identity.plain.writable fingerprint.plain)) visit id

/-- A store that is loaded has what the file holds. -/
theorem Recorded.loaded {outs : List Verdict} {w : SharedTrust} (h : Recorded outs w) :
    Recorded outs { w with stores := w.stores ++ [.load w.file] } := by
  refine ⟨?_, ?_, h.accepted, ?_⟩
  · intro store hstore
    rcases List.mem_append.mp hstore with hstore | hstore
    · exact h.writable store hstore
    · rw [List.mem_singleton.mp hstore]
      exact FileTrustStore.load_writable w.file
  · intro store hstore id fp hlookup
    rcases List.mem_append.mp hstore with hstore | hstore
    · exact h.held store hstore id fp hlookup
    · rw [List.mem_singleton.mp hstore] at hlookup
      exact hlookup
  · intro id fp hin
    rcases h.origin id fp hin with hv | hall
    · exact .inl hv
    · right
      intro store hstore
      rcases List.mem_append.mp hstore with hstore | hstore
      · exact hall store hstore
      · rw [List.mem_singleton.mp hstore]
        exact hin

/-- A verdict that changes nothing, and accepts only what the file holds. -/
theorem Recorded.judged {outs : List Verdict} {w : SharedTrust} (h : Recorded outs w) {v : Verdict}
    (hv : v.result = .ok () → w.pins.lookup v.identity = some v.fingerprint) :
    Recorded (outs ++ [v]) w := by
  refine ⟨h.writable, h.held, ?_, ?_⟩
  · intro v' hv' hok
    rcases List.mem_append.mp hv' with hv' | hv'
    · exact h.accepted v' hv' hok
    · rw [List.mem_singleton.mp hv'] at hok ⊢
      exact hv hok
  · intro id fp hin
    rcases h.origin id fp hin with ⟨v', hv', hok⟩ | hall
    · exact .inl ⟨v', List.mem_append_left _ hv', hok⟩
    · exact .inr hall

/-- A new pin, written by a store that is up to date: what is written extends the file. -/
theorem Recorded.first {outs : List Verdict} {w : SharedTrust} (h : Recorded outs w) {i : Nat}
    {identity fingerprint : PlainText} {visit : Visit} {store : FileTrustStore}
    (hi : w.stores[i]? = some store)
    (hgrow : ∀ id fp, w.pins.lookup id = some fp →
      (store.mem.insert identity.text fingerprint.text).lookup id = some fp) :
    Recorded (outs ++ [⟨i, identity.text, fingerprint.text, .ok ()⟩])
      ⟨some (FileTrustStore.persist (store.mem.insert identity.text fingerprint.text) visit),
        w.stores.set i ⟨store.mem.insert identity.text fingerprint.text⟩⟩ := by
  have hstore := List.mem_of_getElem? hi
  have hpins := pins_first (h.writable store hstore) identity fingerprint visit
    (w.stores.set i ⟨store.mem.insert identity.text fingerprint.text⟩)
  refine ⟨?_, ?_, ?_, ?_⟩
  · intro store' hstore'
    rcases List.mem_or_eq_of_mem_set hstore' with hstore' | rfl
    · exact h.writable store' hstore'
    · exact (h.writable store hstore).insert (identity.plain.writable fingerprint.plain)
  · intro store' hstore' id fp hlookup
    rw [hpins]
    rcases List.mem_or_eq_of_mem_set hstore' with hstore' | rfl
    · exact hgrow id fp (h.held store' hstore' id fp hlookup)
    · exact hlookup
  · intro v hv hok
    rw [hpins]
    rcases List.mem_append.mp hv with hv | hv
    · exact hgrow _ _ (h.accepted v hv hok)
    · rw [List.mem_singleton.mp hv]
      exact AList.lookup_insert _
  · intro id fp hin
    rw [hpins] at hin
    by_cases hid : id = identity.text
    · subst hid
      rw [AList.lookup_insert] at hin
      injection hin with hin
      exact .inl ⟨_, List.mem_append_right _ (List.mem_singleton_self _), rfl, rfl, hin⟩
    · rw [AList.lookup_insert_ne hid] at hin
      rcases h.origin id fp (h.held store hstore id fp hin) with ⟨v, hv, hok⟩ | hall
      · exact .inl ⟨v, List.mem_append_left _ hv, hok⟩
      · right
        intro store' hstore'
        rcases List.mem_or_eq_of_mem_set hstore' with hstore' | rfl
        · exact hall store' hstore'
        · rw [AList.lookup_insert_ne hid]
          exact hin

/-- **One step, up to date**: the invariant is kept, and the file loses nothing. -/
theorem Recorded.step {outs : List Verdict} {w : SharedTrust} (h : Recorded outs w)
    {e : TrustEvent} (hdate : UpToDate w e) :
    Recorded (outs ++ (w.step e).2) (w.step e).1 ∧
      ∀ id fp, w.pins.lookup id = some fp → (w.step e).1.pins.lookup id = some fp := by
  have hout := step_outcome w e
  generalize w.step e = r at hout ⊢
  cases hout with
  | loaded =>
    rw [List.append_nil]
    exact ⟨h.loaded, fun _ _ hin => hin⟩
  | nobody =>
    rw [List.append_nil]
    exact ⟨h, fun _ _ hin => hin⟩
  | @pinned i identity fingerprint visit store known result hi hknown hresult =>
    refine ⟨h.judged ?_, fun _ _ hin => hin⟩
    intro hok
    show w.pins.lookup identity.text = some fingerprint.text
    rw [hresult.mp hok]
    exact h.held store (List.mem_of_getElem? hi) _ _ hknown
  | @first i identity fingerprint visit store hi hnew =>
    have hgrow := hdate store hi hnew
    refine ⟨h.first hi hgrow, ?_⟩
    intro id fp hin
    rw [pins_first (h.writable store (List.mem_of_getElem? hi))]
    exact hgrow id fp hin

/-! ## Whole runs -/

/-- Every new pin of the run is made by a store that is up to date. -/
def WritesUpToDate (file : Option String) (es : List TrustEvent) : Prop :=
  Mealy.EveryStep step (start file) es fun _ w e => UpToDate w e

/-- Once an identity has been accepted with a fingerprint, no store loaded after that moment accepts
    it with another. -/
def Steadfast (file : Option String) (es : List TrustEvent) : Prop :=
  ∀ js ks, js ++ ks = es →
    ∀ v ∈ (Mealy.run step (start file) js).2, v.result = .ok () →
    ∀ v' ∈ (Mealy.run step (Mealy.run step (start file) js).1 ks).2, v'.result = .ok () →
      (Mealy.run step (start file) js).1.stores.length ≤ v'.store →
      v'.identity = v.identity → v'.fingerprint = v.fingerprint

theorem run_recorded {file : Option String} {es : List TrustEvent}
    (h : WritesUpToDate file es) :
    Recorded (Mealy.run step (start file) es).2 (Mealy.run step (start file) es).1 :=
  h.final step (recorded_start file) fun _ _ _ hrec hdate => (hrec.step hdate).1

/-- A pin in the file is in every store loaded from then on, and decides what that store accepts. -/
structure Bound (id fp : String) (n : Nat) (outs : List Verdict) (w : SharedTrust) : Prop where
  in_file : w.pins.lookup id = some fp
  loaded : n ≤ w.stores.length
  in_store : ∀ i store, n ≤ i → w.stores[i]? = some store → store.mem.lookup id = some fp
  decided : ∀ v ∈ outs, v.result = .ok () → n ≤ v.store → v.identity = id → v.fingerprint = fp

theorem Bound.step {id fp : String} {n : Nat} {outs : List Verdict} {w : SharedTrust}
    (h : Bound id fp n outs w) {e : TrustEvent}
    (hgrow : ∀ id fp, w.pins.lookup id = some fp → (w.step e).1.pins.lookup id = some fp) :
    Bound id fp n (outs ++ (w.step e).2) (w.step e).1 := by
  have hfile := hgrow id fp h.in_file
  have hout := step_outcome w e
  generalize w.step e = r at hout hfile ⊢
  cases hout with
  | loaded =>
    rw [List.append_nil]
    refine ⟨hfile, ?_, ?_, h.decided⟩
    · rw [List.length_append]
      exact Nat.le_add_right_of_le h.loaded
    · intro i store hi hget
      rcases Nat.lt_or_ge i w.stores.length with hlt | hge
      · rw [List.getElem?_append_left hlt] at hget
        exact h.in_store i store hi hget
      · rw [List.getElem?_append_right hge] at hget
        rw [List.mem_singleton.mp (List.mem_of_getElem? hget)]
        exact h.in_file
  | nobody =>
    rw [List.append_nil]
    exact ⟨hfile, h.loaded, h.in_store, h.decided⟩
  | @pinned i identity fingerprint visit store known result hi hknown hresult =>
    refine ⟨hfile, h.loaded, h.in_store, ?_⟩
    intro v hv hok hn hid
    rcases List.mem_append.mp hv with hv | hv
    · exact h.decided v hv hok hn hid
    · rw [List.mem_singleton.mp hv] at hok hn hid ⊢
      have hfp := h.in_store i store hn hi
      rw [← hid] at hfp
      rw [show store.mem.lookup identity.text = some fp from hfp] at hknown
      injection hknown with hknown
      rw [hknown]
      exact hresult.mp hok
  | @first i identity fingerprint visit store hi hnew =>
    refine ⟨hfile, ?_, ?_, ?_⟩
    · rw [List.length_set]
      exact h.loaded
    · intro j store' hj hget
      by_cases hij : i = j
      · subst hij
        have hlt := (List.getElem?_eq_some_iff.mp hi).1
        rw [List.getElem?_set_self hlt] at hget
        injection hget with hget
        have hold := h.in_store i store hj hi
        have hid : id ≠ identity.text := by
          rintro rfl
          rw [hnew] at hold
          cases hold
        rw [← hget, AList.lookup_insert_ne hid]
        exact hold
      · rw [List.getElem?_set_ne hij] at hget
        exact h.in_store j store' hj hget
    · intro v hv hok hn hid
      rcases List.mem_append.mp hv with hv | hv
      · exact h.decided v hv hok hn hid
      · -- a store loaded since then has the pin, so this is not the first sight of it
        rw [List.mem_singleton.mp hv] at hn hid
        have hold := h.in_store i store hn hi
        rw [← hid, show store.mem.lookup identity.text = none from hnew] at hold
        cases hold

/-- Up-to-date writes keep every pin. -/
theorem steadfast_of_upToDate {file : Option String} {es : List TrustEvent}
    (h : WritesUpToDate file es) : Steadfast file es := by
  rintro js ks rfl v hv hok v' hv' hok' hn hid
  have hjs : WritesUpToDate file js := h.of_prefix step (List.prefix_append js ks)
  have hfile := (run_recorded hjs).accepted v hv hok
  have hks := h.of_append step
  have hbound := hks.final step
    (P := fun outs w => Recorded ((Mealy.run step (start file) js).2 ++ outs) w ∧
      Bound v.identity v.fingerprint (Mealy.run step (start file) js).1.stores.length outs w)
    (by
      rw [List.append_nil]
      refine ⟨run_recorded hjs, hfile, Nat.le_refl _, ?_, ?_⟩
      · intro i store hi hget
        exact absurd (List.getElem?_eq_some_iff.mp hget).1 (Nat.not_lt_of_le hi)
      · intro o ho
        cases ho)
    (by
      rintro outs w e ⟨hrec, hbound⟩ hdate
      obtain ⟨hrec', hgrow⟩ := hrec.step hdate
      rw [List.append_assoc] at hrec'
      exact ⟨hrec', hbound.step hgrow⟩)
  exact hbound.2.decided v' hv' hok' hn hid

/-- A load and a check by the store it loads, on top of a run. -/
def probe (file : Option String) (js : List TrustEvent) (identity fingerprint : PlainText)
    (visit : Visit) : List TrustEvent :=
  js ++ [.load, .check (Mealy.run step (start file) js).1.stores.length identity fingerprint visit]

/-- A store that was just loaded has everything the file holds. -/
theorem upToDate_probe {file : Option String} {js : List TrustEvent}
    (h : WritesUpToDate file js) (identity fingerprint : PlainText) (visit : Visit) :
    WritesUpToDate file (probe file js identity fingerprint visit) := by
  unfold probe WritesUpToDate
  rw [show ∀ a b : TrustEvent, js ++ [a, b] = js ++ [a] ++ [b] from fun a b => by
    rw [List.append_assoc, List.singleton_append]]
  refine (Mealy.everyStep_concat step).mpr ⟨(Mealy.everyStep_concat step).mpr ⟨h, trivial⟩, ?_⟩
  rw [Mealy.run_concat]
  intro store hget hnew id fp hin
  have hstore : FileTrustStore.load (Mealy.run step (start file) js).1.file = store := by
    have hlast : (_ ++ [_] : List FileTrustStore)[_]? = some store := hget
    rw [List.getElem?_append_right (Nat.le_refl _), Nat.sub_self] at hlast
    injection hlast
  subst hstore
  by_cases hid : id = identity.text
  · subst hid
    exact absurd (hin.symm.trans hnew) (Option.some_ne_none fp)
  · rw [AList.lookup_insert_ne hid]
    exact hin

/-- A store that was just loaded accepts what the file holds, and anything for an identity it does not
    hold. -/
theorem fresh_accepts (w : SharedTrust) (identity fingerprint : PlainText) (visit : Visit)
    (h : w.pins.lookup identity.text = none ∨
      w.pins.lookup identity.text = some fingerprint.text) :
    (Mealy.run step w [.load, .check w.stores.length identity fingerprint visit]).2 =
      [⟨w.stores.length, identity.text, fingerprint.text, .ok ()⟩] := by
  have hget : (w.stores ++ [FileTrustStore.load w.file])[w.stores.length]? =
      some (FileTrustStore.load w.file) := by
    rw [List.getElem?_append_right (Nat.le_refl _), Nat.sub_self]
    rfl
  have hok : ((FileTrustStore.load w.file).check identity.text fingerprint.text visit).1 =
      .ok () := by
    rcases h with h | h
    · rw [FileTrustStore.check_unknown h]
    · exact (FileTrustStore.check_pinned h fingerprint.text visit).2.mpr rfl
  rw [Mealy.run_cons, Mealy.run_singleton]
  unfold step
  simp only [hget, List.nil_append]
  rw [hok]

/-- Some plain text is not this one. -/
theorem exists_plain_ne (s : String) : ∃ t : PlainText, t.text ≠ s := by
  by_cases ha : "a" = s
  · exact ⟨⟨"b", by decide⟩, fun hb => absurd (hb.trans ha.symm) (by decide)⟩
  · exact ⟨⟨"a", by decide⟩, ha⟩

/-- **A write that loses an accepted pin lets another fingerprint in**: a store loaded right after it
    takes one. -/
theorem lost_pin {file : Option String} {es : List TrustEvent} {i : Nat}
    {identity fingerprint : PlainText} (visit : Visit) {store : FileTrustStore} {v : Verdict}
    (hes : WritesUpToDate file es)
    (hget : (Mealy.run step (start file) es).1.stores[i]? = some store)
    (hnew : store.mem.lookup identity.text = none)
    (hv : v ∈ (Mealy.run step (start file) es).2) (hok : v.result = .ok ())
    (hlost : (store.mem.insert identity.text fingerprint.text).lookup v.identity ≠
      some v.fingerprint) :
    ∃ identity' fingerprint', ¬ Steadfast file
      (probe file (es ++ [.check i identity fingerprint visit]) identity' fingerprint' visit) := by
  have hrec := run_recorded hes
  have hstore := List.mem_of_getElem? hget
  have hheld := hrec.accepted v hv hok
  have hplain : Plain v.identity :=
    (FileTrustStore.load_writable _ v.identity v.fingerprint hheld).plain
  have hpins : (Mealy.run step (start file) (es ++ [.check i identity fingerprint visit])).1.pins.lookup
      v.identity = (store.mem.insert identity.text fingerprint.text).lookup v.identity := by
    rw [Mealy.run_concat, step_first hget hnew]
    exact pins_first (hrec.writable store hstore) identity fingerprint visit _ v.identity
  -- what the file holds for the identity now, or anything if it holds nothing
  obtain ⟨other, hother, hfile⟩ : ∃ other : PlainText, other.text ≠ v.fingerprint ∧
      ((store.mem.insert identity.text fingerprint.text).lookup v.identity = none ∨
        (store.mem.insert identity.text fingerprint.text).lookup v.identity = some other.text) := by
    by_cases hid : v.identity = identity.text
    · rw [hid, AList.lookup_insert] at hlost ⊢
      exact ⟨fingerprint, fun heq => hlost (congrArg some heq), .inr rfl⟩
    · rw [AList.lookup_insert_ne hid] at hlost ⊢
      obtain ⟨other, hother⟩ := exists_plain_ne v.fingerprint
      refine ⟨other, hother, .inl ?_⟩
      cases hlookup : store.mem.lookup v.identity with
      | none => rfl
      | some known =>
        have hknown := (hrec.held store hstore v.identity known hlookup).symm.trans hheld
        exact absurd (hlookup.trans hknown) hlost
  refine ⟨⟨v.identity, hplain⟩, other, fun hsteady => ?_⟩
  have hv' : v ∈ (Mealy.run step (start file)
      (es ++ [.check i identity fingerprint visit])).2 := by
    rw [Mealy.run_concat]
    exact List.mem_append_left _ hv
  rw [← hpins] at hfile
  have haccepts := fresh_accepts _ ⟨v.identity, hplain⟩ other visit hfile
  exact hother (hsteady _ _ rfl v hv' hok ⟨_, v.identity, other.text, .ok ()⟩
    (haccepts ▸ List.mem_singleton_self _) rfl (Nat.le_refl _) rfl)

/-- **Exactly when a trusted fingerprint stays pinned.**  In a run of loads and checks in any order:
    nobody loaded after an identity was accepted accepts it with another fingerprint, neither in
    the run nor when loaded and asked at any point of it, if and only if every new pin is made by a
    store that is up to date with the file. -/
theorem pinned_exactly (file : Option String) (es : List TrustEvent) :
    (Steadfast file es ∧ ∀ js, js <+: es → ∀ identity fingerprint visit,
      Steadfast file (probe file js identity fingerprint visit)) ↔ WritesUpToDate file es := by
  constructor
  · rintro ⟨-, hprobe⟩
    refine Mealy.everyStep_of_last step fun js e hpre hjs => ?_
    have hrec := run_recorded hjs
    cases e with
    | load => exact trivial
    | check i identity fingerprint visit =>
      intro store hget hnew id fp hin
      by_contra hlost
      -- the write loses a pin: it is one that was accepted
      rcases hrec.origin id fp hin with ⟨v, hv, hok, rfl, rfl⟩ | hall
      · obtain ⟨identity', fingerprint', hbad⟩ := lost_pin visit hjs hget hnew hv hok
          hlost
        exact hbad (hprobe _ hpre identity' fingerprint' visit)
      · have hheld := hall store (List.mem_of_getElem? hget)
        have hid : id ≠ identity.text := by
          rintro rfl
          exact absurd (hheld.symm.trans hnew) (Option.some_ne_none fp)
        rw [AList.lookup_insert_ne hid] at hlost
        exact hlost hheld
  · intro h
    refine ⟨steadfast_of_upToDate h, fun js hjs identity fingerprint visit => ?_⟩
    exact steadfast_of_upToDate (upToDate_probe (h.of_prefix step hjs) identity fingerprint visit)

/-- Two stores are loaded from an empty file; the first pins `a`, then the second pins `b`, and a store
    loaded after that takes another fingerprint for `a`. -/
theorem stale_store_unpins :
    ¬ ∀ (file : Option String) (es : List TrustEvent), Steadfast file es := by
  intro hall
  have hsteady := hall none
    [.load, .load, .check 0 ⟨"a", by decide⟩ ⟨"f", by decide⟩ .plain,
      .check 1 ⟨"b", by decide⟩ ⟨"g", by decide⟩ .plain,
      .load, .check 2 ⟨"a", by decide⟩ ⟨"h", by decide⟩ .plain]
    [.load, .load, .check 0 ⟨"a", by decide⟩ ⟨"f", by decide⟩ .plain,
      .check 1 ⟨"b", by decide⟩ ⟨"g", by decide⟩ .plain]
    [.load, .check 2 ⟨"a", by decide⟩ ⟨"h", by decide⟩ .plain] rfl
    ⟨0, "a", "f", .ok ()⟩ (.head _) rfl ⟨2, "a", "h", .ok ()⟩
  revert hsteady
  decide

end SharedTrust

end SelfKvm
