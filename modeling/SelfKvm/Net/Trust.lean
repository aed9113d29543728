/-
  Trust on first use, in a file (`kvm-net/src/tls.rs`, `FileTrustStore`).

  A store is a map from identities to fingerprints.  `load` reads it from the file's text, `check`
  accepts what is pinned, refuses a changed fingerprint, and pins what it sees for the first time;
  then `persist` writes the whole map over the file.  Every store keeps a map of its own, and a
  store is loaded for every connection, so any number of them live side by side over one file.

  `load_persist` is the round trip of the text: a map that can be written is read back, whatever
  order its entries were visited in.  What several stores do to each other is in `TrustRuns`.
-/
import Mathlib.Data.List.AList
import SelfKvm.Base.Text
import SelfKvm.Core.FileTransfer

namespace SelfKvm

/-! ## The code -/

/-- Identities and the fingerprints pinned to them. -/
abbrev Pins : Type := AList fun _ : String => String

/-- One pin. -/
abbrev Pin : Type := Sigma fun _ : String => String

/-- The order in which a `HashMap` hands out its entries: unspecified, and another at every call. -/
structure Visit where
  order : List Pin → List Pin
  perm : ∀ l, (order l).Perm l

/-- The order of the model's own map. -/
def Visit.plain : Visit := ⟨id, fun _ => .refl _⟩

/-- One instance; its path is the same for all. -/
structure FileTrustStore where
  mem : Pins

namespace FileTrustStore

/-- Read one line; a line without a separator says nothing. -/
def loadLine (pins : Pins) (line : List Char) : Pins :=
  match Text.splitOnce isWhitespace line with
  | some (id, fp) =>
    pins.insert (String.ofList (Text.trim isWhitespace id)) (String.ofList (Text.trim isWhitespace fp))
  | none => pins

/-- Load trusted fingerprints; a missing file gives an empty store. -/
def load (file : Option String) : FileTrustStore :=
  match file with
  | some text => ⟨(Text.lines text.toList).foldl loadLine ∅⟩
  | none => ⟨∅⟩

/-- `{k} {v}` and a line feed. -/
def renderLine (pin : Pin) : List Char := pin.1.toList ++ ' ' :: pin.2.toList ++ ['\n']

/-- The text that replaces the file's. -/
def persist (map : Pins) (visit : Visit) : String :=
  String.ofList ((visit.order map.entries).flatMap renderLine)

/-- What is answered, the store afterwards, and the text written, if any. -/
def check (store : FileTrustStore) (identity fingerprint : String) (visit : Visit) :
    Except String Unit × FileTrustStore × Option String :=
  match store.mem.lookup identity with
  | some known =>
    if known = fingerprint then
      (.ok (), store, none)
    else
      (.error s!"fingerprint changed for {identity}: trusted {known}, got {fingerprint}", store, none)
  | none =>
    let map := store.mem.insert identity fingerprint
    (.ok (), ⟨map⟩, some (persist map visit))

/-- **A store never changes its mind**: a pinned identity is accepted with its own fingerprint only,
    and nothing is written. -/
theorem check_pinned {store : FileTrustStore} {identity known : String}
    (h : store.mem.lookup identity = some known) (fingerprint : String) (visit : Visit) :
    (store.check identity fingerprint visit).2 = (store, none) ∧
      ((store.check identity fingerprint visit).1 = .ok () ↔ fingerprint = known) := by
  unfold check
  simp only [h]
  by_cases hknown : known = fingerprint
  · rw [if_pos hknown]
    exact ⟨rfl, fun _ => hknown.symm, fun _ => rfl⟩
  · rw [if_neg hknown]
    refine ⟨rfl, fun hok => ?_, fun heq => absurd heq.symm hknown⟩
    cases hok

/-- What is seen for the first time is accepted, pinned and written. -/
theorem check_unknown {store : FileTrustStore} {identity : String}
    (h : store.mem.lookup identity = none) (fingerprint : String) (visit : Visit) :
    store.check identity fingerprint visit =
      (.ok (), ⟨store.mem.insert identity fingerprint⟩,
        some (persist (store.mem.insert identity fingerprint) visit)) := by
  unfold check
  simp only [h]

end FileTrustStore

/-! ## What can be written -/

/-- Free of whitespace, as identities (`host:port`) and fingerprints are. -/
def Plain (s : String) : Prop := ∀ c ∈ s.toList, isWhitespace c = false

instance (s : String) : Decidable (Plain s) := List.decidableBAll _ s.toList

/-- A pin whose line can be read back: its identity is plain, its fingerprint one trimmed line. -/
structure WritablePin (identity fingerprint : String) : Prop where
  plain : Plain identity
  one_line : '\n' ∉ fingerprint.toList
  trimmed : Text.Trimmed isWhitespace fingerprint.toList

/-- A map of such pins. -/
def Writable (pins : Pins) : Prop :=
  ∀ identity fingerprint, pins.lookup identity = some fingerprint →
    WritablePin identity fingerprint

theorem Plain.writable {identity fingerprint : String} (hid : Plain identity)
    (hfp : Plain fingerprint) : WritablePin identity fingerprint := by
  refine ⟨hid, ?_, Text.trimmed_of_forall hfp⟩
  intro hmem
  exact absurd (hfp '\n' hmem) (by decide)

theorem Writable.empty : Writable ∅ := by
  intro identity fingerprint h
  rw [AList.lookup_empty] at h
  cases h

theorem Writable.insert {pins : Pins} (h : Writable pins) {identity fingerprint : String}
    (hpin : WritablePin identity fingerprint) : Writable (pins.insert identity fingerprint) := by
  intro id fp hlookup
  by_cases hid : id = identity
  · subst hid
    rw [AList.lookup_insert] at hlookup
    injection hlookup with hlookup
    rw [← hlookup]
    exact hpin
  · rw [AList.lookup_insert_ne hid] at hlookup
    exact h id fp hlookup

namespace FileTrustStore

/-- A line that is read gives a pin that can be written. -/
theorem loadLine_writable {pins : Pins} (h : Writable pins) {line : List Char}
    (hline : '\n' ∉ line) : Writable (loadLine pins line) := by
  unfold loadLine
  cases hsplit : Text.splitOnce isWhitespace line with
  | none => exact h
  | some parts =>
    obtain ⟨id, fp⟩ := parts
    obtain ⟨hid, hfp⟩ := Text.splitOnce_eq_some hsplit
    refine h.insert ⟨?_, ?_, ?_⟩
    · intro c hc
      rw [String.toList_ofList] at hc
      exact hid c (Text.mem_trim hc)
    · rw [String.toList_ofList]
      exact fun hmem => hline (hfp _ (Text.mem_trim hmem))
    · rw [String.toList_ofList]
      exact Text.trimmed_trim fp

/-- **What is loaded can be written again**, whatever the file holds. -/
theorem load_writable (file : Option String) : Writable (load file).mem := by
  have hfold : ∀ (ls : List (List Char)) (pins : Pins), (∀ l ∈ ls, '\n' ∉ l) → Writable pins →
      Writable (ls.foldl loadLine pins) := by
    intro ls
    induction ls with
    | nil => exact fun pins _ h => h
    | cons l ls ih =>
      intro pins hls h
      exact ih _ (fun l' hl' => hls l' (List.mem_cons_of_mem l hl'))
        (loadLine_writable h (hls l List.mem_cons_self))
  cases file with
  | none => exact Writable.empty
  | some text => exact hfold _ ∅ (fun l hl => Text.not_mem_lines hl) Writable.empty

/-! ## The round trip -/

/-- The line of a pin reads as that pin. -/
theorem loadLine_renderLine (pins : Pins) {identity fingerprint : String}
    (h : WritablePin identity fingerprint) :
    loadLine pins (identity.toList ++ ' ' :: fingerprint.toList) =
      pins.insert identity fingerprint := by
  unfold loadLine
  rw [Text.splitOnce_joined fingerprint.toList h.plain (by decide)]
  simp only
  rw [Text.trim_of_trimmed (Text.trimmed_of_forall h.plain), Text.trim_of_trimmed h.trimmed,
    String.ofList_toList, String.ofList_toList]

/-- The lines that were written, read one after the other. -/
theorem foldl_lines_render {pins : List Pin} (h : ∀ p ∈ pins, WritablePin p.1 p.2) (acc : Pins) :
    (Text.lines (pins.flatMap renderLine)).foldl loadLine acc =
      pins.foldl (fun map p => map.insert p.1 p.2) acc := by
  induction pins generalizing acc with
  | nil => rfl
  | cons p pins ih =>
    have hp := h p List.mem_cons_self
    have hline : '\n' ∉ p.1.toList ++ ' ' :: p.2.toList := by
      intro hmem
      rcases List.mem_append.mp hmem with hmem | hmem
      · exact absurd (hp.plain '\n' hmem) (by decide)
      · rcases List.mem_cons.mp hmem with hmem | hmem
        · exact absurd hmem (by decide)
        · exact hp.one_line hmem
    have hlast : (p.1.toList ++ ' ' :: p.2.toList).getLast? ≠ some '\r' := by
      rw [List.getLast?_append, List.getLast?_cons, Option.some_or]
      intro hcr
      injection hcr with hcr
      cases hv : p.2.toList.getLast? with
      | none =>
        rw [hv] at hcr
        exact absurd hcr (by decide)
      | some c =>
        rw [hv] at hcr
        exact absurd (hp.trimmed.2 c hv) (by rw [show c = '\r' from hcr]; decide)
    have hcons : (p :: pins).flatMap renderLine =
        (p.1.toList ++ ' ' :: p.2.toList) ++ '\n' :: pins.flatMap renderLine := by
      rw [List.flatMap_cons]
      unfold renderLine
      rw [List.append_assoc, List.singleton_append]
    rw [hcons, Text.lines_cons_line _ hline hlast, List.foldl_cons, loadLine_renderLine acc hp,
      ih fun q hq => h q (List.mem_cons_of_mem p hq)]
    rfl

theorem lookup_foldl_insert {pins : List Pin} (h : pins.NodupKeys) (acc : Pins) (id : String) :
    (pins.foldl (fun map p => map.insert p.1 p.2) acc).lookup id =
      (pins.dlookup id).or (acc.lookup id) := by
  induction pins generalizing acc with
  | nil => rfl
  | cons p pins ih =>
    obtain ⟨k, v⟩ := p
    obtain ⟨hk, hpins⟩ := List.nodupKeys_cons.mp h
    rw [List.foldl_cons, ih hpins]
    by_cases hid : id = k
    · subst hid
      rw [List.dlookup_cons_eq, List.dlookup_eq_none.mpr hk, AList.lookup_insert]
      rfl
    · rw [List.dlookup_cons_ne _ _ hid, AList.lookup_insert_ne hid]

/-- **The text round-trips**: what is written is read back, in whatever order it was written. -/
theorem load_persist {pins : Pins} (h : Writable pins) (visit : Visit) (id : String) :
    (load (some (persist pins visit))).mem.lookup id = pins.lookup id := by
  have hperm := visit.perm pins.entries
  have hkeys : (visit.order pins.entries).NodupKeys :=
    (List.perm_nodupKeys hperm).mpr pins.nodupKeys
  have hpins : ∀ p ∈ visit.order pins.entries, WritablePin p.1 p.2 := by
    intro p hp
    exact h p.1 p.2 (AList.mem_lookup_iff.mpr (hperm.mem_iff.mp hp))
  show ((Text.lines (persist pins visit).toList).foldl loadLine ∅).lookup id = _
  unfold persist
  rw [String.toList_ofList, foldl_lines_render hpins, lookup_foldl_insert hkeys,
    AList.lookup_empty, Option.or_none, List.perm_dlookup id hkeys hperm]
  rfl

end FileTrustStore

end SelfKvm
