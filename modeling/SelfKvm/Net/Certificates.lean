/-
  The certificates behind an address (`kvm-net/src/tls.rs`, `fingerprint` and `TofuVerifier`, as
  `ClientRuntime::run` and `send_file` dial with it).

  A dial over TLS loads a trust store of its own, under the address as the identity.  When the
  handshake comes to the certificate of whoever answers, the verifier puts the fingerprint to the
  store; whatever else the handshake needs, the signature that proves the certificate is the
  answerer's among it, is checked elsewhere.  Sessions one after the other are `Net.Sessions`; here
  each of them is a dial, and the question is which certificates it takes.  Nobody asks whether the
  file could be read or written, so a dial says what its disk does.

  1. `fingerprint_injective`, `fingerprint_plain`: a fingerprint is as good as the digest, and can
     be written in the file and read back.

  2. `accepted_exactly`: while the disk works an address is bound to the first certificate that is
     shown there, whether or not the handshake in which it is shown succeeds.  A pin that is not
     written is forgotten with its dial (`forgotten`).

  3. `restart_locks_out`: a server makes a new certificate whenever it starts.  So the clients that
     know it are refused from its next start on, for good.
-/
import SelfKvm.Net.Sessions

namespace SelfKvm

/-! ## The code -/

/-- `{b:02x}`. -/
def hexByte (b : UInt8) : String :=
  String.ofList [Nat.digitChar (b.toNat / 16), Nat.digitChar (b.toNat % 16)]

/-- What becomes of a write. -/
inductive DiskWrite where
  | done
  /-- It fails, and leaves the file like this. -/
  | failed (left : Option String)

/-- What the trust file is good for while it is used. -/
structure Disk where
  /-- It can be read, if it is there. -/
  reads : Bool
  write : DiskWrite

/-- Nothing fails. -/
def Disk.working : Disk := { reads := true, write := .done }

/-- What a TLS connection meets at an address. -/
structure Dial where
  identity : PlainText
  /-- The certificate that the verifier is asked about, if the handshake comes that far. -/
  cert : Option (List UInt8)
  /-- The handshake wants nothing else. -/
  completes : Bool
  visit : Visit
  disk : Disk

inductive DialResult where
  | connected
  /-- The store refuses the certificate. -/
  | refused (reason : String)
  /-- Something else is wrong. -/
  | failed
  deriving DecidableEq

section Code

variable (sha256 : List UInt8 → List UInt8)

/-- The fingerprint of a DER certificate. -/
def fingerprint (cert : List UInt8) : String :=
  "SHA256:" ++ ":".intercalate ((sha256 cert).map hexByte)

structure TofuVerifier where
  identity : String
  store : FileTrustStore

/-- What is answered, the verifier afterwards, and the text written to the file, if any. -/
def TofuVerifier.verifyServerCert (v : TofuVerifier) (endEntity : List UInt8) (visit : Visit) :
    Except String Unit × TofuVerifier × Option String :=
  let (result, store, written) := v.store.check v.identity (fingerprint sha256 endEntity) visit
  (result, { v with store }, written)

/-- What `load` finds; a file that cannot be read is as good as none. -/
def Disk.read (disk : Disk) (file : Option String) : Option String :=
  if disk.reads then file else none

/-- The file after `persist` has written this text, if it has. -/
def Disk.after (disk : Disk) (file : Option String) : Option String → Option String
  | none => file
  | some text =>
    match disk.write with
    | .done => some text
    | .failed left => left

/-- A dial, from the file of the store before it to the one after it. -/
def dial (file : Option String) (d : Dial) : Option String × List DialResult :=
  let verifier : TofuVerifier := { identity := d.identity.text, store := .load (d.disk.read file) }
  match d.cert with
  | none => (file, [.failed])
  | some cert =>
    match verifier.verifyServerCert sha256 cert d.visit with
    | (.error reason, _, written) => (d.disk.after file written, [.refused reason])
    | (.ok (), _, written) =>
      (d.disk.after file written, [if d.completes then .connected else .failed])

end Code

/-! ## Fingerprints -/

/-- The digits of the sixteen values differ, and none is a separator or white. -/
theorem digitChar_inj {a b : Nat} (ha : a < 16) (hb : b < 16)
    (h : Nat.digitChar a = Nat.digitChar b) : a = b := by
  have hall : ∀ a b : Fin 16, Nat.digitChar a = Nat.digitChar b → a = b := by decide
  exact congrArg Fin.val (hall ⟨a, ha⟩ ⟨b, hb⟩ h)

theorem digitChar_plain {a : Nat} (ha : a < 16) :
    Nat.digitChar a ≠ ':' ∧ isWhitespace (Nat.digitChar a) = false := by
  have hall : ∀ a : Fin 16, Nat.digitChar a ≠ ':' ∧ isWhitespace (Nat.digitChar a) = false := by
    decide
  exact hall ⟨a, ha⟩

theorem hexByte_toList (b : UInt8) :
    (hexByte b).toList = [Nat.digitChar (b.toNat / 16), Nat.digitChar (b.toNat % 16)] :=
  String.toList_ofList

theorem hexByte_injective : Function.Injective hexByte := by
  intro b b' h
  have hlist := congrArg String.toList h
  rw [hexByte_toList, hexByte_toList] at hlist
  injection hlist with hhigh hlow
  injection hlow with hlow
  have hb := b.toNat_lt
  have hb' := b'.toNat_lt
  have hhigh := digitChar_inj (by omega) (by omega) hhigh
  have hlow := digitChar_inj (by omega) (by omega) hlow
  apply UInt8.toNat_inj.mp
  omega

theorem mem_hexByte {b : UInt8} {c : Char} (h : c ∈ (hexByte b).toList) :
    c ≠ ':' ∧ isWhitespace c = false := by
  have hb := b.toNat_lt
  rw [hexByte_toList, List.mem_cons, List.mem_singleton] at h
  rcases h with rfl | rfl
  · exact digitChar_plain (by omega)
  · exact digitChar_plain (by omega)

section Fingerprint

variable {sha256 : List UInt8 → List UInt8}

theorem fingerprint_toList (cert : List UInt8) :
    (fingerprint sha256 cert).toList =
      "SHA256:".toList ++ [':'].intercalate ((sha256 cert).map fun b => (hexByte b).toList) := by
  unfold fingerprint
  rw [String.toList_append, String.toList_intercalate, List.map_map]
  rfl

/-- **A fingerprint is as good as the digest.** -/
theorem fingerprint_injective {cert cert' : List UInt8} :
    fingerprint sha256 cert = fingerprint sha256 cert' ↔ sha256 cert = sha256 cert' := by
  refine ⟨fun h => ?_, fun h => by unfold fingerprint; rw [h]⟩
  have hpieces : ∀ bytes : List UInt8,
      ∀ p ∈ bytes.map fun b => (hexByte b).toList, p ≠ [] ∧ ':' ∉ p := by
    intro bytes p hp
    obtain ⟨b, -, rfl⟩ := List.mem_map.mp hp
    refine ⟨?_, fun hmem => (mem_hexByte hmem).1 rfl⟩
    rw [hexByte_toList]
    exact List.cons_ne_nil _ _
  have hlist := congrArg String.toList h
  rw [fingerprint_toList, fingerprint_toList] at hlist
  have hbytes := Text.join_injective (hpieces _) (hpieces _) (List.append_cancel_left hlist)
  exact List.map_injective_iff.mpr
    (fun b b' hb => hexByte_injective (String.toList_inj.mp hb)) hbytes

/-- **A fingerprint can be written and read back.** -/
theorem fingerprint_plain (sha256 : List UInt8 → List UInt8) (cert : List UInt8) :
    Plain (fingerprint sha256 cert) := by
  intro c hc
  rw [fingerprint_toList] at hc
  rcases List.mem_append.mp hc with hc | hc
  · have hname : Plain "SHA256:" := by decide
    exact hname c hc
  · rcases Text.mem_join hc with rfl | ⟨piece, hpiece, hmem⟩
    · rfl
    · obtain ⟨b, -, rfl⟩ := List.mem_map.mp hpiece
      exact (mem_hexByte hmem).2

end Fingerprint

/-! ## One dial -/

namespace Dial

variable {sha256 : List UInt8 → List UInt8} {file : Option String}

/-- What the file pins. -/
def pinned (file : Option String) (identity : String) : Option String :=
  (FileTrustStore.load file).mem.lookup identity

/-- The certificate that is shown at an address in this dial. -/
def shown (identity : String) (d : Dial) : Option (List UInt8) :=
  if d.identity.text = identity then d.cert else none

/-- The store refuses every certificate but the pinned one, and nothing is written. -/
theorem dial_known {d : Dial} {cert : List UInt8} {known : String} (hcert : d.cert = some cert)
    (hknown : pinned (d.disk.read file) d.identity.text = some known) :
    (dial sha256 file d).1 = file ∧ ((dial sha256 file d).2 = [.connected] ↔
      d.completes = true ∧ fingerprint sha256 cert = known) := by
  have hlookup : (FileTrustStore.load (d.disk.read file)).mem.lookup d.identity.text =
      some known := hknown
  unfold dial TofuVerifier.verifyServerCert FileTrustStore.check
  simp only [hcert, hlookup]
  by_cases hsame : known = fingerprint sha256 cert
  · simp only [if_pos hsame]
    refine ⟨rfl, ?_⟩
    cases d.completes with
    | true => exact ⟨fun _ => ⟨rfl, hsame.symm⟩, fun _ => rfl⟩
    | false => exact ⟨(fun h => by cases h), fun h => absurd h.1 Bool.false_ne_true⟩
  · simp only [if_neg hsame]
    exact ⟨rfl, (fun h => by cases h), fun h => absurd h.2.symm hsame⟩

/-- The first certificate shown is pinned, and that is written, if the write goes through. -/
theorem dial_first {d : Dial} {cert : List UInt8} (hcert : d.cert = some cert)
    (hnew : pinned (d.disk.read file) d.identity.text = none) :
    (dial sha256 file d).1 = d.disk.after file (some (FileTrustStore.persist
        ((FileTrustStore.load (d.disk.read file)).mem.insert d.identity.text
          (fingerprint sha256 cert)) d.visit)) ∧
      ((dial sha256 file d).2 = [.connected] ↔ d.completes = true) := by
  have hlookup : (FileTrustStore.load (d.disk.read file)).mem.lookup d.identity.text = none := hnew
  unfold dial TofuVerifier.verifyServerCert
  simp only [hcert, FileTrustStore.check_unknown hlookup]
  refine ⟨trivial, ?_⟩
  cases d.completes with
  | true => exact ⟨fun _ => rfl, fun _ => rfl⟩
  | false => exact ⟨(fun h => by cases h), fun h => absurd h Bool.false_ne_true⟩

/-- **What one dial pins** while its disk works: the certificate that it shows, if there is nothing
    pinned yet. -/
theorem pinned_dial (sha256 : List UInt8 → List UInt8) (file : Option String) {d : Dial}
    (hdisk : d.disk = .working) (identity : String) :
    pinned (dial sha256 file d).1 identity =
      (pinned file identity).or ((d.shown identity).map (fingerprint sha256)) := by
  have hread : d.disk.read file = file := by
    rw [hdisk]
    rfl
  cases hcert : d.cert with
  | none =>
    have hshown : d.shown identity = none := by
      unfold shown
      rw [hcert]
      exact ite_self none
    unfold dial
    simp only [hcert, hshown, Option.map_none, Option.or_none]
  | some cert =>
    cases hpinned : pinned file d.identity.text with
    | some known =>
      rw [(dial_known hcert (hread.symm ▸ hpinned)).1]
      by_cases hid : d.identity.text = identity
      · rw [← hid, hpinned, Option.some_or]
      · unfold shown
        rw [if_neg hid, Option.map_none, Option.or_none]
    | none =>
      rw [(dial_first hcert (hread.symm ▸ hpinned)).1, hread, hdisk]
      show pinned (some _) identity = _
      have hwritable := (FileTrustStore.load_writable file).insert
        (d.identity.plain.writable (fingerprint_plain sha256 cert))
      unfold pinned at hpinned ⊢
      unfold shown
      rw [FileTrustStore.load_persist hwritable]
      by_cases hid : d.identity.text = identity
      · rw [← hid, AList.lookup_insert, hpinned, Option.none_or, if_pos rfl, hcert]
        rfl
      · rw [AList.lookup_insert_ne (Ne.symm hid), if_neg hid, Option.map_none, Option.or_none]

/-- **When a dial connects**: its certificate is the pinned one, if it finds one pinned. -/
theorem dial_connected (sha256 : List UInt8 → List UInt8) (file : Option String) (d : Dial) :
    (dial sha256 file d).2 = [.connected] ↔ d.completes = true ∧ ∃ cert, d.cert = some cert ∧
      ∀ known, pinned (d.disk.read file) d.identity.text = some known →
        fingerprint sha256 cert = known := by
  cases hcert : d.cert with
  | none =>
    unfold dial
    simp only [hcert]
    refine ⟨(fun h => by cases h), ?_⟩
    rintro ⟨-, cert, hnone, -⟩
    cases hnone
  | some cert =>
    cases hpinned : pinned (d.disk.read file) d.identity.text with
    | some known =>
      rw [(dial_known hcert hpinned).2]
      refine and_congr_right fun _ => ⟨fun h => ⟨cert, rfl, ?_⟩, ?_⟩
      · rintro _ ⟨⟩
        exact h
      · rintro ⟨_, ⟨⟩, h⟩
        exact h known rfl
    | none =>
      rw [(dial_first hcert hpinned).2]
      refine ⟨fun h => ⟨h, cert, rfl, ?_⟩, fun h => h.1⟩
      rintro known hknown
      cases hknown

/-! ## Dial after dial -/

/-- The first certificate that is shown at an address. -/
def firstShown (identity : String) (dials : List Dial) : Option (List UInt8) :=
  dials.findSome? (shown identity)

/-- **What is pinned after any dials**: what was, or else the first certificate shown. -/
theorem pinned_run (sha256 : List UInt8 → List UInt8) (file : Option String) {dials : List Dial}
    (hdisks : ∀ d ∈ dials, d.disk = .working) (identity : String) :
    pinned (Mealy.run (dial sha256) file dials).1 identity =
      (pinned file identity).or ((firstShown identity dials).map (fingerprint sha256)) := by
  unfold firstShown
  induction dials generalizing file with
  | nil =>
    rw [List.findSome?_nil, Option.map_none, Option.or_none]
    rfl
  | cons d dials ih =>
    rw [Mealy.run_cons, ih _ fun d' hd' => hdisks d' (List.mem_cons_of_mem d hd'),
      pinned_dial _ _ (hdisks d List.mem_cons_self), Option.or_assoc]
    congr 1
    rw [List.findSome?_cons]
    cases d.shown identity with
    | none => exact Option.none_or
    | some cert => rfl

/-- **An address is bound to the first certificate shown there.**  Let a client dial any addresses,
    one after the other, whoever answers, and let its disk work.  If the file it begins with pins
    nothing at an address, a dial there connects exactly if the rest of its handshake succeeds and
    its certificate has the digest of the first one that was shown there, in this dial or in an
    earlier one, whether or not the handshake of that one succeeded.  If the file pins something
    there, the certificate's fingerprint must be that, whatever was shown. -/
theorem accepted_exactly (sha256 : List UInt8 → List UInt8) (file : Option String)
    (dials : List Dial) (d : Dial) (hdisks : ∀ d' ∈ dials, d'.disk = .working)
    (hreads : d.disk.reads = true) :
    ((dial sha256 (Mealy.run (dial sha256) file dials).1 d).2 = [.connected] ↔
      d.completes = true ∧ ∃ cert, d.cert = some cert ∧
        match pinned file d.identity.text with
        | some known => fingerprint sha256 cert = known
        | none => ∀ first, firstShown d.identity.text dials = some first →
          sha256 cert = sha256 first) := by
  have hread : ∀ file, d.disk.read file = file := fun _ => if_pos hreads
  rw [dial_connected, hread, pinned_run _ _ hdisks]
  refine and_congr_right fun _ => exists_congr fun cert => and_congr_right fun _ => ?_
  cases pinned file d.identity.text with
  | some known =>
    rw [Option.some_or]
    exact ⟨fun h => h known rfl, fun h _ hknown => h.trans (Option.some.inj hknown)⟩
  | none =>
    rw [Option.none_or]
    cases firstShown d.identity.text dials with
    | none => exact ⟨(fun _ _ h => by cases h), (fun _ _ h => by cases h)⟩
    | some first =>
      refine ⟨fun h _ hfirst => ?_, fun h _ hknown => ?_⟩
      · obtain rfl := Option.some.inj hfirst
        exact fingerprint_injective.mp (h _ rfl)
      · obtain rfl := Option.some.inj hknown
        exact fingerprint_injective.mpr (h first rfl)

/-- SHA-256, of two short certificates. -/
def sampleDigest (cert : List UInt8) : List UInt8 :=
  if cert = [48, 1, 0] then
    [237, 200, 193, 239, 169, 179, 169, 220, 8, 185, 93, 208, 35, 100, 114, 190,
      33, 103, 196, 235, 73, 148, 252, 30, 221, 163, 62, 141, 238, 252, 26, 69]
  else
    [157, 176, 132, 126, 15, 190, 196, 98, 109, 241, 204, 133, 154, 44, 6, 38,
      25, 232, 229, 219, 143, 171, 24, 60, 91, 249, 217, 119, 149, 90, 251, 77]

/-- An answerer that fails its first handshake is the one that is known from then on. -/
theorem accepted_exactly_failed :
    let identity : PlainText := ⟨"studio:24800", by decide⟩
    let first : Dial := ⟨identity, some [48, 1, 0], false, .plain, .working⟩
    let second : Dial := ⟨identity, some [48, 1, 1], true, .plain, .working⟩
    (dial sampleDigest (Mealy.run (dial sampleDigest) none [first]).1 second).2 ≠
      [.connected] := by
  intro identity first second hconnected
  have hdisks : ∀ d ∈ [first], d.disk = .working := by
    rintro d hd
    rw [List.mem_singleton.mp hd]
  obtain ⟨-, cert, hcert, hdigest⟩ :=
    (accepted_exactly sampleDigest none [first] second hdisks rfl).mp hconnected
  obtain rfl := Option.some.inj hcert
  have hhead : (some 157 : Option UInt8) = some 237 := congrArg List.head? (hdigest _ rfl)
  exact absurd hhead (by decide)

/-- **A pin that is not written is forgotten**: the dial says nothing of it, and the next one takes
    whatever it is shown. -/
theorem forgotten (sha256 : List UInt8 → List UInt8) {d d' : Dial} {cert cert' : List UInt8}
    (hcert : d.cert = some cert) (hcert' : d'.cert = some cert')
    (hwrite : d.disk.write = .failed none) :
    (dial sha256 (dial sha256 none d).1 d').2 = [.connected] ↔ d'.completes = true := by
  have hempty : ∀ disk : Disk, disk.read none = none := fun disk => ite_self none
  have hnew : ∀ {d : Dial}, pinned (d.disk.read none) d.identity.text = none := by
    intro d
    rw [hempty]
    rfl
  have hfile : (dial sha256 none d).1 = none := by
    rw [(dial_first hcert hnew).1]
    unfold Disk.after
    rw [hwrite]
  rw [hfile]
  exact (dial_first hcert' hnew).2

end Dial

/-! ## A server that starts again -/

/-- What happens at the address of a server. -/
inductive SiteMove where
  /-- The server starts again, and `server_acceptor` makes it a new certificate. -/
  | restart
  /-- The client dials, and it is the server that answers. -/
  | dial (visit : Visit) (disk : Disk)

/-- A server at its run number `run`, and the file of a client. -/
structure Site where
  run : Nat
  file : Option String

/-- How often the server starts again. -/
def restarts (moves : List SiteMove) : Nat :=
  moves.countP fun
    | .restart => true
    | .dial .. => false

namespace Site

variable (sha256 : List UInt8 → List UInt8) (identity : PlainText) (certs : Nat → List UInt8)

/-- The client dials the server in its run `run`. -/
def dialing (run : Nat) (visit : Visit) (disk : Disk) : Dial :=
  { identity, cert := some (certs run), completes := true, visit, disk }

def step (s : Site) : SiteMove → Site × List DialResult
  | .restart => ({ s with run := s.run + 1 }, [])
  | .dial visit disk =>
    let (file, result) := SelfKvm.dial sha256 s.file (dialing identity certs s.run visit disk)
    ({ s with file }, result)

/-- The client's dials. -/
def dials (run : Nat) : List SiteMove → List Dial
  | [] => []
  | .restart :: moves => dials (run + 1) moves
  | .dial visit disk :: moves => dialing identity certs run visit disk :: dials run moves

variable {identity certs}

/-- A run is one of its dials. -/
theorem run_dials (s : Site) (moves : List SiteMove) :
    (Mealy.run (step sha256 identity certs) s moves).1 =
      ⟨s.run + restarts moves,
        (Mealy.run (SelfKvm.dial sha256) s.file (dials identity certs s.run moves)).1⟩ := by
  induction moves generalizing s with
  | nil => rfl
  | cons move moves ih =>
    rw [Mealy.run_cons, ih]
    cases move with
    | restart =>
      have hcount : restarts (.restart :: moves) = restarts moves + 1 :=
        List.countP_cons_of_pos rfl
      show Site.mk (s.run + 1 + restarts moves) _ = _
      rw [hcount, Nat.add_assoc, Nat.add_comm 1]
      rfl
    | dial visit disk =>
      have hcount : restarts (.dial visit disk :: moves) = restarts moves :=
        List.countP_cons_of_neg Bool.false_ne_true
      rw [hcount, dials, Mealy.run_cons]
      rfl

/-- The disk of a dial is that of one of the moves. -/
theorem mem_dials {run : Nat} {moves : List SiteMove} {d : Dial}
    (h : d ∈ dials identity certs run moves) : ∃ visit, .dial visit d.disk ∈ moves := by
  induction moves generalizing run with
  | nil => cases h
  | cons move moves ih =>
    cases move with
    | restart =>
      obtain ⟨visit, hmem⟩ := ih h
      exact ⟨visit, List.mem_cons_of_mem _ hmem⟩
    | dial visit disk =>
      rcases List.mem_cons.mp h with rfl | h
      · exact ⟨visit, List.mem_cons_self⟩
      · obtain ⟨visit', hmem⟩ := ih h
        exact ⟨visit', List.mem_cons_of_mem _ hmem⟩

theorem dials_replicate (run n : Nat) (moves : List SiteMove) :
    dials identity certs run (List.replicate n .restart ++ moves) =
      dials identity certs (run + n) moves := by
  induction n generalizing run with
  | zero => rfl
  | succ n ih =>
    rw [List.replicate_succ, List.cons_append, dials, ih, Nat.add_assoc, Nat.add_comm 1]

theorem restarts_replicate (n : Nat) (moves : List SiteMove) :
    restarts (List.replicate n .restart ++ moves) = n + restarts moves := by
  unfold restarts
  rw [List.countP_append, List.countP_replicate]
  rfl

/-- **A restart locks the clients out.**  Let a client that knows nothing of a server dial it for
    the first time in some run of the server, and let the two go on as they like, the client's disk
    working.  The client then connects exactly while the server shows a certificate with the digest
    of the one it had in that run.  Each start makes a new one, so from the next start on the client
    is refused. -/
theorem restart_locks_out (sha256 : List UInt8 → List UInt8) (identity : PlainText)
    (certs : Nat → List UInt8) (file : Option String)
    (hnew : Dial.pinned file identity.text = none) (first : Nat) (visit : Visit)
    (later : List SiteMove) (hdisks : ∀ visit disk, .dial visit disk ∈ later → disk = .working)
    (visit' : Visit) (disk : Disk) (hreads : disk.reads = true) :
    let site := (Mealy.run (step sha256 identity certs) ⟨0, file⟩
      (List.replicate first .restart ++ .dial visit .working :: later)).1
    (site.step sha256 identity certs (.dial visit' disk)).2 = [.connected] ↔
      sha256 (certs (first + restarts later)) = sha256 (certs first) := by
  intro site
  have hsite : site = ⟨0 + restarts _, (Mealy.run (SelfKvm.dial sha256) file
      (dials identity certs 0 _)).1⟩ := run_dials sha256 ⟨0, file⟩ _
  have hrun : site.run = first + restarts later := by
    rw [hsite]
    show 0 + restarts _ = _
    rw [Nat.zero_add, restarts_replicate]
    rfl
  have hworking : ∀ d ∈ dials identity certs first (.dial visit .working :: later),
      d.disk = .working := by
    intro d hd
    obtain ⟨visit', hmem⟩ := mem_dials hd
    rcases List.mem_cons.mp hmem with heq | hmem
    · injection heq
    · exact hdisks visit' d.disk hmem
  have hpinned : Dial.pinned site.file identity.text = some (fingerprint sha256 (certs first)) := by
    rw [hsite]
    show Dial.pinned (Mealy.run _ _ _).1 _ = _
    rw [dials_replicate, Nat.zero_add, Dial.pinned_run _ _ hworking, hnew, Option.none_or]
    unfold dials Dial.firstShown
    have hshown : Dial.shown identity.text (dialing identity certs first visit .working) =
        some (certs first) := if_pos rfl
    rw [List.findSome?_cons, hshown]
    rfl
  have hstep : (site.step sha256 identity certs (.dial visit' disk)).2 =
      (SelfKvm.dial sha256 site.file (dialing identity certs site.run visit' disk)).2 := rfl
  have hread : (dialing identity certs site.run visit' disk).disk.read site.file = site.file :=
    if_pos hreads
  rw [hstep, Dial.dial_connected, hread, hrun]
  constructor
  · rintro ⟨-, cert, hcert, hknown⟩
    obtain rfl := Option.some.inj hcert
    exact fingerprint_injective.mp (hknown _ hpinned)
  · intro hdigest
    refine ⟨rfl, _, rfl, fun known hknown => ?_⟩
    obtain rfl := Option.some.inj (hpinned.symm.trans hknown)
    exact fingerprint_injective.mpr hdigest

/-- Of two runs of a server, the client that knows the first does not take the second. -/
theorem restart_locks_out_second :
    let identity : PlainText := ⟨"studio:24800", by decide⟩
    let certs : Nat → List UInt8 := fun run => [48, 1, UInt8.ofNat run]
    let site := (Mealy.run (step Dial.sampleDigest identity certs) ⟨0, none⟩
      (List.replicate 0 .restart ++ [.dial .plain .working, .restart])).1
    (site.step Dial.sampleDigest identity certs (.dial .plain .working)).2 ≠ [.connected] := by
  intro identity certs site hconnected
  have hdisks : ∀ visit disk, .dial visit disk ∈ [SiteMove.restart] → disk = .working := by
    intro visit disk hmem
    cases List.mem_singleton.mp hmem
  have hdigest := (restart_locks_out Dial.sampleDigest identity certs none rfl 0 .plain [.restart]
    hdisks .plain .working rfl).mp hconnected
  have hhead : (some 157 : Option UInt8) = some 237 := congrArg List.head? hdigest
  exact absurd hhead (by decide)

end Site

end SelfKvm
