/-
  What a sender that returned `Ok` has sent.

  Nothing is assumed of the file here: reads may be short, fail, or end and go on.  But `send_framed`
  returns `Ok` only after a loop that ended on an empty read, with every send done and the total
  equal to the declared size, and then what went out is an offer followed by an honest stream
  (`sendFramed_ok`), so that a receiver that hears it has the whole file (`Sent.heard`).
-/
import SelfKvm.Daemon.HonestTransfer
import SelfKvm.Daemon.Publish

namespace SelfKvm

open Source Session

/-! ## The sender -/

theorem send_eq_ok {m : Message} {c c' : Conn} {u : Unit} (h : send m c = (.ok u, c')) :
    c'.out = c.out ++ [m] ∧ c'.inbox = c.inbox := by
  unfold send at h
  rcases hf : c.faults with _ | ⟨_ | e, faults⟩
  · rw [hf] at h
    obtain ⟨-, rfl⟩ := Prod.mk.inj h
    exact ⟨rfl, rfl⟩
  · rw [hf] at h
    obtain ⟨-, rfl⟩ := Prod.mk.inj h
    exact ⟨rfl, rfl⟩
  · rw [hf] at h
    cases (Prod.mk.inj h).1

/-- A session that succeeds does so in both its parts. -/
theorem bind_eq_ok {α β : Type} {x : Session α} {f : α → Session β} {c c' : Conn} {b : β}
    (h : (x >>= f) c = (.ok b, c')) : ∃ a c₁, x c = (.ok a, c₁) ∧ f a c₁ = (.ok b, c') := by
  rw [bind_apply] at h
  rcases hx : x c with ⟨e | a, c₁⟩
  · rw [hx] at h
    cases (Prod.mk.inj h).1
  · rw [hx] at h
    exact ⟨a, c₁, rfl, h⟩

theorem awaitAccept_ok {c c' : Conn} {u : Unit} (h : awaitAccept c = (.ok u, c')) :
    c'.out = c.out ∧ ∃ id inbox, c.inbox = .ok (.fileAccept id true) :: inbox := by
  have hout := awaitAccept_out c
  rw [h] at hout
  refine ⟨hout, ?_⟩
  unfold awaitAccept at h
  obtain ⟨m, c₁, hrecv, hm⟩ := bind_eq_ok h
  unfold recv at hrecv
  rcases hi : c.inbox with _ | ⟨e | m', inbox⟩
  · rw [hi] at hrecv
    cases (Prod.mk.inj hrecv).1
  · rw [hi] at hrecv
    cases (Prod.mk.inj hrecv).1
  · rw [hi] at hrecv
    obtain ⟨hm', -⟩ := Prod.mk.inj hrecv
    cases hm'
    cases m with
    | fileAccept id accept =>
      cases accept with
      | true => exact ⟨id, inbox, rfl⟩
      | false => cases (Prod.mk.inj hm).1
    | _ => cases (Prod.mk.inj hm).1

/-- **A loop that ended well** has sent numbered nonempty chunks, fewer than `2^32` in all, and
    counted their bytes. -/
theorem sendChunks_ok (id : UInt32) (cs : Nat) (reader : Incoming) {k : Nat} (hk : k < 2 ^ 32)
    (sent : Nat) {c c' : Conn} {seq' : UInt32} {sent' : UInt64}
    (h : sendChunks id cs reader (UInt32.ofNat k) (UInt64.ofNat sent) c = (.ok (seq', sent'), c')) :
    ∃ datas : List (List UInt8), c'.out = c.out ++ chunkMsgs id k datas ∧
      (∀ d ∈ datas, 0 < d.length ∧ d.length ≤ cs) ∧ k + datas.length < 2 ^ 32 ∧
      seq' = UInt32.ofNat (k + datas.length) ∧
      sent' = UInt64.ofNat (sent + datas.flatten.length) := by
  induction hw : weight reader using Nat.strongRecOn generalizing reader k sent c with
  | ind w ih =>
    rcases hfill : fill reader cs with ⟨e | block, reader'⟩
    · rw [sendChunks_error hfill] at h
      cases (Prod.mk.inj h).1
    · rcases Nat.eq_zero_or_pos block.length with hempty | hblock
      · -- the end of the file
        rw [List.eq_nil_of_length_eq_zero hempty] at hfill
        rw [sendChunks_done hfill] at h
        obtain ⟨hr, rfl⟩ := Prod.mk.inj h
        injection hr with hr
        obtain ⟨rfl, rfl⟩ := Prod.mk.inj hr
        exact ⟨[], (List.append_nil _).symm, (fun d hd => by cases hd), hk, rfl, rfl⟩
      · have hknat : (UInt32.ofNat k).toNat = k := UInt32.toNat_ofNat_of_lt' hk
        rw [sendChunks_step hfill hblock] at h
        obtain ⟨u, c₁, hsend, hrest⟩ := bind_eq_ok h
        rw [hknat] at hrest
        obtain ⟨hout, -⟩ := send_eq_ok hsend
        by_cases hlast : k + 1 ≥ 2 ^ 32
        · rw [if_pos hlast] at hrest
          cases (Prod.mk.inj hrest).1
        · rw [if_neg hlast, ofNat_succ, ofNat_add_ofNat] at hrest
          have hlt : weight reader' < w := hw ▸ readLoop_weight_lt hfill hblock
          obtain ⟨datas, hout', hbounds, hcount, rfl, rfl⟩ :=
            ih _ hlt reader' (by omega) _ hrest rfl
          refine ⟨block :: datas, ?_, ?_, ?_, ?_, ?_⟩
          · rw [hout', hout, chunkMsgs, List.append_assoc, List.singleton_append]
          · intro d hd
            rcases List.mem_cons.mp hd with rfl | hd
            · exact ⟨hblock, readLoop_length_le hfill⟩
            · exact hbounds d hd
          · rw [List.length_cons]
            omega
          · rw [List.length_cons, Nat.add_assoc, Nat.add_comm 1]
          · rw [List.flatten_cons, List.length_append, Nat.add_assoc]

/-- **What went out when `send_framed` returned `Ok`**: the offer, and after it an honest stream of the
    declared size; and the receiver's first answer was to accept. -/
theorem sendFramed_ok {id : UInt32} {name : String} {size : UInt64} {reader : Incoming}
    {chunkSize : Nat} {c c' : Conn} {u : Unit} (hc : c.out = [])
    (h : sendFramed id name size reader chunkSize c = (.ok u, c')) :
    (∃ id' inbox, c.inbox = .ok (.fileAccept id' true) :: inbox) ∧
      ∃ datas : List (List UInt8),
        c'.out = offerMsg id name size ::
          (chunkMsgs id 0 datas ++ [endMsg id (UInt32.ofNat datas.length)]) ∧
        ∀ stream, Begins stream c'.out → stream 0 = .ok (offerMsg id name size) ∧
          HonestStream id size (afterOffer stream) datas := by
  unfold sendFramed at h
  obtain ⟨_, c₁, hoffer, h⟩ := bind_eq_ok h
  obtain ⟨_, c₂, haccept, h⟩ := bind_eq_ok h
  obtain ⟨⟨seq, sent⟩, c₃, hloop, h⟩ := bind_eq_ok h
  obtain ⟨hout₁, hinbox₁⟩ := send_eq_ok hoffer
  obtain ⟨hout₂, id', inbox, hinbox₂⟩ := awaitAccept_ok haccept
  have hcs := clampChunk_le chunkSize
  obtain ⟨datas, hout₃, hbounds, hcount, rfl, rfl⟩ :=
    sendChunks_ok id (clampChunk chunkSize) reader (k := 0) (by decide) 0 hloop
  simp only [Nat.zero_add] at hcount h
  by_cases hsize : UInt64.ofNat datas.flatten.length ≠ size
  · rw [if_pos hsize] at h
    cases (Prod.mk.inj h).1
  · rw [if_neg hsize] at h
    obtain ⟨hout, -⟩ := send_eq_ok h
    have hall : c'.out = offerMsg id name size ::
        (chunkMsgs id 0 datas ++ [endMsg id (UInt32.ofNat datas.length)]) := by
      rw [hout, hout₃, hout₂, hout₁, hc]
      simp only [List.nil_append, List.cons_append]
    refine ⟨⟨id', inbox, hinbox₁ ▸ hinbox₂⟩, datas, hall, fun stream hbegins => ?_⟩
    rw [hall] at hbegins
    refine ⟨hbegins 0 _ rfl, fun i m hm => hbegins (i + 1) m hm,
      fun d hd => ⟨(hbounds d hd).1, Nat.le_trans (hbounds d hd).2 hcs⟩, ?_, by omega⟩
    -- the count does not wrap
    have hle := FileReassembler.length_flatten_le fun d hd =>
      Nat.le_trans (hbounds d hd).2 hcs
    have hbound : datas.length * maxChunkSize ≤ (2 ^ 32 - 1) * maxChunkSize :=
      Nat.mul_le_mul_right _ (by omega)
    have hconst : (2 ^ 32 - 1) * maxChunkSize < 2 ^ 54 := by decide
    have hsent : UInt64.ofNat datas.flatten.length = size := not_not.mp hsize
    rw [← hsent]
    exact (UInt64.toNat_ofNat_of_lt' (show datas.flatten.length < 2 ^ 64 by omega)).symm

/-! ## The receiver -/

/-- A transfer its sender reports as sent: `send_framed` has put `msgs` out and returned `Ok`, having
    been answered what the receiver answers, and the receiver's stream begins with `msgs`. -/
def Sent (sizeLimit : UInt64) (stream : Nat → Except TransferError Message)
    (msgs : List Message) : Prop :=
  ∃ id name size reader chunkSize faults reply c',
    (onOffer sizeLimit (stream 0)).2 = some reply ∧
    sendFramed id name size reader chunkSize ⟨[], faults, [.ok reply]⟩ = (.ok (), c') ∧
    c'.out = msgs ∧ Begins stream msgs

/-- **The receiver has the whole file with the last message, and no error before.** -/
theorem Sent.heard {sizeLimit : UInt64} {stream : Nat → Except TransferError Message}
    {msgs : List Message} (h : Sent sizeLimit stream msgs) :
    ∃ re k, msgs.length = k + 2 ∧ Offered sizeLimit stream re ∧
      (∀ n, n ≤ k → (recvBody re (afterOffer stream) n).result = none) ∧
      (recvBody re (afterOffer stream) (k + 1)).result = some (.ok ()) := by
  obtain ⟨id, name, size, reader, chunkSize, faults, reply, c', hreply, hsent, rfl, hbegins⟩ := h
  obtain ⟨⟨id', inbox, haccept⟩, datas, hout, hhonest⟩ := sendFramed_ok rfl hsent
  obtain ⟨hoffer, hhonest⟩ := hhonest stream hbegins
  injection haccept with haccept
  injection haccept with haccept
  subst haccept
  unfold onOffer at hreply
  rw [hoffer] at hreply
  simp only [offerMsg] at hreply
  cases hbegin : FileReassembler.begin id name size sizeLimit with
  | error e =>
    rw [hbegin] at hreply
    injection hreply with hreply
    injection hreply with _ hreply
    cases hreply
  | ok re =>
    refine ⟨re, datas.length, ?_, ?_, ?_, (hhonest.accepted hbegin).1⟩
    · rw [hout, List.length_cons, List.length_append, chunkMsgs_length, List.length_singleton]
    · unfold Offered onOffer
      rw [hoffer]
      simp only [offerMsg, hbegin]
    · intro n hn
      exact (hhonest.receiving hbegin hn).1.running

end SelfKvm
