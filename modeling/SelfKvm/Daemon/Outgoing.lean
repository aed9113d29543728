/-
  What the daemon sends, and whether its peer can read it.

  Limits are enforced on the read side only: the reader refuses a frame of more than 4 MiB and the
  codec a field of more than 4 MiB, while the writer sends what it is given.  So every place that
  makes a message has to stay below both, each with its own header on top.  `Speech` lists those
  places: the handshake, the controller, the client, and the two ends of a file transfer.

  Most messages have a size of their own; names are short, and the file sender cuts its chunks to
  `maxChunkSize` with the header in mind.  A copied text is sent as it is.  `received_exactly` says
  that this is the one place that can send what no peer accepts, and from which length on.
-/
import SelfKvm.Core.Client
import SelfKvm.Daemon.Connection
import SelfKvm.Daemon.HonestTransfer

namespace SelfKvm

open Session Source

/-! ## Who sends what -/

/-- An occasion on which the daemon sends. -/
inductive Speech where
  /-- The task of a connection takes a step of its handshake. -/
  | handshake (layout : ScreenLayout) (outTx : Sender) (phase : Phase) (o : Occurrence)
  /-- The controller takes an event; the writers send what it puts into their queues. -/
  | control (c : Controller) (ev : ServerEvent)
  /-- A client answers its server. -/
  | answer (c : ClientMachine) (heard : Message) (hname : (utf8 c.name).length ≤ 255)
  /-- A file is offered and sent. -/
  | sendFile (id : UInt32) (name : String) (size : UInt64) (reader : Incoming) (chunkSize : Nat)
      (faults : List (Option IoError)) (inbox : List (Except NetError Message))
      (hname : (utf8 name).length ≤ 255)
  /-- An offer is answered. -/
  | receiveFile (sizeLimit : UInt64) (first : Except TransferError Message)

/-- The messages that are handed to `FramedWriter::send`. -/
def Speech.said : Speech → List Message
  | handshake layout outTx phase o =>
    (handleClient layout outTx phase o).2.filterMap ClientAct.said
  | control c ev => (c.step ev).2.filterMap Effect.said
  | answer c heard _ => (c.handle heard).2.filterMap ClientAction.said
  | sendFile id name size reader chunkSize faults inbox _ =>
    (sendFramed id name size reader chunkSize ⟨[], faults, inbox⟩).2.out
  | receiveFile sizeLimit first => (onOffer sizeLimit first).2.toList

/-- The longest text whose frame a peer accepts: 14 bytes of it are header. -/
def maxClipboardLen : Nat := maxFrameLen - 14

/-- No text is copied to anybody that is too long for a frame. -/
def Speech.Fits : Speech → Prop
  | control c (.clipboardOut text) =>
    ∀ screen, screen ∈ c.clients → (utf8 text).length ≤ maxClipboardLen
  | _ => True

/-! ## Messages that always fit -/

/-- No field of the message has a length of its own. -/
def Message.fixed : Message → Bool
  | helloBack .. => false
  | setOptions .. => false
  | clipboardData .. => false
  | fileOffer .. => false
  | fileChunk .. => false
  | _ => true

theorem Message.frames_of_fixed {m : Message} (h : m.fixed = true) : m.Frames := by
  have hmax : 18 ≤ maxFrameLen := by decide
  have hsize : m.WithinLimits ∧ m.size ≤ 18 := by
    cases m <;> first
      | exact absurd h Bool.false_ne_true
      | exact ⟨trivial, Nat.le_of_ble_eq_true rfl⟩
  unfold Message.Frames
  rw [encode_length]
  exact ⟨hsize.1, Nat.le_trans hsize.2 hmax⟩

theorem frames_helloBack (major minor : Int16) {name : String} (h : (utf8 name).length ≤ 255) :
    (Message.helloBack major minor name).Frames := by
  have hmax : 15 + 255 ≤ maxFrameLen := by decide
  have hfield : 255 ≤ maxFieldLen := by decide
  unfold Message.Frames
  rw [encode_length]
  exact ⟨Nat.le_trans h hfield, show 15 + (utf8 name).length ≤ maxFrameLen by omega⟩

theorem frames_offerMsg (id : UInt32) {name : String} (size : UInt64)
    (h : (utf8 name).length ≤ 255) : (offerMsg id name size).Frames := by
  have hmax : 20 + 255 ≤ maxFrameLen := by decide
  have hfield : 255 ≤ maxFieldLen := by decide
  unfold Message.Frames
  rw [encode_length]
  exact ⟨Nat.le_trans h hfield, show 20 + (utf8 name).length ≤ maxFrameLen by omega⟩

/-- The ceiling on a chunk leaves room for its header. -/
theorem frames_chunkMsg (id seq : UInt32) {data : List UInt8} (h : data.length ≤ maxChunkSize) :
    (chunkMsg id seq data).Frames := by
  have hmax : 16 + maxChunkSize ≤ maxFrameLen := by decide
  have hfield : maxChunkSize ≤ maxFieldLen := by decide
  unfold Message.Frames
  rw [encode_length]
  exact ⟨Nat.le_trans h hfield, show 16 + data.length ≤ maxFrameLen by omega⟩

/-- A copied text fits when, and only when, it leaves room for its header. -/
theorem frames_clipboardData (id mark : Int8) (seq : UInt32) (data : List UInt8) :
    (Message.clipboardData id seq mark data).Frames ↔ data.length ≤ maxClipboardLen := by
  have hmax : maxClipboardLen + 14 = maxFrameLen := by decide
  have hfield : maxClipboardLen ≤ maxFieldLen := by decide
  unfold Message.Frames
  rw [encode_length]
  show data.length ≤ maxFieldLen ∧ 14 + data.length ≤ maxFrameLen ↔ _
  omega

/-! ## The handshake -/

/-- The seven messages of a handshake all fit. -/
theorem handshake_frames (layout : ScreenLayout) (outTx : Sender) (phase : Phase) (o : Occurrence)
    {m : Message} (h : m ∈ (handleClient layout outTx phase o).2.filterMap ClientAct.said) :
    m.Frames := by
  have hone : ∀ {msg fails next reports}, Message.fixed msg = true →
      m ∈ (sendAll [msg] fails next reports).2.filterMap ClientAct.said → m.Frames := by
    intro msg fails next reports hfixed hm
    rw [List.mem_singleton.mp (Runtime.mem_sendAll hm)]
    exact Message.frames_of_fixed hfixed
  have hstep := Runtime.handleClient_handled layout outTx phase o
  generalize handleClient layout outTx phase o = r at hstep h
  cases hstep with
  | greets => exact hone rfl h
  | refuses msg fails refusal result hrefusal =>
    rcases hrefusal with rfl | rfl
    · exact hone rfl h
    · exact hone rfl h
  | asks => exact hone rfl h
  | admits =>
    have hm := Runtime.mem_sendAll h
    simp only [List.mem_cons, List.not_mem_nil, or_false] at hm
    rcases hm with rfl | rfl | rfl
    · exact Message.frames_of_fixed rfl
    · exact Message.frames_of_fixed rfl
    · exact ⟨Nat.zero_le _, by decide⟩
  | still | givesUp => cases h
  | passesOn | leaves => simp [ClientAct.said] at h

/-! ## The controller -/

theorem Message.fixed_of_isInput {m : Message} (h : m.isInput = true) : m.fixed = true := by
  cases m <;> first | rfl | cases h

/-- Whatever the machine sends has no field of variable length. -/
theorem handle_fixed {m : ServerMachine} {le : LocalEvent} {screen : String} {msg : Message}
    (h : .send screen msg ∈ (m.handle le).2) : msg.fixed = true := by
  have hout := ServerMachine.handle_outcome m le
  generalize (m.handle le).1 = m', (m.handle le).2 = acts at hout h
  cases hout with
  | motion m₁ _ _ hm ho =>
    rcases ho.mem_send h with ⟨-, -, rfl | ⟨p, rfl⟩⟩ | ⟨c, -, -, -, rfl⟩ <;> rfl
  | forward msg' hr hf =>
    rw [List.mem_singleton] at h
    injection h with _ hmsg
    rw [hmsg]
    exact Message.fixed_of_isInput (ServerMachine.forwarded_isInput hf)
  | ignore => cases h

/-- What is dispatched was an action. -/
theorem mem_dispatch {clients : Clients} {acts : List ServerAction} {m : Message}
    (h : m ∈ (acts.flatMap (dispatch clients)).filterMap Effect.said) :
    ∃ screen, .send screen m ∈ acts := by
  obtain ⟨eff, hmem, hsaid⟩ := List.mem_filterMap.mp h
  obtain ⟨act, hact, heff⟩ := List.mem_flatMap.mp hmem
  cases act with
  | send screen msg =>
    unfold dispatch at heff
    cases hl : clients.lookup screen with
    | none =>
      simp only [hl] at heff
      cases heff
    | some tx =>
      simp only [hl, List.mem_singleton] at heff
      rw [heff] at hsaid
      injection hsaid with hsaid
      exact ⟨screen, hsaid ▸ hact⟩
  | setGrab on =>
    simp only [dispatch, List.mem_cons, List.not_mem_nil, or_false] at heff
    rcases heff with rfl | rfl <;> cases hsaid
  | warpCursor x y =>
    simp only [dispatch, List.mem_cons, List.not_mem_nil, or_false] at heff
    rw [heff] at hsaid
    cases hsaid
  | activeChanged screen =>
    simp only [dispatch, List.mem_cons, List.not_mem_nil, or_false] at heff
    rw [heff] at hsaid
    cases hsaid

/-- A broadcast says one message, and to somebody or not at all. -/
theorem mem_broadcast {clients : Clients} {msg m : Message} :
    m ∈ (broadcast clients msg).filterMap Effect.said ↔ m = msg ∧ ∃ screen, screen ∈ clients := by
  unfold broadcast
  rw [List.filterMap_map, List.mem_filterMap]
  constructor
  · rintro ⟨e, he, hm⟩
    injection hm with hm
    exact ⟨hm.symm, e.1, AList.mem_keys.mpr (List.mem_map_of_mem he)⟩
  · rintro ⟨rfl, screen, hscreen⟩
    obtain ⟨e, he, -⟩ := List.mem_map.mp (AList.mem_keys.mp hscreen)
    exact ⟨e, he, rfl⟩

/-- **The controller sends what fits, and what is copied.** -/
theorem control_frames (c : Controller) (ev : ServerEvent) :
    (∀ m ∈ (Speech.control c ev).said, m.Frames) ↔ (Speech.control c ev).Fits := by
  cases ev with
  | «local» le =>
    refine ⟨fun _ => trivial, fun _ m hm => ?_⟩
    obtain ⟨screen, hsend⟩ := mem_dispatch hm
    exact Message.frames_of_fixed (handle_fixed hsend)
  | clientConnected screen size outbound =>
    exact ⟨fun _ => trivial, fun _ m hm => by cases hm⟩
  | clientDisconnected screen =>
    refine ⟨fun _ => trivial, fun _ m hm => ?_⟩
    have hacts : ∀ acts : List ServerAction, (∀ target msg, .send target msg ∉ acts) →
        m ∉ (acts.flatMap (dispatch (c.clients.erase screen)) ++
          [Effect.status (.clientDisconnected screen)]).filterMap Effect.said := by
      intro acts hquiet hm
      rw [List.filterMap_append, List.mem_append] at hm
      rcases hm with hm | hm
      · obtain ⟨target, hsend⟩ := mem_dispatch hm
        exact hquiet target m hsend
      · cases hm
    simp only [Speech.said, Controller.step] at hm
    by_cases hactive : c.machine.active = screen
    · rw [if_pos hactive] at hm
      exact absurd hm (hacts _ fun _ _ => Controller.goHome_sends_nothing)
    · rw [if_neg hactive] at hm
      exact absurd hm (hacts _ fun _ _ => List.not_mem_nil)
  | fromClient screen msg =>
    refine ⟨fun _ => trivial, fun _ m hm => ?_⟩
    cases msg <;> cases hm
  | keepAliveTick =>
    refine ⟨fun _ => trivial, fun _ m hm => ?_⟩
    rw [(mem_broadcast.mp hm).1]
    exact Message.frames_of_fixed rfl
  | clipboardOut text =>
    constructor
    · intro h screen hscreen
      exact (frames_clipboardData ..).mp (h _ (mem_broadcast.mpr ⟨rfl, screen, hscreen⟩))
    · intro h m hm
      obtain ⟨rfl, screen, hscreen⟩ := mem_broadcast.mp hm
      exact (frames_clipboardData ..).mpr (h screen hscreen)

/-! ## The client and the file transfer -/

/-- A client answers with its name, its geometry or a keep-alive. -/
theorem answer_frames {c : ClientMachine} (hname : (utf8 c.name).length ≤ 255) {heard m : Message}
    (h : m ∈ (c.handle heard).2.filterMap ClientAction.said) : m.Frames := by
  cases heard with
  | hello major minor =>
    rw [List.mem_singleton.mp h]
    exact frames_helloBack _ _ hname
  | queryInfo =>
    rw [List.mem_singleton.mp h]
    exact Message.frames_of_fixed rfl
  | keepAlive =>
    rw [List.mem_singleton.mp h]
    exact Message.frames_of_fixed rfl
  | _ =>
    -- nothing is answered, at most something is injected
    simp only [ClientMachine.handle, ClientMachine.injectIfActive] at h
    first | cases h | (split at h <;> cases h)

/-- Every chunk the loop sends is of the size it was told, whatever the file and the connection do. -/
theorem mem_sendChunks {id : UInt32} {cs : Nat} {reader : Incoming} {seq : UInt32} {sent : UInt64}
    {c : Conn} {m : Message} (h : m ∈ (sendChunks id cs reader seq sent c).2.out) :
    m ∈ c.out ∨ ∃ seq' block, m = chunkMsg id seq' block ∧ block.length ≤ cs := by
  induction hw : weight reader using Nat.strongRecOn generalizing reader seq sent c with
  | ind w ih =>
    rcases hfill : fill reader cs with ⟨e | block, reader'⟩
    · rw [sendChunks_error hfill] at h
      exact .inl h
    · rcases Nat.eq_zero_or_pos block.length with hempty | hblock
      · -- the end of the file
        rw [List.eq_nil_of_length_eq_zero hempty] at hfill
        rw [sendChunks_done hfill] at h
        exact .inl h
      · have hsent : ∀ {c' : Conn}, m ∈ c'.out → (send (chunkMsg id seq block) c).2.out = c'.out →
            m ∈ c.out ∨ ∃ seq' block, m = chunkMsg id seq' block ∧ block.length ≤ cs := by
          intro c' hm hc'
          rcases send_out (chunkMsg id seq block) c with hout | hout
          · rw [← hc', hout, List.mem_append, List.mem_singleton] at hm
            rcases hm with hm | hm
            · exact .inl hm
            · exact .inr ⟨seq, block, hm, readLoop_length_le hfill⟩
          · rw [← hc', hout] at hm
            exact .inl hm
        rw [sendChunks_step hfill hblock, bind_apply] at h
        rcases hs : send (chunkMsg id seq block) c with ⟨e | u, c₁⟩
        · rw [hs] at h
          exact hsent h (by rw [hs])
        · simp only [hs] at h
          by_cases hlast : seq.toNat + 1 ≥ 2 ^ 32
          · rw [if_pos hlast] at h
            have hc₁ : m ∈ c₁.out := h
            exact hsent hc₁ (by rw [hs])
          · rw [if_neg hlast] at h
            rcases ih _ (hw ▸ readLoop_weight_lt hfill hblock) h rfl with hm | hchunk
            · exact hsent hm (by rw [hs])
            · exact .inr hchunk

/-- What a file sender has put out at any time fits. -/
theorem sendFramed_frames {id : UInt32} {name : String} {size : UInt64} {reader : Incoming}
    {chunkSize : Nat} (hname : (utf8 name).length ≤ 255) {c : Conn} (hc : ∀ m ∈ c.out, m.Frames) :
    ∀ m ∈ (sendFramed id name size reader chunkSize c).2.out, m.Frames := by
  have hsend : ∀ {msg : Message} {c₀ : Conn}, msg.Frames → (∀ m ∈ c₀.out, m.Frames) →
      ∀ m ∈ (send msg c₀).2.out, m.Frames := by
    intro msg c₀ hmsg hc₀ m hm
    rcases send_out msg c₀ with hout | hout
    · rw [hout, List.mem_append, List.mem_singleton] at hm
      rcases hm with hm | rfl
      · exact hc₀ m hm
      · exact hmsg
    · rw [hout] at hm
      exact hc₀ m hm
  unfold sendFramed
  have hoffer := hsend (frames_offerMsg id size hname) hc
  rw [bind_apply]
  rcases hs₁ : send (offerMsg id name size) c with ⟨e | u, c₁⟩
  · rwa [hs₁] at hoffer
  rw [hs₁] at hoffer
  simp only [bind_apply]
  have haccept : ∀ m ∈ (awaitAccept c₁).2.out, m.Frames := by rwa [awaitAccept_out]
  rcases hs₂ : awaitAccept c₁ with ⟨e | u, c₂⟩
  · rwa [hs₂] at haccept
  rw [hs₂] at haccept
  have hchunks : ∀ m ∈ (sendChunks id (clampChunk chunkSize) reader 0 0 c₂).2.out, m.Frames := by
    intro m hm
    rcases mem_sendChunks hm with hm | ⟨seq, block, rfl, hblock⟩
    · exact haccept m hm
    · exact frames_chunkMsg id seq (Nat.le_trans hblock (clampChunk_le chunkSize))
  simp only
  rcases hs₃ : sendChunks id (clampChunk chunkSize) reader 0 0 c₂ with ⟨e | ⟨seq, sent⟩, c₃⟩
  · rwa [hs₃] at hchunks
  rw [hs₃] at hchunks
  simp only
  by_cases hsize : sent ≠ size
  · rw [if_pos hsize]
    exact hchunks
  · rw [if_neg hsize]
    exact hsend (Message.frames_of_fixed rfl) hchunks

/-- The answer to an offer fits. -/
theorem onOffer_frames {sizeLimit : UInt64} {first : Except TransferError Message} {m : Message}
    (h : m ∈ (onOffer sizeLimit first).2.toList) : m.Frames := by
  rw [Option.mem_toList] at h
  unfold onOffer at h
  split at h
  · cases h
  · split at h <;> (injection h with h; subst h; exact Message.frames_of_fixed rfl)
  · cases h

/-! ## The theorem -/

/-- **The daemon sends what its peer accepts, texts that are too long apart**: whoever sends, every
    message it hands to its writer is returned by the peer's reader as it was, if and only if no text
    longer than 4194290 bytes is copied to a connected client. -/
theorem received_exactly (s : Speech) : (∀ m ∈ s.said, m.Received) ↔ s.Fits := by
  simp only [Message.received_iff]
  cases s with
  | handshake layout outTx phase o =>
    exact ⟨fun _ => trivial, fun _ m hm => handshake_frames layout outTx phase o hm⟩
  | control c ev => exact control_frames c ev
  | answer c heard hname => exact ⟨fun _ => trivial, fun _ m hm => answer_frames hname hm⟩
  | sendFile id name size reader chunkSize faults inbox hname =>
    refine ⟨fun _ => trivial, fun _ => sendFramed_frames hname fun m hm => by cases hm⟩
  | receiveFile sizeLimit first => exact ⟨fun _ => trivial, fun _ m hm => onOffer_frames hm⟩

/-- A text of so many letters. -/
def letters : Nat → String
  | 0 => ""
  | n + 1 => (letters n).push 'a'

theorem utf8_letters (n : Nat) : (utf8 (letters n)).length = n := by
  have hsize : ∀ s : String, (utf8 s).length = s.utf8ByteSize := fun _ => Array.length_toList
  rw [hsize]
  induction n with
  | zero => rfl
  | succ n ih =>
    rw [letters, String.utf8ByteSize_push, ih]
    rfl

/-- A text beyond the limit is refused with its frame. -/
theorem clipboardData_refused {text : String} (seq : UInt32)
    (hlong : maxClipboardLen < (utf8 text).length) (hfits : (utf8 text).length + 14 < 2 ^ 32) :
    (FramedReader.new [.ok (frame (.clipboardData 0 seq 0 (utf8 text)))]).recv.1
      = .error (.frameTooLarge ((utf8 text).length + 14)) := by
  have hsize : (Message.clipboardData 0 seq 0 (utf8 text)).encode.length
      = (utf8 text).length + 14 := by
    rw [encode_length]
    exact Nat.add_comm ..
  have hmax : maxClipboardLen + 14 = maxFrameLen := by decide
  have hdelivers : Delivers
      (FramedReader.new [.ok (frame (.clipboardData 0 seq 0 (utf8 text)))]).inner
      (frame (.clipboardData 0 seq 0 (utf8 text)) ++ []) :=
    .read (frame_length_pos _) .done
  rw [FramedReader.recv_too_large (by omega) (by omega) hdelivers, hsize]

/-- One letter too many: the only client's reader fails with `FrameTooLarge`. -/
theorem copied_text_refused :
    let c : Controller := ⟨.new .new "server", AList.singleton "laptop" 0, 0⟩
    let text := letters 4194291
    ¬ (∀ m ∈ (Speech.control c (.clipboardOut text)).said, m.Received) ∧
      ∃ m ∈ (Speech.control c (.clipboardOut text)).said,
        (FramedReader.new [.ok (frame m)]).recv.1 = .error (.frameTooLarge 4194305) := by
  intro c text
  have hlen : (utf8 text).length = 4194291 := utf8_letters 4194291
  generalize text = text at hlen ⊢
  have hsaid : .clipboardData 0 1 0 (utf8 text) ∈ (Speech.control c (.clipboardOut text)).said :=
    mem_broadcast.mpr ⟨rfl, "laptop", by decide⟩
  have hlong : maxClipboardLen < (utf8 text).length := by
    rw [hlen]
    decide
  refine ⟨fun h => ?_, _, hsaid, ?_⟩
  · have hle := (frames_clipboardData ..).mp (Message.received_iff.mp (h _ hsaid))
    omega
  · rw [clipboardData_refused 1 hlong (by omega), hlen]

end SelfKvm
