/-
  The modifiers of an `Enter` against the keys a client holds down (`kvm-core/src/client.rs`).

  Every `Enter` carries the modifiers that are held, so that the screen that is entered can take them
  over.  The client does not look at them.  What is down there is what was pressed there and not
  released there, on this visit or an earlier one, whatever has happened on other screens since.

  `resync_exact` compares the two.  In every interleaving and whenever a client has just processed
  an `Enter`, the modifiers it holds are those of the mask, exactly if at every crossing to a client
  screen the keys left down there by earlier visits already have the modifiers of the tracked mask.
-/
import SelfKvm.Core.HeldKeys

namespace SelfKvm

open ServerMachine ClientMachine Fifo

/-! ## Keys down on a machine -/

/-- The keys that are down: each physical key with the id it was pressed as. -/
abbrev DownKeys : Type := List (KeyButton × KeyId)

/-- What a command does to the keys; a repeat presses, as the injection backend has it. -/
def keyStep (down : DownKeys) : InputCommand → DownKeys
  | .key id _ b .down => (b, id) :: down.filter (·.1 ≠ b)
  | .key id _ b (.autoRepeat _) => (b, id) :: down.filter (·.1 ≠ b)
  | .key _ _ b .up => down.filter (·.1 ≠ b)
  | _ => down

def keysDown (cmds : List InputCommand) : DownKeys := cmds.foldl keyStep []

/-- The bits that stand for keys. -/
def keyBits : List KeyModifierMask :=
  [Modifier.shift, Modifier.control, Modifier.alt, Modifier.altGr, Modifier.super,
    Modifier.«meta»]

/-- The modifiers in the mask are those of the keys. -/
def Corresponds (mask : KeyModifierMask) (down : DownKeys) : Prop :=
  ∀ bit ∈ keyBits, mask &&& bit ≠ 0 ↔ ∃ k ∈ down, modifierBitFor k.2 = bit

instance (mask : KeyModifierMask) (down : DownKeys) : Decidable (Corresponds mask down) :=
  letI (bit : KeyModifierMask) : Decidable (∃ k ∈ down, modifierBitFor k.2 = bit) :=
    List.decidableBEx _ down
  List.decidableBAll _ keyBits

/-! ## The condition -/

/-- What is typed, and on which screen. -/
def ServerMachine.typing (m : ServerMachine) (i : UserInput) :
    ServerMachine × List (String × InputCommand) :=
  ((m.onInput i).1,
    match i with
    | .event ev => (commandOf ev).map fun cmd => (m.active, cmd)
    | _ => [])

/-- The commands typed on the screen `s`. -/
def typedOn (s : String) (typed : List (String × InputCommand)) : List InputCommand :=
  typed.filterMap fun t => if t.1 = s then some t.2 else none

theorem typedOn_append (s : String) (ts us : List (String × InputCommand)) :
    typedOn s (ts ++ us) = typedOn s ts ++ typedOn s us := List.filterMap_append

/-- If the input takes the cursor to a client screen, the keys left down there have the modifiers
    that are tracked. -/
def ServerMachine.FindsKeys (typed : List (String × InputCommand)) (m : ServerMachine)
    (i : UserInput) : Prop :=
  ∀ ev screen, i = .event ev → m.destination ev = some screen →
    Corresponds m.modifiers (keysDown (typedOn screen typed))

/-- Whenever a client has just processed an `Enter`, it holds the modifiers of its mask. -/
def Resynced (layout : ScreenLayout) (home : String) (sizes : String → ScreenSize)
    (es : List (Event String UserInput)) : Prop :=
  ∀ s x y seq mask rest, (session layout home sizes es).queue s = .enter x y seq mask :: rest →
    Corresponds mask (keysDown (injected ((session layout home sizes (es ++ [.deliver s])).log s)))

/-! ## One input -/

/-- A message that reports a key. -/
def Message.isKey : Message → Bool
  | keyDown .. => true
  | keyUp .. => true
  | keyRepeat .. => true
  | _ => false

/-- Other messages leave the keys alone. -/
theorem keys_unmoved {msg : Message} (h : msg.isKey = false) (c : ClientMachine) (down : DownKeys) :
    (injected (c.handle msg).2).foldl keyStep down = down := by
  cases msg with
  | keyDown => cases h
  | keyUp => cases h
  | keyRepeat => cases h
  | _ =>
    simp only [ClientMachine.handle, injectIfActive]
    first | rfl | (split <;> rfl)

theorem keys_unmoved_run {msgs : List Message} (h : ∀ msg ∈ msgs, msg.isKey = false)
    (c : ClientMachine) (down : DownKeys) :
    (injected (Mealy.run ClientMachine.handle c msgs).2).foldl keyStep down = down := by
  induction msgs generalizing c down with
  | nil => rfl
  | cons msg msgs ih =>
    rw [Mealy.run_cons, injected_append, List.foldl_append, keys_unmoved (h msg List.mem_cons_self)]
    exact ih (fun m hm => h m (List.mem_cons_of_mem msg hm)) _ _

/-- A motion sends no key. -/
theorem motion_sends_no_key {m m₁ : ServerMachine} {ev : LocalEvent} (hm : m.moved ev = some m₁)
    {screen : String} {msg : Message} (h : .send screen msg ∈ (m.handle ev).2) :
    msg.isKey = false := by
  have hout := handle_outcome m ev
  generalize (m.handle ev).1 = m', (m.handle ev).2 = acts at hout h
  cases hout with
  | motion m₂ _ _ hm₂ ho =>
    rcases ho.mem_send h with ⟨-, -, rfl | ⟨p, rfl⟩⟩ | ⟨c, -, -, -, rfl⟩ <;> rfl
  | forward msg' hr hf =>
    rw [moved_of_forwarded hf] at hm
    cases hm
  | ignore hnone hf =>
    rw [hnone] at hm
    cases hm

theorem mem_addressed {s : String} {acts : List ServerAction} {msg : Message} :
    msg ∈ addressed post s acts ↔ .send s msg ∈ acts := by
  unfold addressed
  rw [List.mem_filterMap]
  constructor
  · rintro ⟨act, hact, hmsg⟩
    cases act with
    | send screen msg' =>
      by_cases hs : screen = s
      · simp only [post, hs, if_true, Option.some.injEq] at hmsg
        rw [← hs, ← hmsg] at *
        exact hact
      · simp only [post, hs, if_false, reduceCtorEq] at hmsg
    | _ => cases hmsg
  · intro h
    exact ⟨_, h, by simp [post]⟩

/-- **One input**: the client of `s` presses and releases what is typed there, and nothing else. -/
theorem keys_step {home s : String} (hs : s ≠ home) {m : ServerMachine} {c : ClientMachine}
    (hhome : m.localScreen = home) (hentered : c.entered = true ↔ m.active = s) (i : UserInput)
    (down : DownKeys) :
    (injected (Mealy.run ClientMachine.handle c (addressed post s (m.onInput i).2)).2).foldl
        keyStep down =
      (typedOn s (m.typing i).2).foldl keyStep down := by
  cases i with
  | setLock locked => rfl
  | toggleLock => rfl
  | event ev =>
    have htyped : typedOn s (m.typing (.event ev)).2 =
        if m.active = s then commandOf ev else [] := by
      unfold typedOn typing
      rw [List.filterMap_map]
      by_cases hact : m.active = s
      · rw [if_pos hact]
        simp only [Function.comp_def, hact, if_true]
        exact List.filterMap_some
      · rw [if_neg hact]
        simp [hact]
    rw [htyped]
    show (injected (Mealy.run ClientMachine.handle c
      (addressed post s (m.handle ev).2)).2).foldl keyStep down = _
    have hmotion : ∀ m₁, m.moved ev = some m₁ → ∀ msg ∈ addressed post s (m.handle ev).2,
        msg.isKey = false :=
      fun m₁ hm msg hmem => motion_sends_no_key hm (mem_addressed.mp hmem)
    have hout := handle_outcome m ev
    generalize (m.handle ev).1 = m', (m.handle ev).2 = acts at hout hmotion ⊢
    cases hout with
    | motion m₁ _ _ hm ho =>
      rw [keys_unmoved_run (hmotion m₁ hm)]
      -- a motion types nothing
      cases ev with
      | motionAbs x y => split <;> rfl
      | motionRel dx dy => split <;> rfl
      | _ => cases hm
    | forward msg hr hf =>
      rw [addressed_send]
      by_cases hact : m.active = s
      · rw [if_pos hact, if_pos hact, Mealy.run_singleton, handle_forwarded (hentered.mpr hact) hf,
          injected_map]
      · rw [if_neg hact, if_neg hact]
        rfl
    | ignore hm hf =>
      by_cases hact : m.active = s
      · have hnone : forwarded ev = none :=
          hf.resolve_left fun hlocal => hs (hact.symm.trans (hlocal.trans hhome))
        rw [if_pos hact, commandOf_of_not_forwarded hnone]
        rfl
      · rw [if_neg hact]
        rfl

/-! ## Whole runs -/

section Run

variable (layout : ScreenLayout) {home s : String} (hs : s ≠ home) (size : ScreenSize)

/-- What has been typed, and where. -/
def typed (layout : ScreenLayout) (home : String) (is : List UserInput) :
    List (String × InputCommand) :=
  (Mealy.run typing (ServerMachine.new layout home) is).2

/-- The two runs of the machine differ only in what they show. -/
theorem run_typing (m : ServerMachine) (is : List UserInput) :
    (Mealy.run typing m is).1 = (Mealy.run onInput m is).1 := by
  induction is generalizing m with
  | nil => rfl
  | cons i is ih => exact ih _

include hs

/-- **A client that has heard everything has down what was typed on its screen.** -/
theorem heard_keys (is : List UserInput) :
    keysDown (injected (heard layout home s size is).2)
      = keysDown (typedOn s (typed layout home is)) := by
  unfold keysDown typed
  induction is using List.reverseRecOn with
  | nil => rfl
  | append_singleton is i ih =>
    obtain ⟨hhome, -⟩ := run_home layout home is
    have hentered := heard_entered layout hs size is
    rw [heard_concat, Mealy.run_concat, injected_append, typedOn_append, List.foldl_append,
      List.foldl_append, ih, run_typing]
    exact keys_step hs hhome hentered i _

/-- What the client has down when it has heard the `Enter` that one input sends it. -/
theorem heard_keys_enter (is : List UserInput) {ev : LocalEvent} {m₁ : ServerMachine}
    (hm : (Mealy.run onInput (ServerMachine.new layout home) is).1.moved ev = some m₁)
    {front : List Message} (rest : List Message)
    (hnew : addressed post s ((Mealy.run onInput (ServerMachine.new layout home) is).1.handle ev).2
      = front ++ rest) :
    keysDown (injected (Mealy.run ClientMachine.handle (acknowledged s size)
        (addressed post s (Mealy.run onInput (ServerMachine.new layout home) is).2 ++ front)).2)
      = keysDown (typedOn s (typed layout home is)) := by
  have hquiet : ∀ msg ∈ front, msg.isKey = false := by
    intro msg hmsg
    have hmem : msg ∈ addressed post s
        ((Mealy.run onInput (ServerMachine.new layout home) is).1.handle ev).2 := by
      rw [hnew]
      exact List.mem_append_left rest hmsg
    exact motion_sends_no_key hm (mem_addressed.mp hmem)
  rw [← heard_keys layout hs size is]
  unfold keysDown
  rw [Mealy.run_append, injected_append, List.foldl_append]
  exact keys_unmoved_run hquiet _ _

/-- An `Enter` that a client is sent comes from a crossing to its screen; and what it has down then
    is what was typed there before. -/
theorem enter_said (is : List UserInput) {x y : Int16} {seq : UInt32} {mask : KeyModifierMask}
    {front rest : List Message}
    (hsaid : addressed post s (Mealy.run onInput (ServerMachine.new layout home) is).2
      = front ++ .enter x y seq mask :: rest) :
    ∃ js ev, js ++ [.event ev] <+: is ∧
      (Mealy.run onInput (ServerMachine.new layout home) js).1.destination ev = some s ∧
      mask = (Mealy.run onInput (ServerMachine.new layout home) js).1.modifiers ∧
      keysDown (injected (Mealy.run ClientMachine.handle (acknowledged s size)
          (front ++ [.enter x y seq mask])).2)
        = keysDown (typedOn s (typed layout home js)) := by
  induction is using List.reverseRecOn generalizing rest with
  | nil =>
    have hlen := congrArg List.length hsaid
    rw [List.length_append] at hlen
    cases hlen
  | append_singleton is i ih =>
    rw [Mealy.run_concat, addressed_append] at hsaid
    -- either the last input says it, or an earlier one
    have hlast : ∀ front', front = addressed post s
          (Mealy.run onInput (ServerMachine.new layout home) is).2 ++ front' →
        addressed post s ((Mealy.run onInput (ServerMachine.new layout home) is).1.onInput i).2
          = front' ++ .enter x y seq mask :: rest →
        ∃ js ev, js ++ [.event ev] <+: is ++ [i] ∧
          (Mealy.run onInput (ServerMachine.new layout home) js).1.destination ev = some s ∧
          mask = (Mealy.run onInput (ServerMachine.new layout home) js).1.modifiers ∧
          keysDown (injected (Mealy.run ClientMachine.handle (acknowledged s size)
              (front ++ [.enter x y seq mask])).2)
            = keysDown (typedOn s (typed layout home js)) := by
      rintro front' rfl hnew
      have hmem : .send s (.enter x y seq mask) ∈
          ((Mealy.run onInput (ServerMachine.new layout home) is).1.onInput i).2 := by
        rw [← mem_addressed, hnew]
        exact List.mem_append_right _ List.mem_cons_self
      cases i with
      | setLock locked => cases hmem
      | toggleLock => cases hmem
      | event ev =>
        obtain ⟨hdest, hmask⟩ := mem_enter_destination hmem
        obtain ⟨m₁, c, hm, -⟩ := destination_eq_some.mp hdest
        refine ⟨is, ev, List.prefix_refl _, hdest, hmask, ?_⟩
        rw [List.append_assoc]
        refine heard_keys_enter layout hs size is hm rest ?_
        rw [List.append_assoc]
        exact hnew
    rcases List.append_eq_append_iff.mp hsaid with ⟨front', hfront, hnew⟩ | ⟨back, hfront, hnew⟩
    · exact hlast front' hfront hnew
    · rcases back with _ | ⟨msg, back⟩
      · rw [List.append_nil] at hfront
        exact hlast [] (by rw [hfront, List.append_nil]) hnew.symm
      · obtain ⟨rfl, -⟩ := List.cons.inj hnew
        obtain ⟨js, ev, hpre, hrest⟩ := ih hfront
        exact ⟨js, ev, hpre.trans (List.prefix_append is [i]), hrest⟩

/-- Every crossing to the screen says its `Enter`. -/
theorem said_enter {js is : List UserInput} {ev : LocalEvent} (hpre : js ++ [.event ev] <+: is)
    (hdest : (Mealy.run onInput (ServerMachine.new layout home) js).1.destination ev = some s) :
    ∃ x y seq front rest,
      addressed post s (Mealy.run onInput (ServerMachine.new layout home) is).2 = front ++
        .enter x y seq (Mealy.run onInput (ServerMachine.new layout home) js).1.modifiers :: rest ∧
      keysDown (injected (Mealy.run ClientMachine.handle (acknowledged s size) (front ++ [.enter x y
          seq (Mealy.run onInput (ServerMachine.new layout home) js).1.modifiers])).2)
        = keysDown (typedOn s (typed layout home js)) := by
  obtain ⟨x, y, seq, hmem⟩ := enter_of_destination hdest
  obtain ⟨front, back, hnew⟩ := List.append_of_mem (mem_addressed.mpr hmem)
  obtain ⟨m₁, c, hm, -⟩ := destination_eq_some.mp hdest
  obtain ⟨more, rfl⟩ := hpre
  refine ⟨x, y, seq, addressed post s (Mealy.run onInput (ServerMachine.new layout home) js).2 ++
    front, back ++ addressed post s (Mealy.run onInput
      (Mealy.run onInput (ServerMachine.new layout home) (js ++ [.event ev])).1 more).2, ?_, ?_⟩
  · rw [Mealy.run_append, addressed_append, Mealy.run_concat, addressed_append]
    show _ ++ addressed post s ((Mealy.run onInput (ServerMachine.new layout home) js).1.handle ev).2
      ++ _ = _
    rw [hnew]
    simp only [List.append_assoc, List.cons_append]
  · rw [List.append_assoc]
    refine heard_keys_enter layout hs size js hm back ?_
    rw [List.append_assoc]
    exact hnew

end Run

/-- What the client of `s` has done when it has taken the next message. -/
theorem log_deliver (layout : ScreenLayout) (home : String) (sizes : String → ScreenSize)
    {es : List (Event String UserInput)} {s : String} {msg : Message} {rest : List Message}
    (hq : (session layout home sizes es).queue s = msg :: rest) :
    ∃ taken, addressed post s (Mealy.run onInput (ServerMachine.new layout home) (inputs es)).2
        = taken ++ msg :: rest ∧
      (session layout home sizes (es ++ [.deliver s])).log s
        = (Mealy.run ClientMachine.handle (acknowledged s (sizes s)) (taken ++ [msg])).2 := by
  obtain ⟨-, hchannels⟩ := system_split onInput post ClientMachine.handle
    (ServerMachine.new layout home) (fun s => acknowledged s (sizes s)) es
  obtain ⟨taken, hsaid, hheard⟩ := hchannels s
  obtain ⟨hlistener, hlog⟩ := Prod.ext_iff.mp hheard
  refine ⟨taken, hsaid.trans (by rw [← hq]; rfl), ?_⟩
  have hstep : session layout home sizes (es ++ [.deliver s])
      = (session layout home sizes es).step onInput post ClientMachine.handle (.deliver s) := by
    unfold session System.run
    rw [List.foldl_append]
    rfl
  rw [hstep, Mealy.run_concat, ← hlistener, ← hlog]
  simp only [System.step, hq, Function.update_self]
  rfl

/-- Nobody crosses to the server's own screen. -/
theorem destination_ne_home {m : ServerMachine} {ev : LocalEvent} {screen : String}
    (h : m.destination ev = some screen) : screen ≠ m.localScreen := by
  obtain ⟨m₁, c, -, -, ht, rfl⟩ := destination_eq_some.mp h
  exact ht

/-- **Exactly when modifiers are right after a crossing.**  For any layout and any user inputs: in
    every interleaving, whenever a client has just processed an `Enter`, the modifiers of the keys
    it holds down are those of the mask — if and only if at every crossing to a client screen the
    keys that were typed down there and not up again have the modifiers of the tracked mask. -/
theorem resync_exact (layout : ScreenLayout) (home : String) (sizes : String → ScreenSize)
    (is : List UserInput) :
    (∀ es, inputs es = is → Resynced layout home sizes es) ↔
      Mealy.EveryStep typing (ServerMachine.new layout home) is
        fun typed m i => m.FindsKeys typed i := by
  constructor
  · intro hsync js i hpre ev screen hi hdest
    subst hi
    rw [run_typing] at hdest ⊢
    have hne : screen ≠ home := by
      have hhome := (run_home layout home js).1
      exact hhome ▸ destination_ne_home hdest
    -- let the client hear everything up to this `Enter`
    obtain ⟨x, y, seq, front, rest, hsaid, hkeys⟩ :=
      said_enter layout hne (sizes screen) hpre hdest
    obtain ⟨es, hes, hq⟩ := exists_queue onInput post ClientMachine.handle
      (ServerMachine.new layout home) (fun s => acknowledged s (sizes s)) is hsaid
    have hheld := hsync es hes screen x y seq _ rest hq
    obtain ⟨taken, hsaid', hlog⟩ := log_deliver layout home sizes hq
    rw [hes, hsaid] at hsaid'
    obtain rfl := List.append_cancel_right hsaid'
    rw [hlog, hkeys] at hheld
    exact hheld
  · intro hfinds es hes s x y seq mask rest hq
    obtain ⟨taken, hsaid, hlog⟩ := log_deliver layout home sizes hq
    rw [hes] at hsaid
    have hne : s ≠ home := by
      rintro rfl
      rw [(run_home layout s is).2] at hsaid
      cases List.append_eq_nil_iff.mp hsaid.symm with
      | intro _ h => cases h
    obtain ⟨js, ev, hpre, hdest, rfl, hkeys⟩ := enter_said layout hne (sizes s) is hsaid
    rw [hlog, hkeys]
    have hfound := hfinds js (.event ev) hpre ev s rfl
    rw [run_typing] at hfound
    exact hfound hdest

/-- Control is pressed at home and held across: the `Enter` says so, the laptop has nothing down. -/
theorem enter_leaves_control_up :
    ¬ ∀ (layout : ScreenLayout) (home : String) (sizes : String → ScreenSize)
      (es : List (Event String UserInput)), Resynced layout home sizes es := by
  intro hall
  have hsync := hall twoScreens "srv" (fun _ => ⟨1280, 800⟩)
    [.input (.event (.key Key.controlL 0 59 .down)), .input (.event (.motionAbs 1919 500))]
    "lap" 0 370 1 Modifier.control [] (by decide)
  revert hsync
  decide

end SelfKvm
