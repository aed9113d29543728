/-
  The client's gate over whole sequences of messages.

  A client must not move its cursor before the server has acknowledged its geometry, and must not
  act on anything but an `Enter` while the cursor is elsewhere.  `inject_if_active` tests both; the
  arm for `Enter` warps the cursor without asking it.  Here both conditions are said of the messages
  processed so far, the two bits of the machine are shown to be exactly that history (`run_acked`,
  `run_entered`), and `gated_throughout_iff` says when the gate holds: as long as no `Enter` comes
  before the first `InfoAck`.
-/
import SelfKvm.Core.Client
import SelfKvm.Base.Mealy

namespace SelfKvm

/-! ## The history -/

/-- The command moves the cursor. -/
def InputCommand.moves : InputCommand → Bool
  | .mouseMoveAbs _ _ => true
  | .mouseMoveRel _ _ => true
  | _ => false

/-- The message is an `Enter`. -/
def Message.enters : Message → Bool
  | .enter .. => true
  | _ => false

/-- The latest `Enter` or `Leave` is an `Enter`. -/
def Visited (msgs : List Message) : Prop :=
  Mealy.Since (fun msg => msg ≠ .leave) (fun msg => msg.enters = true) msgs

/-- What is asked of the answer to a message, `before` being the messages processed so far. -/
structure Gated (before : List Message) (msg : Message) (acts : List ClientAction) : Prop where
  acknowledged : ∀ cmd, .inject cmd ∈ acts → cmd.moves = true → .infoAck ∈ before
  visited : ∀ cmd, .inject cmd ∈ acts → msg.enters = false → Visited before

namespace ClientMachine

variable {c : ClientMachine} {msg : Message}

/-! ## One message -/

theorem injectIfActive_eq (c : ClientMachine) (cmd : InputCommand) :
    c.injectIfActive cmd =
      if c.entered = true ∧ (cmd.moves = true → c.acked = true) then [.inject cmd] else [] := by
  unfold injectIfActive
  cases cmd <;> cases c.entered <;> cases c.acked <;> rfl

/-- The gate lets a command through as it is, and only on these conditions. -/
theorem mem_injectIfActive {cmd : InputCommand} (cmd' : InputCommand)
    (h : .inject cmd ∈ c.injectIfActive cmd') :
    c.entered = true ∧ (cmd.moves = true → c.acked = true) := by
  rw [injectIfActive_eq] at h
  split at h
  · rename_i hgate
    rw [List.mem_singleton] at h
    injection h with h
    rw [h]
    exact hgate
  · cases h

/-- **Whatever is injected is let through by the gate, or is the warp of an `Enter`.** -/
theorem handle_inject {cmd : InputCommand} (h : .inject cmd ∈ (c.handle msg).2) :
    msg.enters = true ∨ c.entered = true ∧ (cmd.moves = true → c.acked = true) := by
  cases msg with
  | enter x y seq modifiers => exact .inl rfl
  | mouseMove x y => exact .inr (mem_injectIfActive (.mouseMoveAbs x.toInt32 y.toInt32) h)
  | mouseRelMove x y =>
    exact .inr (mem_injectIfActive (.mouseMoveRel x.toInt32 y.toInt32) h)
  | mouseDown b => exact .inr (mem_injectIfActive (.mouseButton b true) h)
  | mouseUp b => exact .inr (mem_injectIfActive (.mouseButton b false) h)
  | mouseWheel x y => exact .inr (mem_injectIfActive (.mouseWheel x y) h)
  | keyDown id mask b => exact .inr (mem_injectIfActive (.key id mask b .down) h)
  | keyUp id mask b => exact .inr (mem_injectIfActive (.key id mask b .up) h)
  | keyRepeat id mask n b => exact .inr (mem_injectIfActive (.key id mask b (.autoRepeat n)) h)
  | _ => simp [handle] at h

/-- An `Enter` warps the cursor, acknowledged or not. -/
theorem handle_warps (c : ClientMachine) (h : msg.enters = true) :
    ∃ cmd, .inject cmd ∈ (c.handle msg).2 ∧ cmd.moves = true := by
  cases msg with
  | enter x y seq modifiers =>
    exact ⟨.mouseMoveAbs x.toInt32 y.toInt32, by simp [handle], rfl⟩
  | _ => cases h

theorem handle_acked : (c.handle msg).1.acked = true ↔ c.acked = true ∨ msg = .infoAck := by
  cases msg <;> simp [handle]

theorem handle_entered :
    (c.handle msg).1.entered = true ↔ msg.enters = true ∨ msg ≠ .leave ∧ c.entered = true := by
  cases msg <;> simp [handle, Message.enters]

/-! ## Whole sequences -/

variable (name : String) (screen : ScreenSize) (msgs : List Message)

/-- The one bit: an acknowledgement has been processed. -/
theorem run_acked : (Mealy.run handle (new name screen) msgs).1.acked = true ↔ .infoAck ∈ msgs := by
  induction msgs using List.reverseRecOn with
  | nil => exact ⟨fun h => (by cases h), fun h => (by cases h)⟩
  | append_singleton msgs msg ih =>
    rw [Mealy.run_concat, handle_acked, ih, List.mem_append, List.mem_singleton]
    exact or_congr_right eq_comm

/-- The other: the cursor is here. -/
theorem run_entered :
    (Mealy.run handle (new name screen) msgs).1.entered = true ↔ Visited msgs := by
  induction msgs using List.reverseRecOn with
  | nil => exact ⟨fun h => (by cases h), fun h => absurd h Mealy.not_since_nil⟩
  | append_singleton msgs msg ih =>
    have hvisited : Visited (msgs ++ [msg]) ↔ msg.enters = true ∨ msg ≠ .leave ∧ Visited msgs :=
      Mealy.since_concat
    rw [Mealy.run_concat, handle_entered, ih, hvisited]

/-- **When the gate holds.**  For every client and every sequence of messages: nothing moves the
    cursor before an `InfoAck` has been processed, and nothing is injected for a message other than
    `Enter` unless the latest `Enter` or `Leave` is an `Enter`, if and only if no `Enter` comes
    before the first `InfoAck`. -/
theorem gated_throughout_iff :
    (∀ before msg, before ++ [msg] <+: msgs →
      Gated before msg ((Mealy.run handle (new name screen) before).1.handle msg).2) ↔
      ∀ before msg, before ++ [msg] <+: msgs → msg.enters = true → .infoAck ∈ before := by
  constructor
  · intro h before msg hpre henters
    obtain ⟨cmd, hmem, hmoves⟩ :=
      handle_warps (Mealy.run handle (new name screen) before).1 henters
    exact (h before msg hpre).acknowledged cmd hmem hmoves
  · intro h before msg hpre
    constructor
    · intro cmd hmem hmoves
      rcases handle_inject hmem with henters | ⟨-, hacked⟩
      · exact h before msg hpre henters
      · exact (run_acked name screen before).mp (hacked hmoves)
    · intro cmd hmem hother
      rcases handle_inject hmem with henters | ⟨hentered, -⟩
      · rw [hother] at henters
        cases henters
      · exact (run_entered name screen before).mp hentered

/-- The only message is an `Enter`, and the cursor is warped. -/
theorem warped_unacknowledged :
    ¬∀ before msg, before ++ [msg] <+: [.enter 5 6 1 0] →
      Gated before msg
        ((Mealy.run handle (new "lap" ⟨1280, 800⟩) before).1.handle msg).2 := by
  intro h
  have hgated := h [] (.enter 5 6 1 0) (List.prefix_refl _)
  have hack := hgated.acknowledged (.mouseMoveAbs 5 6) (by decide) rfl
  cases hack

end ClientMachine

end SelfKvm
