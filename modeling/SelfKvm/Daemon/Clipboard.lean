/-
  The clipboard bridge (`kvm-daemon/src/clipboard.rs`).

  One thread owns the system clipboard.  It applies the texts that other machines send, polls the
  clipboard for what the user copies here, and puts what is new on a stream to the other machines.
  New is what differs from the baseline `last`, and a write moves the baseline along with the
  clipboard, so that a paste is not sent back.

  1. A write that succeeds leaves the clipboard and the baseline equal.
  2. A write that fails moves the baseline alone.  The poll then finds the clipboard changed though
     nobody touched it, and sends out what was there before: a text that came from another machine,
     or one that was sent already.
  3. Nothing else separates the two but a copy of the user (`Tracked`), hence
     `sourced_throughout_iff`: every text sent out stems from a fresh copy exactly if no poll comes
     upon such a write.
-/
import SelfKvm.Base.Mealy

namespace SelfKvm

/-! ## The code -/

/-- The thread of the bridge, and what it works on. -/
structure ClipboardBridge where
  /-- What the system clipboard reads as; empty if there is no text on it. -/
  clipboard : String
  /-- Handed to the setter, and not taken from the queue yet. -/
  setRx : List String
  /-- The baseline of the poll. -/
  last : String
  /-- The queue was found empty: the next operation is the read. -/
  polling : Bool
  /-- The loop goes on. -/
  running : Bool
  /-- The receiver of the changes is still there. -/
  listened : Bool
  deriving DecidableEq, Repr

inductive ClipboardEvent where
  /-- The user copies a text. -/
  | copy (text : String)
  /-- `ClipboardSetter::set` is called. -/
  | set (text : String)
  /-- The thread comes to its next operation, and a call of the clipboard succeeds or fails. -/
  | turn (ok : Bool)
  /-- The receiver is dropped. -/
  | hangUp
  deriving DecidableEq, Repr

/-- What is put on record: the stream of changes is what is `reported`. -/
inductive ClipboardNotice where
  | copied (text : String)
  | pasted (text : String)
  | refused (text : String)
  | reported (text : String)
  deriving DecidableEq, Repr

namespace ClipboardBridge

/-- The thread starts with a first read of the clipboard. -/
def spawn (content : String) (ok : Bool) : ClipboardBridge where
  clipboard := content
  setRx := []
  last := if ok then content else ""
  polling := false
  running := true
  listened := true

/-- Take one text from the queue and write it. -/
def drain (b : ClipboardBridge) (ok : Bool) : ClipboardBridge × List ClipboardNotice :=
  match b.setRx with
  | [] => ({ b with polling := true }, [])
  | text :: rest =>
    -- the baseline moves whatever becomes of the write
    ({ b with clipboard := if ok then text else b.clipboard, setRx := rest, last := text },
      [if ok then .pasted text else .refused text])

/-- Read the clipboard, and report what is new. -/
def poll (b : ClipboardBridge) (ok : Bool) : ClipboardBridge × List ClipboardNotice :=
  if ok ∧ b.clipboard ≠ b.last ∧ b.clipboard ≠ "" then
    if b.listened then
      ({ b with last := b.clipboard, polling := false }, [.reported b.clipboard])
    else
      ({ b with last := b.clipboard, running := false }, [])
  else
    ({ b with polling := false }, [])

def turn (b : ClipboardBridge) (ok : Bool) : ClipboardBridge × List ClipboardNotice :=
  if b.running then if b.polling then b.poll ok else b.drain ok else (b, [])

def step (b : ClipboardBridge) : ClipboardEvent → ClipboardBridge × List ClipboardNotice
  | .copy text => ({ b with clipboard := text }, [.copied text])
  | .set text => ({ b with setRx := b.setRx ++ [text] }, [])
  | .turn ok => b.turn ok
  | .hangUp => ({ b with listened := false }, [])

end ClipboardBridge

/-! ## The record -/

/-- A failed write. -/
def ClipboardNotice.refusal : ClipboardNotice → Bool
  | .refused _ => true
  | _ => false

/-- The text was put on the clipboard by a copy, and since then no write succeeded and nothing was
    copied or reported. -/
def Fresh (record : List ClipboardNotice) (text : String) : Prop :=
  Mealy.Since (fun n => n.refusal = true) (fun n => n = .copied text) record

namespace ClipboardBridge

/-- What is asked of a step: what it reports is fresh. -/
def Sourced (record : List ClipboardNotice) (b : ClipboardBridge) (e : ClipboardEvent) : Prop :=
  ∀ text, .reported text ∈ (b.step e).2 → Fresh record text

/-- The condition: if a poll that reads the clipboard comes upon a failed write, the clipboard is
    empty, or holds just the text that could not be written, or the failed writes came after a copy
    that waits to be reported. -/
def Clean (record : List ClipboardNotice) (b : ClipboardBridge) : ClipboardEvent → Prop
  | .turn true => b.running = true → b.polling = true → b.listened = true →
      ∀ text, record.getLast? = some (.refused text) →
        b.clipboard = "" ∨ b.clipboard = text ∨ ∃ waiting, Fresh record waiting
  | _ => True

/-- How the clipboard and the baseline stand to what is on record. -/
structure Tracked (record : List ClipboardNotice) (b : ClipboardBridge) : Prop where
  holds : ∀ text, Fresh record text → b.clipboard = text
  refused : b.running = true → ∀ text, record.getLast? = some (.refused text) → b.last = text
  settled : b.clipboard = b.last ∨ (∃ text, Fresh record text) ∨
    ∃ text, record.getLast? = some (.refused text)

variable {b : ClipboardBridge} {record : List ClipboardNotice}

/-! ## One step -/

/-- **What is reported, and when.** -/
theorem mem_step_reported {e : ClipboardEvent} {text : String} :
    .reported text ∈ (b.step e).2 ↔
      e = .turn true ∧ b.running = true ∧ b.polling = true ∧ b.listened = true ∧
        b.clipboard ≠ b.last ∧ b.clipboard ≠ "" ∧ text = b.clipboard := by
  cases e with
  | copy t => simp [step]
  | set t => simp [step]
  | hangUp => simp [step]
  | turn ok =>
    show _ ∈ (b.turn ok).2 ↔ _
    unfold turn
    by_cases hrun : b.running = true
    · rw [if_pos hrun]
      by_cases hpoll : b.polling = true
      · rw [if_pos hpoll]
        unfold poll
        split
        · rename_i hnew
          by_cases hlisten : b.listened = true
          · simp [hrun, hpoll, hlisten, hnew]
          · simp [hlisten]
        · rename_i hnew
          constructor
          · exact fun h => by cases h
          · rintro ⟨he, -, -, -, hne, hsome, -⟩
            injection he with hok
            exact absurd ⟨hok, hne, hsome⟩ hnew
      · rw [if_neg hpoll]
        unfold drain
        cases b.setRx <;> cases ok <;> simp [hpoll]
    · simp [hrun]

theorem Tracked.spawn (content : String) : Tracked [] (spawn content true) where
  holds := fun _ hfresh => absurd hfresh Mealy.not_since_nil
  refused := by
    intro _ text h
    cases h
  settled := .inl rfl

/-- The latest notice is the one that was added. -/
theorem refused_concat {n : ClipboardNotice} {text : String}
    (h : (record ++ [n]).getLast? = some (.refused text)) : n = .refused text := by
  rw [List.getLast?_concat] at h
  injection h

namespace Tracked

/-- What does not touch the clipboard and the baseline. -/
theorem congr {b' : ClipboardBridge} (h : Tracked record b) (hclip : b'.clipboard = b.clipboard)
    (hlast : b'.last = b.last) (hrun : b'.running = b.running) : Tracked record b' where
  holds := fun text hfresh => hclip.trans (h.holds text hfresh)
  refused := fun hrunning text hrefused => hlast.trans (h.refused (hrun ▸ hrunning) text hrefused)
  settled := by
    rw [hclip, hlast]
    exact h.settled

/-- What leaves the two equal, and ends the fresh copy or the thread. -/
theorem level {n : ClipboardNotice} (hlevel : b.clipboard = b.last) (hn : n.refusal = false)
    (hcopied : ∀ text, n ≠ .copied text) : Tracked (record ++ [n]) b where
  holds := by
    intro text hfresh
    rcases Mealy.since_concat.mp hfresh with hn' | ⟨hn', -⟩
    · exact absurd hn' (hcopied text)
    · rw [hn] at hn'
      cases hn'
  refused := by
    intro _ text hrefused
    rw [refused_concat hrefused] at hn
    cases hn
  settled := .inl hlevel

theorem drain (h : Tracked record b) (ok : Bool) :
    Tracked (record ++ (b.drain ok).2) (b.drain ok).1 := by
  unfold ClipboardBridge.drain
  cases b.setRx with
  | nil =>
    show Tracked (record ++ []) _
    rw [List.append_nil]
    exact h.congr rfl rfl rfl
  | cons text rest =>
    cases ok with
    | true => exact level rfl rfl fun _ hcopied => by cases hcopied
    | false =>
      show Tracked (record ++ [.refused text]) { b with setRx := rest, last := text }
      refine ⟨?_, ?_, .inr (.inr ⟨text, List.getLast?_concat⟩)⟩
      · intro copied hfresh
        rcases Mealy.since_concat.mp hfresh with hn | ⟨-, hfresh⟩
        · cases hn
        · exact h.holds copied hfresh
      · intro _ text' hrefused
        injection refused_concat hrefused

theorem poll (h : Tracked record b) (ok : Bool) :
    Tracked (record ++ (b.poll ok).2) (b.poll ok).1 := by
  unfold ClipboardBridge.poll
  split
  · split
    · exact level rfl rfl fun _ hcopied => by cases hcopied
    · rw [List.append_nil]
      exact ⟨h.holds, fun hrun => (by cases hrun), .inl rfl⟩
  · rw [List.append_nil]
    exact h.congr rfl rfl rfl

/-- **Every step keeps it.** -/
theorem step (h : Tracked record b) (e : ClipboardEvent) :
    Tracked (record ++ (b.step e).2) (b.step e).1 := by
  cases e with
  | copy text =>
    show Tracked (record ++ [.copied text]) { b with clipboard := text }
    refine ⟨?_, ?_, .inr (.inl ⟨text, Mealy.since_concat.mpr (.inl rfl)⟩)⟩
    · intro text' hfresh
      rcases Mealy.since_concat.mp hfresh with hn | ⟨hn, -⟩
      · injection hn
      · cases hn
    · intro _ text' hrefused
      cases refused_concat hrefused
  | set text =>
    show Tracked (record ++ []) _
    rw [List.append_nil]
    exact h.congr rfl rfl rfl
  | turn ok =>
    show Tracked (record ++ (b.turn ok).2) (b.turn ok).1
    unfold turn
    split
    · split
      · exact h.poll ok
      · exact h.drain ok
    · rw [List.append_nil]
      exact h
  | hangUp =>
    show Tracked (record ++ []) _
    rw [List.append_nil]
    exact h.congr rfl rfl rfl

/-- **A step reports fresh copies only exactly if it is clean.** -/
theorem sourced_iff (h : Tracked record b) (e : ClipboardEvent) :
    b.Sourced record e ↔ b.Clean record e := by
  constructor
  · intro hsourced
    unfold Clean
    split
    · intro hrun hpoll hlisten text hrefused
      by_cases hempty : b.clipboard = ""
      · exact .inl hempty
      · by_cases hsame : b.clipboard = text
        · exact .inr (.inl hsame)
        · have hnew : b.clipboard ≠ b.last := by
            rw [h.refused hrun text hrefused]
            exact hsame
          have hreported := mem_step_reported.mpr
            ⟨rfl, hrun, hpoll, hlisten, hnew, hempty, rfl⟩
          exact .inr (.inr ⟨_, hsourced _ hreported⟩)
    · trivial
  · intro hclean text hreported
    obtain ⟨rfl, hrun, hpoll, hlisten, hnew, hsome, rfl⟩ := mem_step_reported.mp hreported
    -- the clipboard differs from the baseline: by a copy, or by a failed write
    rcases h.settled with hlevel | ⟨text, hfresh⟩ | ⟨text, hrefused⟩
    · exact absurd hlevel hnew
    · rw [h.holds text hfresh]
      exact hfresh
    · rcases hclean hrun hpoll hlisten text hrefused with hempty | hsame | ⟨waiting, hfresh⟩
      · exact absurd hempty hsome
      · exact absurd (hsame.trans (h.refused hrun text hrefused).symm) hnew
      · rw [h.holds waiting hfresh]
        exact hfresh

end Tracked

/-! ## Every run -/

theorem tracked_run (content : String) (es : List ClipboardEvent) :
    Tracked (Mealy.run step (spawn content true) es).2
      (Mealy.run step (spawn content true) es).1 :=
  Mealy.run_induction step (P := fun _ b record => Tracked record b) (Tracked.spawn content)
    (fun _ _ _ e h => h.step e) es

/-- **Every text that is sent out stems from a copy made after the one sent before, exactly if no
    poll comes upon a failed write that left another text on the clipboard.** -/
theorem sourced_throughout_iff (content : String) (es : List ClipboardEvent) :
    Mealy.EveryStep step (spawn content true) es (fun record b e => b.Sourced record e) ↔
      Mealy.EveryStep step (spawn content true) es (fun record b e => b.Clean record e) := by
  constructor
  · intro h js e hpre
    exact ((tracked_run content js).sourced_iff e).mp (h js e hpre)
  · intro h js e hpre
    exact ((tracked_run content js).sourced_iff e).mpr (h js e hpre)

/-- Another machine's text is written, its next one is not, and the first goes out again. -/
theorem echoed_after_refusal :
    ¬Mealy.EveryStep step (spawn "" true)
      [.set "one", .set "two", .turn true, .turn false, .turn true, .turn true]
      fun record b e => b.Sourced record e := by
  intro h
  have hpaste := h [.set "one", .set "two", .turn true, .turn false, .turn true] (.turn true)
    (List.prefix_refl _)
  obtain ⟨before, _, after, hrecord, rfl, -⟩ := hpaste "one" (by decide)
  have hcopied : ClipboardNotice.copied "one" ∈
      (Mealy.run step (spawn "" true)
        [.set "one", .set "two", .turn true, .turn false, .turn true]).2 := by
    rw [hrecord]
    exact List.mem_append_right before List.mem_cons_self
  exact absurd hcopied (by decide)

/-- **While no write fails, nothing is echoed.** -/
theorem sourced_of_written (content : String) (es : List ClipboardEvent)
    (hwritten : ∀ text, .refused text ∉ (Mealy.run step (spawn content true) es).2) :
    Mealy.EveryStep step (spawn content true) es fun record b e => b.Sourced record e := by
  rw [sourced_throughout_iff]
  rintro js e ⟨rest, rfl⟩
  unfold Clean
  split
  · intro _ _ _ text hrefused
    refine absurd ?_ (hwritten text)
    rw [List.append_assoc, Mealy.run_append]
    exact List.mem_append_left _ (List.mem_of_getLast? hrefused)
  · trivial

end ClipboardBridge

end SelfKvm
