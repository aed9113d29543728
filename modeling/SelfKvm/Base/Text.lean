/-
  Text as a line-oriented file reads it: `lines`, `splitOnce` and `trim`, on lists of characters.

  `lines` cuts at line feeds and drops a carriage return before one; `splitOnce` cuts a line at its
  first separator; `trim` drops separators at both ends.  Which characters separate is a
  parameter.  The lemmas are those of a writer that puts out `key`, a separator, `value` and a line
  feed: what it wrote is cut where it was joined (`lines_cons_line`, `splitOnce_joined`,
  `trim_of_trimmed`), and what is read back can be written again (`not_mem_lines`,
  `splitOnce_eq_some`, `trimmed_trim`).  Pieces joined with a separator that is in none of them can
  be told apart again (`join_injective`).
-/
import Mathlib.Data.List.Induction

namespace SelfKvm.Text

/-! ## Lines -/

/-- A line without the carriage return before its line feed. -/
def chomp (line : List Char) : List Char :=
  if line.getLast? = some '\r' then line.dropLast else line

/-- The lines of a text, `line` being what has been read of the current one.  No line follows the
    last line feed, and a carriage return at the very end stays. -/
def linesFrom (line : List Char) : List Char → List (List Char)
  | [] => if line = [] then [] else [line]
  | c :: text => if c = '\n' then chomp line :: linesFrom [] text else linesFrom (line ++ [c]) text

def lines (text : List Char) : List (List Char) := linesFrom [] text

@[simp] theorem lines_nil : lines [] = [] := rfl

/-- Read up to the next line feed. -/
theorem linesFrom_append (done : List Char) {line : List Char} (text : List Char)
    (hline : '\n' ∉ line) :
    linesFrom done (line ++ '\n' :: text) = chomp (done ++ line) :: lines text := by
  induction line generalizing done with
  | nil =>
    rw [List.nil_append, List.append_nil]
    exact if_pos rfl
  | cons c line ih =>
    have hc : c ≠ '\n' := fun h => hline (h ▸ List.mem_cons_self)
    have hrest : '\n' ∉ line := fun h => hline (List.mem_cons_of_mem c h)
    rw [List.cons_append]
    unfold linesFrom
    rw [if_neg hc, ih (done ++ [c]) hrest, List.append_assoc, List.singleton_append]

/-- **A line that was written is read back**, if it holds no line feed and does not end with a
    carriage return. -/
theorem lines_cons_line {line : List Char} (text : List Char) (hline : '\n' ∉ line)
    (hlast : line.getLast? ≠ some '\r') : lines (line ++ '\n' :: text) = line :: lines text := by
  have h := linesFrom_append [] text hline
  unfold chomp at h
  rw [List.nil_append, if_neg hlast] at h
  exact h

theorem mem_chomp {line : List Char} {c : Char} (h : c ∈ chomp line) : c ∈ line := by
  unfold chomp at h
  split at h
  · exact List.dropLast_subset line h
  · exact h

theorem not_mem_linesFrom {done text line : List Char} (hdone : '\n' ∉ done)
    (h : line ∈ linesFrom done text) : '\n' ∉ line := by
  induction text generalizing done with
  | nil =>
    unfold linesFrom at h
    split at h
    · cases h
    · rw [List.mem_singleton.mp h]
      exact hdone
  | cons c text ih =>
    unfold linesFrom at h
    split at h
    · rcases List.mem_cons.mp h with rfl | h
      · exact fun hmem => hdone (mem_chomp hmem)
      · exact ih List.not_mem_nil h
    · rename_i hc
      refine ih ?_ h
      intro hmem
      rcases List.mem_append.mp hmem with hmem | hmem
      · exact hdone hmem
      · exact hc (List.mem_singleton.mp hmem).symm

/-- No line that is read holds a line feed. -/
theorem not_mem_lines {text line : List Char} (h : line ∈ lines text) : '\n' ∉ line :=
  not_mem_linesFrom List.not_mem_nil h

/-! ## Cutting a line -/

variable (sep : Char → Bool)

/-- What stands before and after the first separator. -/
def splitOnce : List Char → Option (List Char × List Char)
  | [] => none
  | c :: line =>
    if sep c then
      some ([], line)
    else
      (splitOnce line).map fun (before, after) => (c :: before, after)

/-- Without the separators at both ends. -/
def trim (s : List Char) : List Char := ((s.dropWhile sep).reverse.dropWhile sep).reverse

variable {sep}

/-- **A line is cut where it was joined**, if there is no separator before that place. -/
theorem splitOnce_joined {key : List Char} {c : Char} (value : List Char)
    (hkey : ∀ k ∈ key, sep k = false) (hc : sep c = true) :
    splitOnce sep (key ++ c :: value) = some (key, value) := by
  induction key with
  | nil => exact if_pos hc
  | cons k key ih =>
    have hk : ¬ sep k = true := by
      rw [hkey k List.mem_cons_self]
      exact Bool.false_ne_true
    rw [List.cons_append]
    unfold splitOnce
    rw [if_neg hk, ih fun k' hk' => hkey k' (List.mem_cons_of_mem k hk')]
    rfl

/-- What a cut gives: no separator in the first part, and nothing that was not in the line. -/
theorem splitOnce_eq_some {line key value : List Char} (h : splitOnce sep line = some (key, value)) :
    (∀ k ∈ key, sep k = false) ∧ ∀ v ∈ value, v ∈ line := by
  induction line generalizing key with
  | nil => cases h
  | cons c line ih =>
    unfold splitOnce at h
    split at h
    · injection h with h
      injection h with hkey hvalue
      subst hkey hvalue
      refine ⟨fun k hk => ?_, fun v hv => List.mem_cons_of_mem c hv⟩
      cases hk
    · rename_i hc
      cases hrest : splitOnce sep line with
      | none =>
        rw [hrest] at h
        cases h
      | some r =>
        obtain ⟨before, after⟩ := r
        rw [hrest] at h
        injection h with h
        injection h with hkey hvalue
        subst hkey hvalue
        obtain ⟨hbefore, hafter⟩ := ih hrest
        refine ⟨?_, fun v hv => List.mem_cons_of_mem c (hafter v hv)⟩
        intro k hk
        rcases List.mem_cons.mp hk with rfl | hk
        · exact Bool.eq_false_iff.mpr hc
        · exact hbefore k hk

/-! ## Trimming -/

/-- Nothing separates at either end. -/
def Trimmed (sep : Char → Bool) (s : List Char) : Prop :=
  (∀ c, s.head? = some c → sep c = false) ∧ ∀ c, s.getLast? = some c → sep c = false

/-- A text without separators. -/
theorem trimmed_of_forall {s : List Char} (h : ∀ c ∈ s, sep c = false) : Trimmed sep s :=
  ⟨fun c hc => h c (List.mem_of_mem_head? hc), fun c hc => h c (List.mem_of_getLast? hc)⟩

theorem dropWhile_of_head {s : List Char} (h : ∀ c, s.head? = some c → sep c = false) :
    s.dropWhile sep = s := by
  cases s with
  | nil => rfl
  | cons c s =>
    have hc : ¬ sep c = true := by
      rw [h c rfl]
      exact Bool.false_ne_true
    rw [List.dropWhile_cons_of_neg hc]

/-- **What needs no trimming is not changed by it.** -/
theorem trim_of_trimmed {s : List Char} (h : Trimmed sep s) : trim sep s = s := by
  unfold trim
  rw [dropWhile_of_head h.1, dropWhile_of_head (s := s.reverse), List.reverse_reverse]
  intro c hc
  rw [List.head?_reverse] at hc
  exact h.2 c hc

theorem head_dropWhile {s : List Char} {c : Char} (h : (s.dropWhile sep).head? = some c) :
    sep c = false := by
  have hhead := List.head?_dropWhile_not sep s
  rw [h] at hhead
  exact hhead

/-- Dropping at the end does not move the first character. -/
theorem head_of_suffix_dropped {s : List Char} {c : Char}
    (h : ((s.reverse.dropWhile sep).reverse).head? = some c) : s.head? = some c := by
  have hpre : (s.reverse.dropWhile sep).reverse <+: s := by
    have hsuf : s.reverse.dropWhile sep <:+ s.reverse := List.dropWhile_suffix sep
    have := List.reverse_prefix.mpr hsuf
    rwa [List.reverse_reverse] at this
  obtain ⟨rest, hrest⟩ := hpre
  rw [← hrest, List.head?_append, h]
  rfl

/-- **What has been trimmed needs no more of it.** -/
theorem trimmed_trim (s : List Char) : Trimmed sep (trim sep s) := by
  constructor
  · intro c hc
    exact head_dropWhile (head_of_suffix_dropped hc)
  · intro c hc
    unfold trim at hc
    rw [List.getLast?_reverse] at hc
    exact head_dropWhile hc

theorem mem_trim {s : List Char} {c : Char} (h : c ∈ trim sep s) : c ∈ s := by
  have h1 : c ∈ (s.dropWhile sep).reverse :=
    (List.dropWhile_suffix sep).subset (List.mem_reverse.mp h)
  exact (List.dropWhile_suffix sep).subset (List.mem_reverse.mp h1)

/-! ## Joining -/

section

variable {α : Type} {x : α}

theorem mem_join {pieces : List (List α)} {a : α} (h : a ∈ [x].intercalate pieces) :
    a = x ∨ ∃ piece ∈ pieces, a ∈ piece := by
  induction pieces with
  | nil => cases h
  | cons piece pieces ih =>
    by_cases hrest : pieces = []
    · subst hrest
      rw [List.intercalate_singleton] at h
      exact .inr ⟨piece, List.mem_cons_self, h⟩
    · rw [List.intercalate_cons_of_ne_nil hrest, List.append_assoc] at h
      rcases List.mem_append.mp h with h | h
      · exact .inr ⟨piece, List.mem_cons_self, h⟩
      · rcases List.mem_cons.mp h with h | h
        · exact .inl h
        · exact (ih h).imp_right fun ⟨p, hp, hmem⟩ => ⟨p, List.mem_cons_of_mem piece hp, hmem⟩

/-- Pieces that are not empty, joined with a separator that is in none of them. -/
theorem join_injective [DecidableEq α] {pieces pieces' : List (List α)}
    (hpieces : ∀ p ∈ pieces, p ≠ [] ∧ x ∉ p) (hpieces' : ∀ p ∈ pieces', p ≠ [] ∧ x ∉ p)
    (h : [x].intercalate pieces = [x].intercalate pieces') : pieces = pieces' := by
  -- splitting gives the pieces back, or the one empty piece of no text
  have hsplit : ∀ ps : List (List α), (∀ p ∈ ps, p ≠ [] ∧ x ∉ p) →
      ([x].intercalate ps).splitOn x = if ps = [] then [[]] else ps := by
    intro ps hps
    by_cases hempty : ps = []
    · rw [if_pos hempty, hempty]
      rfl
    · rw [if_neg hempty]
      exact List.splitOn_intercalate x (fun p hp => (hps p hp).2) hempty
  have hnot : ∀ ps : List (List α), (∀ p ∈ ps, p ≠ [] ∧ x ∉ p) → [[]] ≠ ps := by
    rintro _ hps rfl
    exact (hps [] (List.mem_singleton_self _)).1 rfl
  have heq : (if pieces = [] then [[]] else pieces) = if pieces' = [] then [[]] else pieces' := by
    rw [← hsplit pieces hpieces, ← hsplit pieces' hpieces', h]
  by_cases hempty : pieces = []
  · by_cases hempty' : pieces' = []
    · rw [hempty, hempty']
    · rw [if_pos hempty, if_neg hempty'] at heq
      exact absurd heq (hnot _ hpieces')
  · by_cases hempty' : pieces' = []
    · rw [if_neg hempty, if_pos hempty'] at heq
      exact absurd heq.symm (hnot _ hpieces)
    · rwa [if_neg hempty, if_neg hempty'] at heq

end

end SelfKvm.Text
