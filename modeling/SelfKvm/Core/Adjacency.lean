/-
  The adjacency graph a program builds with `add_screen` and `link`.

  `link` is documented to keep the graph symmetric, "so the cursor can always travel back the way it
  came".  It sets the two slots it is asked to set and looks at neither what they held nor whether
  both screens exist, and `add_screen` drops the slots of a screen it replaces.  A port is a screen
  with one of its edges, its wire leads to the opposite edge of the neighbour (`partner`), and
  symmetry is the wiring's being mutual (`SelfKvm.Base.Pairing`).  `symmetric_throughout_iff` gives
  the exact condition on each call.
-/
import SelfKvm.Core.Layout
import SelfKvm.Base.Pairing
import Mathlib.Data.List.Induction

namespace SelfKvm

open Pairing

/-- The calls that build a layout. -/
inductive LayoutCall where
  | addScreen (name : String) (size : ScreenSize)
  | link (a : String) (edge : Edge) (b : String)
  deriving DecidableEq, Repr

theorem Edge.opposite_ne (e : Edge) : e.opposite ≠ e := by
  cases e <;> decide

@[simp] theorem Edge.opposite_opposite (e : Edge) : e.opposite.opposite = e := by
  cases e <;> rfl

namespace Neighbors

@[simp] theorem get_set (n : Neighbors) (e : Edge) (s : Option String) : (n.set e s).get e = s := by
  cases e <;> rfl

theorem get_set_of_ne (n : Neighbors) {e e' : Edge} (h : e' ≠ e) (s : Option String) :
    (n.set e s).get e' = n.get e' := by
  cases e <;> cases e' <;> first | rfl | exact absurd rfl h

@[simp] theorem get_empty (e : Edge) : ({} : Neighbors).get e = none := by
  cases e <;> rfl

end Neighbors

namespace ScreenLayout

/-- The screen that lies over an edge, whether or not the layout has it. -/
def neighborOver (l : ScreenLayout) (screen : String) (edge : Edge) : Option String :=
  (l.nodes screen).bind fun node => node.neighbors.get edge

/-- Whoever is over an edge of `a` is in the layout and has `a` over the opposite edge. -/
def Symmetric (l : ScreenLayout) : Prop :=
  ∀ a b edge, l.neighborOver a edge = some b →
    l.contains b = true ∧ l.neighborOver b edge.opposite = some a

def call (l : ScreenLayout) : LayoutCall → ScreenLayout
  | .addScreen name size => l.addScreen name size
  | .link a edge b => l.link a edge b

/-- The layout after a list of calls on an empty one. -/
def build (calls : List LayoutCall) : ScreenLayout := calls.foldl call new

/-- What a call must find for the graph to stay symmetric: a screen that is replaced has no
    neighbour but itself; two screens that are linked are both there or both absent, and neither has
    a different neighbour over the edge in question. -/
def Keeps (l : ScreenLayout) : LayoutCall → Prop
  | .addScreen name _ => ∀ edge b, l.neighborOver name edge = some b → b = name
  | .link a edge b =>
    l.contains a = l.contains b ∧
    (∀ c, l.neighborOver a edge = some c → c = b) ∧
    ∀ c, l.neighborOver b edge.opposite = some c → c = a

/-! ## Ports and wires -/

/-- Where the wire of a port leads: to the opposite edge of the neighbour. -/
def partner (l : ScreenLayout) (p : String × Edge) : Option (String × Edge) :=
  (l.neighborOver p.1 p.2).map fun b => (b, p.2.opposite)

variable {l : ScreenLayout}

theorem partner_eq_some {p q : String × Edge} :
    l.partner p = some q ↔ l.neighborOver p.1 p.2 = some q.1 ∧ q.2 = p.2.opposite := by
  obtain ⟨b, e⟩ := q
  unfold partner
  rw [Option.map_eq_some_iff]
  constructor
  · rintro ⟨c, hc, heq⟩
    injection heq with hcb hce
    exact ⟨hcb ▸ hc, hce.symm⟩
  · rintro ⟨hb, he⟩
    exact ⟨b, hb, by rw [← he]⟩

/-- Only a screen of the layout has neighbours. -/
theorem contains_of_neighborOver {a b : String} {edge : Edge} (h : l.neighborOver a edge = some b) :
    l.contains a = true := by
  obtain ⟨node, hnode, -⟩ := Option.bind_eq_some_iff.mp h
  show (l.nodes a).isSome = true
  rw [hnode]
  rfl

theorem neighborOver_of_absent {a : String} (h : l.contains a = false) (edge : Edge) :
    l.neighborOver a edge = none := by
  cases hb : l.neighborOver a edge with
  | none => rfl
  | some b => exact absurd ((contains_of_neighborOver hb).symm.trans h) (by decide)

/-- **Symmetry of the graph is mutuality of the wiring.** -/
theorem symmetric_iff_mutual : l.Symmetric ↔ Mutual l.partner := by
  constructor
  · intro h p q hpq
    obtain ⟨hb, he⟩ := partner_eq_some.mp hpq
    rw [partner_eq_some, he]
    exact ⟨(h _ _ _ hb).2, (Edge.opposite_opposite p.2).symm⟩
  · intro h a b edge hb
    have hback := h (a, edge) (b, edge.opposite) (partner_eq_some.mpr ⟨hb, rfl⟩)
    have hover := (partner_eq_some.mp hback).1
    exact ⟨contains_of_neighborOver hover, hover⟩

/-! ## What a call does to the wires -/

/-- A screen that is added has no wires. -/
theorem partner_addScreen (name : String) (size : ScreenSize) :
    (l.addScreen name size).partner = rewire l.partner (fun p => p.1 = name) fun _ => none := by
  funext p
  by_cases h : p.1 = name
  · rw [rewire_of_mem (S := fun p : String × Edge => p.1 = name) h]
    simp [partner, neighborOver, addScreen, h]
  · rw [rewire_of_not_mem (S := fun p : String × Edge => p.1 = name) h]
    simp [partner, neighborOver, addScreen, Function.update_of_ne h]

/-- Setting a slot of a screen that is there. -/
theorem neighborOver_modify (a : String) (edge : Edge) (b : String) (p : String × Edge) :
    (l.modify a fun na => { na with neighbors := na.neighbors.set edge (some b) }).neighborOver
        p.1 p.2 =
      if p = (a, edge) ∧ l.contains a = true then some b else l.neighborOver p.1 p.2 := by
  obtain ⟨s, e⟩ := p
  by_cases hs : s = a
  · subst hs
    simp only [neighborOver, modify, Function.update_self, contains, Prod.mk.injEq, true_and]
    cases l.nodes s with
    | none => simp
    | some node =>
      by_cases he : e = edge
      · simp [he]
      · simp [he, Neighbors.get_set_of_ne]
  · have hne : (s, e) ≠ (a, edge) := fun h => hs (congrArg Prod.fst h)
    simp only [neighborOver, modify, Function.update_of_ne hs, hne, false_and, if_false]

/-- The slots after a link: both ends are set where they exist. -/
theorem neighborOver_link (a : String) (edge : Edge) (b : String) (p : String × Edge) :
    (l.link a edge b).neighborOver p.1 p.2 =
      if p = (b, edge.opposite) ∧ l.contains b = true then some a
      else if p = (a, edge) ∧ l.contains a = true then some b
      else l.neighborOver p.1 p.2 := by
  unfold link
  rw [neighborOver_modify, contains_modify, neighborOver_modify]

theorem contains_link (a : String) (edge : Edge) (b s : String) :
    (l.link a edge b).contains s = l.contains s := by
  unfold link
  rw [contains_modify, contains_modify]

theorem sizeOf_link (a : String) (edge : Edge) (b s : String) :
    (l.link a edge b).sizeOf s = l.sizeOf s :=
  (sizeOf_modify b s (by intro _; rfl)).trans (sizeOf_modify a s (by intro _; rfl))

/-- Linking two screens that are there wires their two ports to each other. -/
theorem partner_link {a b : String} (edge : Edge) (ha : l.contains a = true)
    (hb : l.contains b = true) :
    (l.link a edge b).partner =
      rewire l.partner (fun p => p = (a, edge) ∨ p = (b, edge.opposite)) fun p =>
        some (if p = (b, edge.opposite) then (a, edge) else (b, edge.opposite)) := by
  funext p
  unfold partner
  rw [neighborOver_link]
  by_cases hpb : p = (b, edge.opposite)
  · have hin : p = (a, edge) ∨ p = (b, edge.opposite) := .inr hpb
    rw [rewire, if_pos hin]
    simp [hpb, hb]
  · by_cases hpa : p = (a, edge)
    · have hne : (a, edge) ≠ (b, edge.opposite) := hpa ▸ hpb
      have hin : p = (a, edge) ∨ p = (b, edge.opposite) := .inl hpa
      rw [rewire, if_pos hin]
      simp [hpa, hne, ha]
    · have hout : ¬(p = (a, edge) ∨ p = (b, edge.opposite)) := by simp [hpa, hpb]
      rw [rewire, if_neg hout]
      simp [hpa, hpb]

/-! ## The exact condition -/

/-- Replacing a screen cuts its wires to the others. -/
theorem symmetric_addScreen_iff (h : l.Symmetric) (name : String) (size : ScreenSize) :
    (l.addScreen name size).Symmetric ↔ l.Keeps (.addScreen name size) := by
  rw [symmetric_iff_mutual, partner_addScreen,
    mutual_rewire_iff (symmetric_iff_mutual.mp h) fun _ _ _ hf => by cases hf]
  constructor
  · intro hclosed edge b hb
    exact hclosed (name, edge) (b, edge.opposite) rfl (partner_eq_some.mpr ⟨hb, rfl⟩)
  · rintro hkeeps ⟨s, e⟩ q rfl hpq
    exact hkeeps e q.1 (partner_eq_some.mp hpq).1

/-- Linking two screens that are there cuts the wires their two ports had before. -/
theorem symmetric_link_iff_of_present (h : l.Symmetric) {a b : String} (edge : Edge)
    (ha : l.contains a = true) (hb : l.contains b = true) :
    (l.link a edge b).Symmetric ↔ l.Keeps (.link a edge b) := by
  rw [symmetric_iff_mutual, partner_link edge ha hb, mutual_rewire_iff (symmetric_iff_mutual.mp h)]
  · constructor
    · intro hclosed
      refine ⟨ha.trans hb.symm, ?_, ?_⟩
      · intro c hc
        have hport := hclosed (a, edge) (c, edge.opposite) (.inl rfl) (partner_eq_some.mpr ⟨hc, rfl⟩)
        rcases hport with heq | heq
        · exact absurd (congrArg Prod.snd heq) edge.opposite_ne
        · exact congrArg Prod.fst heq
      · intro c hc
        have hport := hclosed (b, edge.opposite) (c, edge) (.inr rfl)
          (partner_eq_some.mpr ⟨hc, (Edge.opposite_opposite edge).symm⟩)
        rcases hport with heq | heq
        · exact congrArg Prod.fst heq
        · exact absurd (congrArg Prod.snd heq).symm edge.opposite_ne
    · rintro ⟨-, hab, hba⟩ p ⟨c, e⟩ hp hpq
      obtain ⟨hc, he⟩ := partner_eq_some.mp hpq
      rcases hp with rfl | rfl
      · exact .inr (Prod.ext (hab c hc) he)
      · exact .inl (Prod.ext (hba c hc) (he.trans (Edge.opposite_opposite edge)))
  · -- the two new wires lead to each other
    intro p q hp hpq
    have hne : (a, edge) ≠ (b, edge.opposite) :=
      fun heq => edge.opposite_ne (congrArg Prod.snd heq).symm
    injection hpq with hpq
    rcases hp with rfl | rfl
    · rw [if_neg hne] at hpq
      subst hpq
      exact ⟨.inr rfl, by rw [if_pos rfl]⟩
    · rw [if_pos rfl] at hpq
      subst hpq
      exact ⟨.inl rfl, by rw [if_neg hne]⟩

/-- A slot that names a screen that is not there. -/
theorem not_symmetric_of_dangling {a b : String} {edge : Edge} (hab : l.neighborOver a edge = some b)
    (hb : l.contains b = false) : ¬l.Symmetric := by
  intro h
  exact absurd ((h a b edge hab).1.symm.trans hb) (by decide)

/-- Linking a screen that is there with one that is not leaves such a slot. -/
theorem symmetric_link_iff_of_half {a b : String} (edge : Edge)
    (hab : l.contains a ≠ l.contains b) :
    (l.link a edge b).Symmetric ↔ l.Keeps (.link a edge b) := by
  have hne : (a, edge) ≠ (b, edge.opposite) :=
    fun heq => edge.opposite_ne (congrArg Prod.snd heq).symm
  have hslotA := neighborOver_link (l := l) a edge b (a, edge)
  have hslotB := neighborOver_link (l := l) a edge b (b, edge.opposite)
  constructor
  · intro hsymm
    cases ha : l.contains a with
    | true =>
      have hb : l.contains b = false := by
        rw [ha] at hab
        exact Bool.eq_false_iff.mpr hab.symm
      rw [if_neg (fun hp => hne hp.1), if_pos ⟨rfl, ha⟩] at hslotA
      exact absurd hsymm (not_symmetric_of_dangling hslotA ((contains_link a edge b b).trans hb))
    | false =>
      have hb : l.contains b = true := by
        rw [ha] at hab
        exact Bool.ne_false_iff.mp hab.symm
      rw [if_pos ⟨rfl, hb⟩] at hslotB
      exact absurd hsymm (not_symmetric_of_dangling hslotB ((contains_link a edge b a).trans ha))
  · intro hkeeps
    exact absurd hkeeps.1 hab

/-- Linking two screens that are not there does nothing. -/
theorem symmetric_link_iff_of_absent (h : l.Symmetric) {a b : String} (edge : Edge)
    (ha : l.contains a = false) (hb : l.contains b = false) :
    (l.link a edge b).Symmetric ↔ l.Keeps (.link a edge b) := by
  have hsame : ∀ s e, (l.link a edge b).neighborOver s e = l.neighborOver s e := by
    intro s e
    rw [neighborOver_link a edge b (s, e), ha, hb]
    simp
  constructor
  · intro _
    refine ⟨ha.trans hb.symm, ?_, ?_⟩
    · intro c hc
      rw [neighborOver_of_absent ha] at hc
      cases hc
    · intro c hc
      rw [neighborOver_of_absent hb] at hc
      cases hc
  · intro _ s t e ht
    rw [hsame] at ht
    rw [contains_link, hsame]
    exact h s t e ht

/-- **One call**: from a symmetric graph it leads to a symmetric one exactly if it keeps it. -/
theorem symmetric_call_iff (h : l.Symmetric) (c : LayoutCall) :
    (l.call c).Symmetric ↔ l.Keeps c := by
  cases c with
  | addScreen name size => exact symmetric_addScreen_iff h name size
  | link a edge b =>
    show (l.link a edge b).Symmetric ↔ _
    by_cases hab : l.contains a = l.contains b
    · cases hb : l.contains b with
      | true => exact symmetric_link_iff_of_present h edge (hab.trans hb) hb
      | false => exact symmetric_link_iff_of_absent h edge (hab.trans hb) hb
    · exact symmetric_link_iff_of_half edge hab

/-- Nothing borders on anything at first. -/
theorem symmetric_new : new.Symmetric := by
  intro a b edge hb
  cases hb

theorem build_concat (calls : List LayoutCall) (c : LayoutCall) :
    build (calls ++ [c]) = (build calls).call c := by
  unfold build
  rw [List.foldl_append]
  rfl

/-- **When the graph is symmetric.**  For every list of calls on an empty layout, the graph is
    symmetric after each of them if and only if each of them keeps it: no call replaces a screen
    that has another as its neighbour, links a screen that is there with one that is not, or
    links over an edge of either screen that already leads elsewhere. -/
theorem symmetric_throughout_iff (calls : List LayoutCall) :
    (∀ pre, pre <+: calls → (build pre).Symmetric) ↔
      ∀ pre c, pre ++ [c] <+: calls → (build pre).Keeps c := by
  constructor
  · intro h pre c hpre
    have hbefore := h pre ((List.prefix_append pre [c]).trans hpre)
    rw [← symmetric_call_iff hbefore, ← build_concat]
    exact h (pre ++ [c]) hpre
  · intro h pre
    induction pre using List.reverseRecOn with
    | nil =>
      intro _
      exact symmetric_new
    | append_singleton pre c ih =>
      intro hpre
      have hbefore := ih ((List.prefix_append pre [c]).trans hpre)
      rw [build_concat, symmetric_call_iff hbefore]
      exact h pre c hpre

/-- Linking the right edge a second time: the first neighbour still has the screen on its left. -/
theorem relinked_asymmetric : ¬∀ calls, (build calls).Symmetric := by
  intro h
  have hsymm := h [.addScreen "srv" ⟨1920, 1080⟩, .addScreen "lap" ⟨1280, 800⟩,
    .addScreen "desk" ⟨2560, 1440⟩, .link "srv" .right "lap", .link "srv" .right "desk"]
  have hback := (hsymm "lap" "srv" .left rfl).2
  exact absurd hback (by decide)

end ScreenLayout

end SelfKvm
