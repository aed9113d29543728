/-
  The layout editor (`ui/src/main.ts`).

  Screens stand in the cells of a small grid.  They are added in the first free cell under a name
  made from their number, dragged from cell to cell (two change places), removed, and one of them
  is marked as this machine.  What the server needs of the result is `Usable`: distinct cells of the
  grid, distinct names, and exactly one screen marked.

  Moving, marking and removing keep it.  Adding does not: the name is made from how many screens
  there are and not from which, so after a removal it may be taken, and the first screen in an
  empty editor is marked by nobody.  `usable_throughout_iff` says that nothing else goes wrong.
-/
import SelfKvm.App.Grid
import SelfKvm.Base.Mealy
import Mathlib.Logic.Equiv.Basic

namespace SelfKvm.Editor

/-! ## The code -/

structure Screen where
  id : String
  name : String
  w : Nat
  h : Nat
  col : Nat
  row : Nat
  «local» : Bool
  deriving DecidableEq, Repr

def cols : Nat := 4
def rows : Nat := 3

/-- What the editor opens with. -/
def screens : List Screen :=
  [⟨"s1", "studio", 1920, 1080, 1, 1, true⟩, ⟨"s2", "laptop", 1280, 800, 2, 1, false⟩]

/-- Assign to the first screen of a kind. -/
def assignFirst (p : Screen → Bool) (f : Screen → Screen) : List Screen → List Screen
  | [] => []
  | s :: ss => if p s then f s :: ss else s :: assignFirst p f ss

def moveScreen (screens : List Screen) (id : String) (col row : Nat) : List Screen :=
  match screens.find? (·.id = id) with
  | none => screens
  | some dragged =>
    -- whoever stands there already takes the place of the one that comes
    let screens := assignFirst (fun s => s.col = col ∧ s.row = row ∧ s.id ≠ id)
      (fun s => { s with col := dragged.col, row := dragged.row }) screens
    assignFirst (·.id = id) (fun s => { s with col, row }) screens

def setLocal (screens : List Screen) (id : String) : List Screen :=
  screens.map fun s => { s with «local» := s.id == id }

/-- Row by row, from the left. -/
def firstFreeCell (screens : List Screen) : Option (Nat × Nat) :=
  ((List.range rows).flatMap fun r => (List.range cols).map fun c => (c, r)).find? fun cell =>
    !screens.any fun s => s.col = cell.1 ∧ s.row = cell.2

/-- The name of the next screen. -/
def nextName (screens : List Screen) : String := "screen" ++ toString (screens.length + 1)

/-- The screens, and what is logged. -/
def addScreen (screens : List Screen) (id : String) : List Screen × List String :=
  match firstFreeCell screens with
  | none => (screens, ["no free grid cells — remove a screen first"])
  | some (c, r) => (screens ++ [⟨id, nextName screens, 1920, 1080, c, r, false⟩], [])

/-- Mark the first screen, if there is one. -/
def markFirst : List Screen → List Screen
  | [] => []
  | s :: ss => { s with «local» := true } :: ss

def removeScreen (screens : List Screen) (id : String) : List Screen :=
  let wasLocal := (screens.find? (·.id = id)).any (·.local)
  let screens := screens.filter (·.id ≠ id)
  if wasLocal then markFirst screens else screens

inductive Edit where
  /-- The identifier is made from the clock. -/
  | addScreen (id : String)
  | removeScreen (id : String)
  | moveScreen (id : String) (col row : Nat)
  | setLocal (id : String)
  deriving DecidableEq, Repr

def step (screens : List Screen) : Edit → List Screen × List String
  | .addScreen id => addScreen screens id
  | .removeScreen id => (removeScreen screens id, [])
  | .moveScreen id col row => (moveScreen screens id col row, [])
  | .setLocal id => (setLocal screens id, [])

/-! ## What is asked of the screens -/

def Screen.cell (s : Screen) : Nat × Nat := (s.col, s.row)

/-- A layout the server can use. -/
structure Usable (screens : List Screen) : Prop where
  cells : (screens.map Screen.cell).Nodup
  inside : ∀ cell ∈ screens.map Screen.cell, cell.1 < cols ∧ cell.2 < rows
  names : (screens.map Screen.name).Nodup
  one_local : screens ≠ [] → screens.countP (·.local) = 1

/-- The edits that can be made: identifiers are fresh, targets are inside the grid, and only a
    screen that is there is marked. -/
def Proper (screens : List Screen) : Edit → Prop
  | .addScreen id => ∀ s ∈ screens, s.id ≠ id
  | .removeScreen _ => True
  | .moveScreen _ col row => col < cols ∧ row < rows
  | .setLocal id => ∃ s ∈ screens, s.id = id

/-- The condition: a screen is added only next to others, and under a name that is free. -/
def Safe (screens : List Screen) : Edit → Prop
  | .addScreen _ => (firstFreeCell screens).isSome = true →
      screens ≠ [] ∧ ∀ s ∈ screens, s.name ≠ nextName screens
  | _ => True

/-- Usable, and the identifiers are distinct. -/
structure Kept (screens : List Screen) : Prop where
  ids : (screens.map Screen.id).Nodup
  usable : Usable screens

/-! ## Lists -/

/-- Of distinct things exactly one is of a kind. -/
theorem countP_eq_one_iff {α : Type} {p : α → Bool} {l : List α} (hl : l.Nodup) :
    l.countP p = 1 ↔ ∃ s ∈ l, p s = true ∧ ∀ t ∈ l, p t = true → t = s := by
  rw [List.countP_eq_length_filter, List.length_eq_one_iff]
  constructor
  · rintro ⟨s, hs⟩
    have hmem : ∀ t, t ∈ l ∧ p t = true ↔ t = s := by
      intro t
      rw [← List.mem_filter, hs, List.mem_singleton]
    obtain ⟨hsl, hps⟩ := (hmem s).mpr rfl
    exact ⟨s, hsl, hps, fun t ht hpt => (hmem t).mp ⟨ht, hpt⟩⟩
  · rintro ⟨s, hsl, hps, hall⟩
    refine ⟨s, List.perm_singleton.mp ?_⟩
    apply (List.perm_ext_iff_of_nodup (hl.filter p) (List.nodup_singleton s)).mpr
    intro t
    rw [List.mem_filter, List.mem_singleton]
    constructor
    · exact fun ht => hall t ht.1 ht.2
    · rintro rfl
      exact ⟨hsl, hps⟩

theorem nodup_map_concat {α β : Type} {f : α → β} {l : List α} {a : α} :
    ((l ++ [a]).map f).Nodup ↔ (l.map f).Nodup ∧ ∀ s ∈ l, f s ≠ f a := by
  rw [List.map_append, List.nodup_append]
  constructor
  · rintro ⟨hl, -, hne⟩
    exact ⟨hl, fun s hs => hne _ (List.mem_map_of_mem hs) _ (List.mem_singleton_self _)⟩
  · rintro ⟨hl, hne⟩
    refine ⟨hl, List.nodup_singleton _, ?_⟩
    intro x hx y hy
    obtain ⟨s, hs, rfl⟩ := List.mem_map.mp hx
    rw [List.mem_singleton.mp hy]
    exact hne s hs

section

variable {l : List Screen} {p : Screen → Bool} {f : Screen → Screen}

/-- What is not assigned is kept. -/
theorem map_assignFirst {β : Type} {g : Screen → β} (hg : ∀ s, g (f s) = g s) :
    (assignFirst p f l).map g = l.map g := by
  induction l with
  | nil => rfl
  | cons s ss ih =>
    unfold assignFirst
    by_cases hs : p s = true
    · rw [if_pos hs, List.map_cons, List.map_cons, hg]
    · rw [if_neg hs, List.map_cons, List.map_cons, ih]

theorem map_markFirst {β : Type} {g : Screen → β} (hg : ∀ s, g { s with «local» := true } = g s) :
    (markFirst l).map g = l.map g := by
  cases l with
  | nil => rfl
  | cons s ss =>
    show g _ :: ss.map g = g s :: ss.map g
    rw [hg]

/-- Where at most one screen is of the kind, the first one is every one. -/
theorem assignFirst_eq_map (hl : l.Nodup)
    (hunique : ∀ s ∈ l, ∀ t ∈ l, p s = true → p t = true → s = t) :
    assignFirst p f l = l.map fun s => if p s = true then f s else s := by
  induction l with
  | nil => rfl
  | cons s ss ih =>
    obtain ⟨hs, hss⟩ := List.nodup_cons.mp hl
    have hrest : ∀ t ∈ ss, ∀ u ∈ ss, p t = true → p u = true → t = u := fun t ht u hu =>
      hunique t (List.mem_cons_of_mem s ht) u (List.mem_cons_of_mem s hu)
    unfold assignFirst
    rw [List.map_cons]
    by_cases hps : p s = true
    · rw [if_pos hps, if_pos hps]
      congr 1
      have hsame : ∀ t ∈ ss, (if p t = true then f t else t) = t := by
        intro t ht
        apply if_neg
        intro hpt
        have heq := hunique s List.mem_cons_self t (List.mem_cons_of_mem s ht) hps hpt
        exact hs (heq ▸ ht)
      rw [List.map_congr_left hsame, List.map_id']
    · rw [if_neg hps, if_neg hps, ih hss hrest]

/-- Where identifiers are distinct, the first screen of an identifier is every one. -/
theorem assignFirst_id (hl : (l.map Screen.id).Nodup) (id : String) :
    assignFirst (·.id = id) f l = l.map fun s => if s.id = id then f s else s := by
  rw [assignFirst_eq_map (List.Nodup.of_map _ hl)]
  · simp only [decide_eq_true_eq]
  · intro s hs t ht hps hpt
    exact List.inj_on_of_nodup_map hl hs ht
      ((of_decide_eq_true hps).trans (of_decide_eq_true hpt).symm)

end

/-! ## One edit -/

variable {screens : List Screen} {id : String} {col row : Nat}

namespace Kept

theorem nodup (h : Kept screens) : screens.Nodup := List.Nodup.of_map _ h.ids

theorem eq_of_id (h : Kept screens) {s t : Screen} (hs : s ∈ screens) (ht : t ∈ screens)
    (hid : s.id = t.id) : s = t := List.inj_on_of_nodup_map h.ids hs ht hid

theorem eq_of_cell (h : Kept screens) {s t : Screen} (hs : s ∈ screens) (ht : t ∈ screens)
    (hcell : s.cell = t.cell) : s = t := List.inj_on_of_nodup_map h.usable.cells hs ht hcell

end Kept

theorem find_id {d : Screen} (hd : screens.find? (·.id = id) = some d) : d ∈ screens ∧ d.id = id :=
  ⟨List.mem_of_find?_eq_some hd, by simpa using List.find?_some hd⟩

/-- What a drag of `d` makes of a screen. -/
def exchanged (d : Screen) (col row : Nat) (s : Screen) : Screen :=
  let s := if s.col = col ∧ s.row = row ∧ s.id ≠ d.id then
    { s with col := d.col, row := d.row } else s
  if s.id = d.id then { s with col, row } else s

/-- Nobody stands in two cells and no two in one, so each assignment is to every screen of the
    kind. -/
theorem moveScreen_eq_map (h : Kept screens) {d : Screen}
    (hd : screens.find? (·.id = id) = some d) (col row : Nat) :
    moveScreen screens id col row = screens.map (exchanged d col row) := by
  obtain ⟨-, rfl⟩ := find_id hd
  unfold moveScreen
  rw [hd]
  show assignFirst _ _ (assignFirst _ _ screens) = _
  have hids := map_assignFirst (l := screens)
    (p := fun s => s.col = col ∧ s.row = row ∧ s.id ≠ d.id)
    (f := fun s => { s with col := d.col, row := d.row }) (g := Screen.id) fun _ => rfl
  have hcell : ∀ s ∈ screens, ∀ t ∈ screens,
      decide (s.col = col ∧ s.row = row ∧ s.id ≠ d.id) = true →
      decide (t.col = col ∧ t.row = row ∧ t.id ≠ d.id) = true → s = t := by
    intro s hs t ht hps hpt
    obtain ⟨hcol, hrow, -⟩ := of_decide_eq_true hps
    obtain ⟨hcol', hrow', -⟩ := of_decide_eq_true hpt
    exact h.eq_of_cell hs ht (Prod.ext (hcol.trans hcol'.symm) (hrow.trans hrow'.symm))
  rw [assignFirst_eq_map h.nodup hcell] at hids ⊢
  rw [assignFirst_id (hids ▸ h.ids), List.map_map]
  apply List.map_congr_left
  intro s _
  simp only [Function.comp_apply, decide_eq_true_eq]
  rfl

/-- The dragged screen and the one that stood there change places, the others stay. -/
theorem cell_exchanged (h : Kept screens) {d s : Screen} (hd : d ∈ screens) (hs : s ∈ screens)
    (col row : Nat) :
    (exchanged d col row s).cell = Equiv.swap d.cell (col, row) s.cell := by
  unfold exchanged
  by_cases hid : s.id = d.id
  · obtain rfl := h.eq_of_id hs hd hid
    simp [Screen.cell]
  · have hne : s.cell ≠ d.cell := by
      intro hcell
      exact hid (congrArg Screen.id (h.eq_of_cell hs hd hcell))
    by_cases hcell : s.cell = (col, row)
    · rw [hcell, Equiv.swap_apply_right]
      injection hcell with hcol hrow
      simp [hid, hcol, hrow, Screen.cell]
    · rw [Equiv.swap_apply_of_ne_of_ne hne hcell]
      have hout : ¬(s.col = col ∧ s.row = row) := by
        rintro ⟨hcol, hrow⟩
        exact hcell (Prod.ext hcol hrow)
      simp [hid, hout]

/-- **A drag exchanges two cells.** -/
theorem cells_moveScreen (h : Kept screens) {d : Screen}
    (hd : screens.find? (·.id = id) = some d) (col row : Nat) :
    (moveScreen screens id col row).map Screen.cell =
      (screens.map Screen.cell).map (Equiv.swap d.cell (col, row)) := by
  rw [moveScreen_eq_map h hd, List.map_map, List.map_map]
  exact List.map_congr_left fun s hs => cell_exchanged h (find_id hd).1 hs col row

/-- What is not a cell is not moved. -/
theorem map_moveScreen {β : Type} {g : Screen → β}
    (hg : ∀ (s : Screen) (c r : Nat), g { s with col := c, row := r } = g s) :
    (moveScreen screens id col row).map g = screens.map g := by
  unfold moveScreen
  cases screens.find? (·.id = id) with
  | none => rfl
  | some d =>
    show (assignFirst _ _ (assignFirst _ _ screens)).map g = _
    rw [map_assignFirst fun s => hg s col row, map_assignFirst fun s => hg s d.col d.row]

/-- How many are marked can be counted on the marks. -/
theorem countP_local (l : List Screen) :
    l.countP (·.local) = (l.map Screen.local).countP fun marked => marked := by
  rw [List.countP_map]
  rfl

theorem Kept.moveScreen (h : Kept screens) (hcol : col < cols) (hrow : row < rows) :
    Kept (moveScreen screens id col row) := by
  have hids : (Editor.moveScreen screens id col row).map Screen.id = screens.map Screen.id :=
    map_moveScreen fun _ _ _ => rfl
  have hnames : (Editor.moveScreen screens id col row).map Screen.name = screens.map Screen.name :=
    map_moveScreen fun _ _ _ => rfl
  have hlocal : (Editor.moveScreen screens id col row).map Screen.local = screens.map Screen.local :=
    map_moveScreen fun _ _ _ => rfl
  cases hd : screens.find? (·.id = id) with
  | none =>
    have hsame : Editor.moveScreen screens id col row = screens := by
      unfold Editor.moveScreen
      rw [hd]
    rw [hsame]
    exact h
  | some d =>
    obtain ⟨hmem, -⟩ := find_id hd
    have hcells := cells_moveScreen h hd col row
    refine ⟨hids ▸ h.ids, ?_, ?_, hnames ▸ h.usable.names, ?_⟩
    · rw [hcells]
      exact h.usable.cells.map (Equiv.injective _)
    · rw [hcells]
      intro cell hcell
      obtain ⟨before, hbefore, rfl⟩ := List.mem_map.mp hcell
      rw [Equiv.swap_apply_def]
      split
      · exact ⟨hcol, hrow⟩
      · split
        · exact h.usable.inside _ (List.mem_map_of_mem hmem)
        · exact h.usable.inside _ hbefore
    · intro hne
      rw [countP_local, hlocal, ← countP_local]
      apply h.usable.one_local
      rintro rfl
      exact hne rfl

theorem Kept.setLocal (h : Kept screens) (hid : ∃ s ∈ screens, s.id = id) :
    Kept (setLocal screens id) := by
  have hmap : ∀ {β : Type} (g : Screen → β), (∀ s b, g { s with «local» := b } = g s) →
      (Editor.setLocal screens id).map g = screens.map g := by
    intro β g hg
    unfold Editor.setLocal
    rw [List.map_map]
    exact List.map_congr_left fun s _ => hg s _
  have hids := hmap Screen.id fun _ _ => rfl
  have hcells := hmap Screen.cell fun _ _ => rfl
  refine ⟨hids ▸ h.ids, hcells ▸ h.usable.cells, hcells ▸ h.usable.inside,
    hmap Screen.name (fun _ _ => rfl) ▸ h.usable.names, fun _ => ?_⟩
  obtain ⟨s, hs, rfl⟩ := hid
  have hcount : (Editor.setLocal screens s.id).countP (·.local) =
      screens.countP fun t => t.id == s.id := by
    unfold Editor.setLocal
    rw [List.countP_map]
    rfl
  rw [hcount, countP_eq_one_iff h.nodup]
  exact ⟨s, hs, beq_self_eq_true _, fun t ht hid => h.eq_of_id ht hs (beq_iff_eq.mp hid)⟩

theorem firstFreeCell_spec {c r : Nat} (hfree : firstFreeCell screens = some (c, r)) :
    (c < cols ∧ r < rows) ∧ ∀ s ∈ screens, s.cell ≠ (c, r) := by
  unfold firstFreeCell at hfree
  have hmem := List.mem_of_find?_eq_some hfree
  have hnobody := List.find?_some hfree
  obtain ⟨r', hr', hline⟩ := List.mem_flatMap.mp hmem
  obtain ⟨c', hc', heq⟩ := List.mem_map.mp hline
  injection heq with hc hr
  subst hc hr
  refine ⟨⟨List.mem_range.mp hc', List.mem_range.mp hr'⟩, ?_⟩
  intro s hs hcell
  injection hcell with hcol hrow
  simp only [Bool.not_eq_true', List.any_eq_false, decide_eq_true_eq] at hnobody
  exact hnobody s hs ⟨hcol, hrow⟩

/-- **Adding keeps it exactly under the condition.** -/
theorem kept_addScreen_iff (h : Kept screens) (hid : ∀ s ∈ screens, s.id ≠ id) :
    Usable (addScreen screens id).1 ↔ Safe screens (.addScreen id) := by
  unfold addScreen Safe
  cases hfree : firstFreeCell screens with
  | none => exact ⟨fun _ hsome => (by cases hsome), fun _ => h.usable⟩
  | some cell =>
    obtain ⟨c, r⟩ := cell
    obtain ⟨hinside, hnobody⟩ := firstFreeCell_spec hfree
    have hcount : (screens ++ [Screen.mk id (nextName screens) 1920 1080 c r false]).countP
        (·.local) = screens.countP (·.local) := by
      rw [List.countP_append]
      rfl
    constructor
    · intro husable _
      refine ⟨?_, (nodup_map_concat.mp husable.names).2⟩
      rintro rfl
      have hone := husable.one_local (List.cons_ne_nil _ _)
      cases hone
    · intro hsafe
      obtain ⟨hne, hname⟩ := hsafe rfl
      refine ⟨nodup_map_concat.mpr ⟨h.usable.cells, hnobody⟩, ?_,
        nodup_map_concat.mpr ⟨h.usable.names, hname⟩, ?_⟩
      · intro cell hcell
        rw [List.map_append, List.mem_append] at hcell
        rcases hcell with hcell | hcell
        · exact h.usable.inside cell hcell
        · rw [List.mem_singleton.mp hcell]
          exact hinside
      · intro _
        rw [hcount]
        exact h.usable.one_local hne

/-- What is left after a removal is a part of what there was, but for the mark. -/
theorem map_removeScreen {β : Type} {g : Screen → β}
    (hg : ∀ s, g { s with «local» := true } = g s) :
    List.Sublist ((removeScreen screens id).map g) (screens.map g) := by
  unfold removeScreen
  have hpart : List.Sublist ((screens.filter (·.id ≠ id)).map g) (screens.map g) :=
    List.filter_sublist.map g
  show List.Sublist ((if _ then _ else _ : List Screen).map g) _
  split
  · rw [map_markFirst hg]
    exact hpart
  · exact hpart

/-- The question asked before a removal. -/
theorem wasLocal_iff (h : Kept screens) :
    (screens.find? (·.id = id)).any (·.local) = true ↔
      ∃ d ∈ screens, d.id = id ∧ d.local = true := by
  rw [Option.any_eq_true]
  constructor
  · rintro ⟨d, hd, hlocal⟩
    obtain ⟨hmem, hid⟩ := find_id hd
    exact ⟨d, hmem, hid, hlocal⟩
  · rintro ⟨d, hmem, hid, hlocal⟩
    cases hfound : screens.find? (·.id = id) with
    | none =>
      have hnot := List.find?_eq_none.mp hfound d hmem
      exact absurd (decide_eq_true hid) hnot
    | some d' =>
      obtain ⟨hmem', hid'⟩ := find_id hfound
      rw [h.eq_of_id hmem' hmem (hid'.trans hid.symm)]
      exact ⟨d, rfl, hlocal⟩

/-- Where nobody is marked, marking the first marks one. -/
theorem countP_markFirst {l : List Screen} (hne : markFirst l ≠ [])
    (hnone : ∀ t ∈ l, ¬t.local = true) : (markFirst l).countP (·.local) = 1 := by
  cases l with
  | nil => exact absurd rfl hne
  | cons s ss =>
    have hzero : ss.countP (·.local) = 0 :=
      List.countP_eq_zero.mpr fun t ht => hnone t (List.mem_cons_of_mem s ht)
    show List.countP (·.local) ({ s with «local» := true } :: ss) = 1
    rw [List.countP_cons, hzero]
    rfl

/-- **One screen is still marked**: the one that was, or the first of the rest. -/
theorem one_local_removeScreen (h : Kept screens) (hne : removeScreen screens id ≠ []) :
    (removeScreen screens id).countP (·.local) = 1 := by
  have hscreens : screens ≠ [] := by
    rintro rfl
    exact hne rfl
  obtain ⟨m, hm, hlocal, hall⟩ := (countP_eq_one_iff h.nodup).mp (h.usable.one_local hscreens)
  have hrest : ∀ t ∈ screens.filter (·.id ≠ id), t ∈ screens ∧ t.id ≠ id := by
    intro t ht
    simpa using List.mem_filter.mp ht
  unfold removeScreen at hne ⊢
  by_cases hwas : (screens.find? (·.id = id)).any (·.local) = true
  · -- the marked one is removed
    simp only [hwas, if_true] at hne ⊢
    obtain ⟨d, hd, hid, hdlocal⟩ := (wasLocal_iff h).mp hwas
    apply countP_markFirst hne
    intro t ht htlocal
    obtain ⟨htmem, htid⟩ := hrest t ht
    rw [hall t htmem htlocal, ← hall d hd hdlocal] at htid
    exact htid hid
  · -- the marked one stays
    have hmid : m.id ≠ id := fun hmid => hwas ((wasLocal_iff h).mpr ⟨m, hm, hmid, hlocal⟩)
    have hmem : m ∈ screens.filter (·.id ≠ id) := List.mem_filter.mpr ⟨hm, by simpa using hmid⟩
    simp only [hwas] at hne ⊢
    exact (countP_eq_one_iff (h.nodup.filter _)).mpr
      ⟨m, hmem, hlocal, fun t ht => hall t (hrest t ht).1⟩

theorem Kept.removeScreen (h : Kept screens) : Kept (removeScreen screens id) := by
  have hcells : List.Sublist ((Editor.removeScreen screens id).map Screen.cell)
      (screens.map Screen.cell) := map_removeScreen fun _ => rfl
  have hids : List.Sublist ((Editor.removeScreen screens id).map Screen.id)
      (screens.map Screen.id) := map_removeScreen fun _ => rfl
  have hnames : List.Sublist ((Editor.removeScreen screens id).map Screen.name)
      (screens.map Screen.name) := map_removeScreen fun _ => rfl
  exact ⟨h.ids.sublist hids, h.usable.cells.sublist hcells,
    fun cell hcell => h.usable.inside cell (hcells.subset hcell), h.usable.names.sublist hnames,
    one_local_removeScreen h⟩

/-- **One edit**: it leads from a usable layout to a usable one exactly under the condition. -/
theorem usable_step_iff (h : Kept screens) {e : Edit} (he : Proper screens e) :
    Usable (step screens e).1 ↔ Safe screens e := by
  cases e with
  | addScreen id => exact kept_addScreen_iff h he
  | removeScreen id => exact ⟨fun _ => trivial, fun _ => h.removeScreen.usable⟩
  | moveScreen id col row => exact ⟨fun _ => trivial, fun _ => (h.moveScreen he.1 he.2).usable⟩
  | setLocal id => exact ⟨fun _ => trivial, fun _ => (h.setLocal he).usable⟩

/-- The identifiers stay distinct in any case. -/
theorem ids_step (h : Kept screens) {e : Edit} (he : Proper screens e) :
    ((step screens e).1.map Screen.id).Nodup := by
  cases e with
  | addScreen id =>
    show ((Editor.addScreen screens id).1.map Screen.id).Nodup
    unfold Editor.addScreen
    cases firstFreeCell screens with
    | none => exact h.ids
    | some cell => exact nodup_map_concat.mpr ⟨h.ids, he⟩
  | removeScreen id => exact h.removeScreen.ids
  | moveScreen id col row => exact (h.moveScreen he.1 he.2).ids
  | setLocal id => exact (h.setLocal he).ids

/-! ## Whole histories -/

theorem kept_screens : Kept Editor.screens :=
  ⟨by decide, by decide, by decide, by decide, fun _ => rfl⟩

/-- **When the editor's layout can be used.**  For every history of edits from the initial state,
    with fresh identifiers, targets inside the grid and marks on screens that are there: after
    each edit the screens stand in distinct cells of the grid, have distinct names, and if there is
    one exactly one is marked, if and only if each screen that is added finds others there and the
    name made for it free. -/
theorem usable_throughout_iff (es : List Edit)
    (hproper : Mealy.EveryStep step Editor.screens es fun _ screens e => Proper screens e) :
    (∀ pre, pre <+: es → Usable (Mealy.run step Editor.screens pre).1) ↔
      Mealy.EveryStep step Editor.screens es fun _ screens e => Safe screens e := by
  constructor
  · intro h
    have hids : ∀ pre, pre <+: es → ((Mealy.run step Editor.screens pre).1.map Screen.id).Nodup := by
      intro pre
      induction pre using List.reverseRecOn with
      | nil => exact fun _ => kept_screens.ids
      | append_singleton pre e ih =>
        intro hpre
        have hbefore := (List.prefix_append pre [e]).trans hpre
        rw [Mealy.run_concat]
        exact ids_step ⟨ih hbefore, h pre hbefore⟩ (hproper pre e hpre)
    intro pre e hpre
    have hbefore := (List.prefix_append pre [e]).trans hpre
    have hafter := h (pre ++ [e]) hpre
    rw [Mealy.run_concat] at hafter
    exact (usable_step_iff ⟨hids pre hbefore, h pre hbefore⟩ (hproper pre e hpre)).mp hafter
  · intro h pre hpre
    have hboth : Mealy.EveryStep step Editor.screens es fun _ screens e =>
        Proper screens e ∧ Safe screens e := fun js e hjs => ⟨hproper js e hjs, h js e hjs⟩
    have hkept := (hboth.of_prefix step hpre).final step (P := fun _ screens => Kept screens)
      kept_screens fun _ screens e hk he =>
        ⟨ids_step hk he.1, (usable_step_iff hk he.1).mpr he.2⟩
    exact hkept.usable

/-- A screen is added, the laptop removed, and another screen added: it gets the same name. -/
theorem renamed_twice :
    let es : List Edit := [.addScreen "s3", .removeScreen "s2", .addScreen "s4"]
    ¬(Mealy.EveryStep step Editor.screens es (fun _ screens e => Proper screens e) →
      Usable (Mealy.run step Editor.screens es).1) := by
  intro es h
  have husable := h ?_
  · exact absurd husable.names (by decide)
  · refine (Mealy.everyStep_cons step).mpr ⟨?_, (Mealy.everyStep_cons step).mpr ⟨trivial,
      (Mealy.everyStep_cons step).mpr ⟨?_, Mealy.everyStep_nil step⟩⟩⟩
    · show ∀ s ∈ Editor.screens, s.id ≠ "s3"
      decide
    · show ∀ s ∈ (Mealy.run step Editor.screens [.addScreen "s3", .removeScreen "s2"]).1,
        s.id ≠ "s4"
      decide

theorem usable_throughout_drag :
    Usable (Mealy.run step Editor.screens [.moveScreen "s1" 2 1, .addScreen "s3"]).1 := by
  refine (usable_throughout_iff [.moveScreen "s1" 2 1, .addScreen "s3"] ?_).mpr ?_ _
    (List.prefix_refl _)
  · refine (Mealy.everyStep_cons step).mpr ⟨⟨by decide, by decide⟩,
      (Mealy.everyStep_cons step).mpr ⟨?_, Mealy.everyStep_nil step⟩⟩
    show ∀ s ∈ (step Editor.screens (.moveScreen "s1" 2 1)).1, s.id ≠ "s3"
    decide
  · refine (Mealy.everyStep_cons step).mpr ⟨trivial,
      (Mealy.everyStep_cons step).mpr ⟨fun _ => ⟨?_, ?_⟩, Mealy.everyStep_nil step⟩⟩
    · exact List.cons_ne_nil _ _
    · show ∀ s ∈ (step Editor.screens (.moveScreen "s1" 2 1)).1, s.name ≠ _
      decide

/-! ## What the server makes of it -/

/-- A screen as it is sent to the server; columns and rows are those of the grid. -/
def Screen.dto (s : Screen) : ScreenDto :=
  ⟨s.name, .ofNat s.w, .ofNat s.h, .ofNat s.col, .ofNat s.row⟩

/-- **A usable layout compiles to what is seen in the editor**: it meets the assumptions of
    `build_layout`, so the server's layout is exactly the adjacency of its cells. -/
theorem Usable.gridded (h : Usable screens) : Gridded (screens.map Screen.dto) := by
  have hsmall : ∀ a b : Nat, a < 4 → b < 4 → Int32.ofNat a = Int32.ofNat b → a = b := by
    intro a b ha hb hab
    have hto := congrArg Int32.toInt hab
    rw [Int32.toInt_ofNat_of_lt (by omega), Int32.toInt_ofNat_of_lt (by omega)] at hto
    omega
  constructor
  · rw [List.map_map]
    exact h.names
  · have hmap : (screens.map Screen.dto).map ScreenDto.cell =
        (screens.map Screen.cell).map fun c => (Int32.ofNat c.1, Int32.ofNat c.2) := by
      rw [List.map_map, List.map_map]
      rfl
    rw [hmap]
    refine h.cells.map_on ?_
    intro x hx y hy hxy
    obtain ⟨hx₁, hx₂⟩ := h.inside x hx
    obtain ⟨hy₁, hy₂⟩ := h.inside y hy
    injection hxy with h₁ h₂
    have hrows : rows ≤ 4 := by decide
    exact Prod.ext (hsmall _ _ hx₁ hy₁ h₁)
      (hsmall _ _ (Nat.lt_of_lt_of_le hx₂ hrows) (Nat.lt_of_lt_of_le hy₂ hrows) h₂)

end SelfKvm.Editor
