/-
  The editor's grid, compiled (`src-tauri/src/lib.rs`, `build_layout`).

  Screens are given with the cells they stand in.  The code adds a node for each and then goes
  through all pairs, linking those in adjacent cells; each link writes two slots, and each slot is
  written twice or more.  No write is wrong and none takes a neighbour away, so the loop is a
  filling (`SelfKvm.Base.Filling`) of the table of neighbours, and what it fills is exactly the
  adjacency of the grid (`buildLayout_spec`), in whatever order the screens are given.
-/
import SelfKvm.Core.Adjacency
import SelfKvm.Base.Filling
import Mathlib.Data.List.Nodup

namespace SelfKvm

open Filling ScreenLayout

/-! ## The code -/

structure ScreenDto where
  name : String
  w : Int32
  h : Int32
  col : Int32
  row : Int32
  deriving DecidableEq, Repr

/-- The body of the double loop. -/
def linkCells (l : ScreenLayout) (a b : ScreenDto) : ScreenLayout :=
  if a.name = b.name then
    l
  else
    let l := if a.row = b.row ∧ b.col = a.col + 1 then l.link a.name .right b.name else l
    if a.col = b.col ∧ b.row = a.row + 1 then l.link a.name .bottom b.name else l

/-- Screens in adjacent cells become neighbours. -/
def buildLayout (screens : List ScreenDto) : ScreenLayout :=
  let l := screens.foldl (fun l s => l.addScreen s.name ⟨max s.w 1, max s.h 1⟩) ScreenLayout.new
  screens.foldl (fun l a => screens.foldl (fun l b => linkCells l a b) l) l

/-! ## The grid -/

namespace ScreenDto

/-- The cell a screen stands in. -/
def cell (s : ScreenDto) : Int32 × Int32 := (s.col, s.row)

/-- The size its node gets. -/
def size (s : ScreenDto) : ScreenSize := ⟨max s.w 1, max s.h 1⟩

/-- `b` stands next to `a`, over that edge. -/
def Beside : Edge → ScreenDto → ScreenDto → Prop
  | .left, a, b => a.row = b.row ∧ a.col = b.col + 1
  | .right, a, b => a.row = b.row ∧ b.col = a.col + 1
  | .top, a, b => a.col = b.col ∧ a.row = b.row + 1
  | .bottom, a, b => a.col = b.col ∧ b.row = a.row + 1

variable {a b c : ScreenDto} {e : Edge}

theorem Beside.symm (h : Beside e a b) : Beside e.opposite b a := by
  cases e with
  | left => exact ⟨h.1.symm, h.2⟩
  | right => exact ⟨h.1.symm, h.2⟩
  | top => exact ⟨h.1.symm, h.2⟩
  | bottom => exact ⟨h.1.symm, h.2⟩

theorem Beside.irrefl (h : Beside e a a) : False := by
  have hne : ∀ x : Int32, x ≠ x + 1 := by
    intro x hx
    have hzero : x + 0 = x + 1 := (Int32.add_zero x).trans hx
    exact absurd ((Int32.add_right_inj x).mp hzero) (by decide)
  cases e with
  | left => exact hne _ h.2
  | right => exact hne _ h.2
  | top => exact hne _ h.2
  | bottom => exact hne _ h.2

/-- There is one cell over an edge. -/
theorem Beside.cell_eq (hb : Beside e a b) (hc : Beside e a c) : b.cell = c.cell := by
  cases e with
  | left => exact Prod.ext ((Int32.add_left_inj 1).mp (hb.2.symm.trans hc.2)) (hb.1.symm.trans hc.1)
  | right => exact Prod.ext (hb.2.trans hc.2.symm) (hb.1.symm.trans hc.1)
  | top => exact Prod.ext (hb.1.symm.trans hc.1) ((Int32.add_left_inj 1).mp (hb.2.symm.trans hc.2))
  | bottom => exact Prod.ext (hb.1.symm.trans hc.1) (hb.2.trans hc.2.symm)

end ScreenDto

/-- Distinct names, and distinct cells. -/
structure Gridded (screens : List ScreenDto) : Prop where
  names : (screens.map ScreenDto.name).Nodup
  cells : (screens.map ScreenDto.cell).Nodup

namespace Gridded

variable {screens : List ScreenDto} {a b : ScreenDto}

theorem eq_of_name (h : Gridded screens) (ha : a ∈ screens) (hb : b ∈ screens)
    (hname : a.name = b.name) : a = b :=
  List.inj_on_of_nodup_map h.names ha hb hname

theorem eq_of_cell (h : Gridded screens) (ha : a ∈ screens) (hb : b ∈ screens)
    (hcell : a.cell = b.cell) : a = b :=
  List.inj_on_of_nodup_map h.cells ha hb hcell

theorem perm {screens' : List ScreenDto} (h : Gridded screens) (hperm : screens.Perm screens') :
    Gridded screens' :=
  ⟨(hperm.map _).nodup_iff.mp h.names, (hperm.map _).nodup_iff.mp h.cells⟩

end Gridded

/-- The sizes that the nodes should have. -/
def SizeIn (screens : List ScreenDto) (name : String) (size : ScreenSize) : Prop :=
  ∃ s ∈ screens, s.name = name ∧ s.size = size

/-- The neighbours that the slots should name. -/
def BesideIn (screens : List ScreenDto) (p : String × Edge) (name : String) : Prop :=
  ∃ a ∈ screens, ∃ b ∈ screens, a.name = p.1 ∧ b.name = name ∧ ScreenDto.Beside p.2 a b

variable {screens : List ScreenDto}

theorem sizeIn_unique (h : Gridded screens) (name : String) (size size' : ScreenSize)
    (hsize : SizeIn screens name size) (hsize' : SizeIn screens name size') : size = size' := by
  obtain ⟨s, hs, hname, rfl⟩ := hsize
  obtain ⟨s', hs', hname', rfl⟩ := hsize'
  rw [h.eq_of_name hs hs' (hname.trans hname'.symm)]

theorem besideIn_unique (h : Gridded screens) (p : String × Edge) (name name' : String)
    (hname : BesideIn screens p name) (hname' : BesideIn screens p name') : name = name' := by
  obtain ⟨a, ha, b, hb, hap, rfl, hab⟩ := hname
  obtain ⟨a', ha', b', hb', hap', rfl, hab'⟩ := hname'
  obtain rfl := h.eq_of_name ha ha' (hap.trans hap'.symm)
  rw [h.eq_of_cell hb hb' (hab.cell_eq hab')]

/-- Neighbours are each other's. -/
theorem BesideIn.symm {x y : String} {e : Edge} (h : BesideIn screens (x, e) y) :
    BesideIn screens (y, e.opposite) x := by
  obtain ⟨a, ha, b, hb, hx, hy, hab⟩ := h
  exact ⟨b, hb, a, ha, hy, hx, hab.symm⟩

/-! ## The first loop -/

/-- The screens as nodes, with no neighbours yet. -/
def nodesOf (screens : List ScreenDto) : ScreenLayout :=
  screens.foldl (fun l s => l.addScreen s.name s.size) ScreenLayout.new

/-- The entry of the table of neighbours. -/
def slot (l : ScreenLayout) (p : String × Edge) : Option String := l.neighborOver p.1 p.2

/-- No screen has a neighbour. -/
def Bare (l : ScreenLayout) : Prop := ∀ p, slot l p = none

theorem bare_new : Bare ScreenLayout.new := fun _ => rfl

theorem Bare.addScreen {l : ScreenLayout} (h : Bare l) (name : String) (size : ScreenSize) :
    Bare (l.addScreen name size) := by
  rintro ⟨x, e⟩
  have hx := h (x, e)
  unfold slot neighborOver ScreenLayout.addScreen at *
  by_cases hname : x = name
  · simp [hname]
  · simp only [Function.update_of_ne hname]
    exact hx

theorem sizeOf_addScreen (l : ScreenLayout) (name : String) (size : ScreenSize) (screen : String) :
    (l.addScreen name size).sizeOf screen =
      if screen = name then some size else l.sizeOf screen := by
  unfold ScreenLayout.sizeOf ScreenLayout.addScreen
  by_cases h : screen = name
  · simp [h]
  · simp [h, Function.update_of_ne]

/-- Adding a screen fills in its size. -/
theorem fills_addScreen (l : ScreenLayout) {s : ScreenDto} (hs : s ∈ screens) :
    Fills ScreenLayout.sizeOf (SizeIn screens) (fun name => s.name = name) l
      (l.addScreen s.name s.size) := by
  refine ⟨?_, ?_, ?_⟩
  · intro hsound name size hread
    rw [sizeOf_addScreen] at hread
    by_cases hname : name = s.name
    · rw [if_pos hname] at hread
      injection hread with hread
      exact ⟨s, hs, hname.symm, hread⟩
    · rw [if_neg hname] at hread
      exact hsound name size hread
  · intro name hsome
    rw [sizeOf_addScreen]
    by_cases hname : name = s.name
    · rw [if_pos hname]
      rfl
    · rw [if_neg hname]
      exact hsome
  · rintro name rfl
    rw [sizeOf_addScreen, if_pos rfl]
    rfl

/-- The nodes are those of the screens. -/
def Sized (screens : List ScreenDto) (l : ScreenLayout) : Prop :=
  ∀ name size, l.sizeOf name = some size ↔ SizeIn screens name size

/-- **The sizes.**  The first loop fills the table of sizes, and no screen has a neighbour yet. -/
theorem nodesOf_spec (h : Gridded screens) :
    Bare (nodesOf screens) ∧ Sized screens (nodesOf screens) := by
  obtain ⟨hbare, hfills⟩ := Fills.foldl (I := Bare) screens
    (fun l s hs hl => ⟨hl.addScreen s.name s.size, fills_addScreen l hs⟩) bare_new
  refine ⟨hbare, fun name size => hfills.exact ?_ (sizeIn_unique h) ?_⟩
  · intro name size hsize
    cases hsize
  · rintro name size ⟨s, hs, hname, -⟩
    exact ⟨s, hs, hname⟩

/-! ## The double loop -/

theorem Sized.contains {l : ScreenLayout} (h : Sized screens l) (name : String) :
    l.contains name = true ↔ ∃ s ∈ screens, s.name = name := by
  have hsize : l.contains name = (l.sizeOf name).isSome := Option.isSome_map.symm
  rw [hsize, Option.isSome_iff_exists]
  constructor
  · rintro ⟨size, hs⟩
    obtain ⟨s, hs, hname, -⟩ := (h name size).mp hs
    exact ⟨s, hs, hname⟩
  · rintro ⟨s, hs, hname⟩
    exact ⟨s.size, (h name s.size).mpr ⟨s, hs, hname, rfl⟩⟩

theorem Sized.link {l : ScreenLayout} (h : Sized screens l) (a : String) (e : Edge) (b : String) :
    Sized screens (l.link a e b) := by
  intro name size
  rw [sizeOf_link]
  exact h name size

/-- The slots that the body of the double loop writes. -/
def Links (a b : ScreenDto) (p : String × Edge) : Prop :=
  ∃ e, (e = .right ∨ e = .bottom) ∧ ScreenDto.Beside e a b ∧
    (p = (a.name, e) ∨ p = (b.name, e.opposite))

/-- Linking two screens that stand next to each other fills in their two slots. -/
theorem fills_link {l : ScreenLayout} (hl : Sized screens l) {a b : ScreenDto} (ha : a ∈ screens)
    (hb : b ∈ screens) {e : Edge} (hab : ScreenDto.Beside e a b) :
    Fills slot (BesideIn screens) (fun p => p = (a.name, e) ∨ p = (b.name, e.opposite)) l
      (l.link a.name e b.name) := by
  have hread : ∀ p, slot (l.link a.name e b.name) p = _ := neighborOver_link a.name e b.name
  refine ⟨?_, ?_, ?_⟩
  · intro hsound p name hp
    rw [hread] at hp
    split at hp
    · rename_i hpb
      injection hp with hp
      rw [hpb.1]
      exact ⟨b, hb, a, ha, rfl, hp, hab.symm⟩
    · split at hp
      · rename_i hpa
        injection hp with hp
        rw [hpa.1]
        exact ⟨a, ha, b, hb, rfl, hp, hab⟩
      · exact hsound p name hp
  · intro p hp
    rw [hread]
    split
    · rfl
    · split
      · rfl
      · exact hp
  · intro p hp
    rw [hread]
    by_cases hpb : p = (b.name, e.opposite)
    · rw [if_pos ⟨hpb, (hl.contains b.name).mpr ⟨b, hb, rfl⟩⟩]
      rfl
    · have hpa : p = (a.name, e) := hp.resolve_right hpb
      rw [if_neg fun h => hpb h.1, if_pos ⟨hpa, (hl.contains a.name).mpr ⟨a, ha, rfl⟩⟩]
      rfl

/-- The body of the double loop. -/
theorem fills_linkCells {l : ScreenLayout} (hl : Sized screens l) {a b : ScreenDto}
    (ha : a ∈ screens) (hb : b ∈ screens) :
    Sized screens (linkCells l a b) ∧
      Fills slot (BesideIn screens) (fun p => a.name ≠ b.name ∧ Links a b p) l
        (linkCells l a b) := by
  unfold linkCells
  by_cases hname : a.name = b.name
  · rw [if_pos hname]
    exact ⟨hl, (Fills.refl l).mono fun _ hp => hp.1 hname⟩
  · rw [if_neg hname]
    have hright := Fills.ite (c := a.row = b.row ∧ b.col = a.col + 1)
      fun h => fills_link hl ha hb (e := .right) h
    generalize hl' : (if a.row = b.row ∧ b.col = a.col + 1 then l.link a.name .right b.name else l) =
      l' at hright
    have hsized : Sized screens l' := by
      rw [← hl']
      split
      · exact hl.link _ _ _
      · exact hl
    have hbottom := Fills.ite (c := a.col = b.col ∧ b.row = a.row + 1)
      fun h => fills_link hsized ha hb (e := .bottom) h
    refine ⟨?_, (hright.trans hbottom).mono ?_⟩
    · show Sized screens (if _ then _ else _)
      split
      · exact hsized.link _ _ _
      · exact hsized
    · rintro p ⟨-, e, rfl | rfl, hab, hp⟩
      · exact .inl ⟨hab, hp⟩
      · exact .inr ⟨hab, hp⟩

/-- **The neighbours.**  What stands in the slots is exactly what stands in the cells. -/
theorem buildLayout_spec (h : Gridded screens) :
    Sized screens (buildLayout screens) ∧
    ∀ p name, slot (buildLayout screens) p = some name ↔ BesideIn screens p name := by
  obtain ⟨hbare, hsized⟩ := nodesOf_spec h
  have hinner : ∀ l a, a ∈ screens → Sized screens l →
      Sized screens (screens.foldl (fun l b => linkCells l a b) l) ∧
        Fills slot (BesideIn screens) (fun p => ∃ b ∈ screens, a.name ≠ b.name ∧ Links a b p) l
          (screens.foldl (fun l b => linkCells l a b) l) := by
    intro l a ha hl
    have hbody : ∀ l b, b ∈ screens → Sized screens l → Sized screens (linkCells l a b) ∧
        Fills slot (BesideIn screens) (fun p => a.name ≠ b.name ∧ Links a b p) l
          (linkCells l a b) := fun _ _ hb hl => fills_linkCells hl ha hb
    exact Fills.foldl screens hbody hl
  obtain ⟨hsized', hfills⟩ := Fills.foldl screens hinner hsized
  refine ⟨hsized', fun p name => hfills.exact ?_ (besideIn_unique h) ?_⟩
  · intro p name hp
    rw [hbare p] at hp
    cases hp
  · -- every pair of neighbours is linked, from the one side or the other
    have hne : ∀ {a b : ScreenDto} {e : Edge}, a ∈ screens → b ∈ screens →
        ScreenDto.Beside e a b → a.name ≠ b.name := by
      intro a b e ha hb hab hname
      rw [h.eq_of_name ha hb hname] at hab
      exact hab.irrefl
    rintro ⟨x, e⟩ name ⟨a, ha, b, hb, rfl, rfl, hab⟩
    cases e with
    | right => exact ⟨a, ha, b, hb, hne ha hb hab, .right, .inl rfl, hab, .inl rfl⟩
    | bottom => exact ⟨a, ha, b, hb, hne ha hb hab, .bottom, .inr rfl, hab, .inl rfl⟩
    | left => exact ⟨b, hb, a, ha, (hne ha hb hab).symm, .right, .inl rfl, hab.symm, .inr rfl⟩
    | top => exact ⟨b, hb, a, ha, (hne ha hb hab).symm, .bottom, .inr rfl, hab.symm, .inr rfl⟩

/-- The cursor can always travel back the way it came. -/
theorem buildLayout_symmetric (h : Gridded screens) : (buildLayout screens).Symmetric := by
  obtain ⟨hsized, hslots⟩ := buildLayout_spec h
  intro a b edge hb
  have hab := (hslots (a, edge) b).mp hb
  have hba := hab.symm
  refine ⟨(hsized.contains b).mpr ?_, (hslots (b, edge.opposite) a).mpr hba⟩
  obtain ⟨t, ht, -, -, hname, -⟩ := hba
  exact ⟨t, ht, hname⟩

/-- A layout is its sizes and its slots. -/
theorem ext_of_slots {l l' : ScreenLayout} (hsize : ∀ name, l.sizeOf name = l'.sizeOf name)
    (hslot : ∀ p, slot l p = slot l' p) : l = l' := by
  obtain ⟨nodes⟩ := l
  obtain ⟨nodes'⟩ := l'
  congr 1
  funext name
  have hs : (nodes name).map (·.size) = (nodes' name).map (·.size) := hsize name
  have hn : ∀ e, (nodes name).bind (·.neighbors.get e) = (nodes' name).bind (·.neighbors.get e) :=
    fun e => hslot (name, e)
  generalize nodes name = n, nodes' name = n' at hs hn
  cases n with
  | none =>
    cases n' with
    | none => rfl
    | some node' => cases hs
  | some node =>
    cases n' with
    | none => cases hs
    | some node' =>
      obtain ⟨size, ⟨left, right, top, bottom⟩⟩ := node
      obtain ⟨size', ⟨left', right', top', bottom'⟩⟩ := node'
      obtain rfl : size = size' := Option.some.inj hs
      obtain rfl : left = left' := hn .left
      obtain rfl : right = right' := hn .right
      obtain rfl : top = top' := hn .top
      obtain rfl : bottom = bottom' := hn .bottom
      rfl

/-- The order of the screens does not matter. -/
theorem buildLayout_perm (h : Gridded screens) {screens' : List ScreenDto}
    (hperm : screens.Perm screens') : buildLayout screens' = buildLayout screens := by
  obtain ⟨hsized, hslots⟩ := buildLayout_spec h
  obtain ⟨hsized', hslots'⟩ := buildLayout_spec (h.perm hperm)
  apply ext_of_slots
  · intro name
    apply Option.ext
    intro size
    show _ = some size ↔ _ = some size
    rw [hsized name size, hsized' name size]
    unfold SizeIn
    simp only [hperm.mem_iff]
  · intro p
    apply Option.ext
    intro name
    show _ = some name ↔ _ = some name
    rw [hslots p name, hslots' p name]
    unfold BesideIn
    simp only [hperm.mem_iff]

/-- Below the largest 32-bit integer the next cell is the next integer. -/
theorem next_iff {x : Int32} (hx : x < Int32.maxValue) (y : Int32) :
    y = x + 1 ↔ y.toInt = x.toInt + 1 := by
  have hlt := Int32.lt_iff_toInt_lt.mp hx
  have hlow := x.le_toInt
  have hmax : Int32.maxValue.toInt = 2147483647 := rfl
  have hone : (1 : Int32).toInt = 1 := rfl
  rw [← Int32.toInt_inj, Int32.toInt_add, hone, Int.bmod_eq_of_le]
  · omega
  · omega

/-- **The grid is compiled to exactly its adjacency.**  For every list of screens with distinct names
    and distinct cells, the columns and rows below the largest integer: the layout has a node for
    each screen and no other, of its size but at least 1x1; the right neighbour is what stands in
    the same row and the next column, the bottom neighbour what stands in the same column and the
    next row, the left and top neighbours are the converses; and any order of the screens gives
    the same layout. -/
theorem buildLayout_exact (screens : List ScreenDto)
    (hnames : (screens.map ScreenDto.name).Nodup) (hcells : (screens.map ScreenDto.cell).Nodup)
    (hmax : ∀ s ∈ screens, s.col < Int32.maxValue ∧ s.row < Int32.maxValue) :
    let l := buildLayout screens
    (∀ name, l.contains name = true ↔ ∃ s ∈ screens, s.name = name) ∧
    (∀ s ∈ screens, l.sizeOf s.name = some ⟨max s.w 1, max s.h 1⟩) ∧
    (∀ a ∈ screens, ∀ name, l.neighborOver a.name .right = some name ↔
      ∃ b ∈ screens, b.name = name ∧ b.row = a.row ∧ b.col.toInt = a.col.toInt + 1) ∧
    (∀ a ∈ screens, ∀ name, l.neighborOver a.name .bottom = some name ↔
      ∃ b ∈ screens, b.name = name ∧ b.col = a.col ∧ b.row.toInt = a.row.toInt + 1) ∧
    (∀ x y, l.neighborOver x .left = some y ↔ l.neighborOver y .right = some x) ∧
    (∀ x y, l.neighborOver x .top = some y ↔ l.neighborOver y .bottom = some x) ∧
    ∀ screens', screens.Perm screens' → buildLayout screens' = l := by
  have h : Gridded screens := ⟨hnames, hcells⟩
  obtain ⟨hsized, hslots⟩ := buildLayout_spec h
  intro l
  refine ⟨hsized.contains, ?_, ?_, ?_, ?_, ?_, fun screens' => buildLayout_perm h⟩
  · intro s hs
    exact (hsized s.name s.size).mpr ⟨s, hs, rfl, rfl⟩
  · intro a ha name
    refine (hslots (a.name, .right) name).trans ⟨?_, ?_⟩
    · rintro ⟨a', ha', b, hb, hname, rfl, hrow, hcol⟩
      rw [h.eq_of_name ha' ha hname] at hrow hcol
      exact ⟨b, hb, rfl, hrow.symm, (next_iff (hmax a ha).1 _).mp hcol⟩
    · rintro ⟨b, hb, rfl, hrow, hcol⟩
      exact ⟨a, ha, b, hb, rfl, rfl, hrow.symm, (next_iff (hmax a ha).1 _).mpr hcol⟩
  · intro a ha name
    refine (hslots (a.name, .bottom) name).trans ⟨?_, ?_⟩
    · rintro ⟨a', ha', b, hb, hname, rfl, hcol, hrow⟩
      rw [h.eq_of_name ha' ha hname] at hrow hcol
      exact ⟨b, hb, rfl, hcol.symm, (next_iff (hmax a ha).2 _).mp hrow⟩
    · rintro ⟨b, hb, rfl, hcol, hrow⟩
      exact ⟨a, ha, b, hb, rfl, rfl, hcol.symm, (next_iff (hmax a ha).2 _).mpr hrow⟩
  · intro x y
    exact (hslots (x, .left) y).trans (Iff.trans ⟨BesideIn.symm, BesideIn.symm⟩
      (hslots (y, .right) x).symm)
  · intro x y
    exact (hslots (x, .top) y).trans (Iff.trans ⟨BesideIn.symm, BesideIn.symm⟩
      (hslots (y, .bottom) x).symm)

/-- The editor's two screens, side by side, in either order. -/
theorem buildLayout_exact_two :
    let studio : ScreenDto := ⟨"studio", 1920, 1080, 1, 1⟩
    let laptop : ScreenDto := ⟨"laptop", 1280, 0, 2, 1⟩
    let l := buildLayout [studio, laptop]
    l.neighborOver "studio" .right = some "laptop" ∧ l.neighborOver "laptop" .left = some "studio" ∧
      l.sizeOf "laptop" = some ⟨1280, 1⟩ ∧ buildLayout [laptop, studio] = l := by
  intro studio laptop l
  obtain ⟨-, hsize, hright, -, hleft, -, hperm⟩ :=
    buildLayout_exact [studio, laptop] (by decide) (by decide) (by decide)
  have hlap := (hright studio (.head _) "laptop").mpr
    ⟨laptop, .tail _ (.head _), rfl, rfl, by decide⟩
  exact ⟨hlap, (hleft _ _).mpr hlap, hsize laptop (.tail _ (.head _)), hperm _ (.swap _ _ _)⟩

end SelfKvm
