/-
  Captured motion (`kvm-input/src/rdev_backend.rs`, the `MouseMove` branch of `translate` and
  `recenter_cursor`).

  While input is grabbed, motion is measured against a baseline.  After each motion the code sends the
  cursor to the centre of the display and makes the centre the baseline, "to match" — but only
  macOS moves the cursor.  Elsewhere the cursor stays, and the next motion is measured from a place
  the cursor never was at.

  Coordinates are counted in half pixels, since the centre of a display of odd size lies between two
  pixels; the cursor itself is on a pixel.  `motion_law_iff` gives the exact condition for the
  emitted motion to be the physical motion, and `motion_law_macos` is the platform the code was
  written for.
-/
import SelfKvm.Core.Events
import SelfKvm.Base.Mealy
import Mathlib.Algebra.Group.Int.Defs

namespace SelfKvm

/-! ## The code -/

/-- The cast `as i32` of a coordinate given in half pixels: cut off towards zero, and saturating. -/
def castI32 (halves : Int) : Int32 :=
  Int32.ofInt (max (-2 ^ 31) (min (halves.tdiv 2) (2 ^ 31 - 1)))

/-- What a `MouseMove` leads to: what is reported, the new baseline, and where the cursor is sent. -/
structure Moved where
  events : List LocalEvent
  lastPos : Option (Int × Int)
  recenter : Option (Int × Int)

/-- `translate` on a `MouseMove` to `(x, y)`. -/
def translateMove (grabbing : Bool) (lastPos centre : Option (Int × Int)) (x y : Int) : Moved :=
  let delta := lastPos.map fun (px, py) => (castI32 (x - px), castI32 (y - py))
  if grabbing then
    let events := match delta with
      | some (dx, dy) => if dx ≠ 0 ∨ dy ≠ 0 then [LocalEvent.motionRel dx dy] else []
      | none => []
    -- the baseline becomes the centre to match
    match centre with
    | some c => { events, lastPos := some c, recenter := some c }
    | none => { events, lastPos := some (x, y), recenter := none }
  else
    { events := [.motionAbs (castI32 x) (castI32 y)], lastPos := some (x, y), recenter := none }

inductive Platform where
  | macos
  | other
  deriving DecidableEq, Repr

/-- Warp the cursor; nothing happens except on macOS.  `snap` is the pixel that the system puts a
    coordinate on. -/
def recenterCursor (snap : Int → Int) (centre : Int × Int) (cursor : Int × Int) :
    Platform → Int × Int
  | .macos => (snap centre.1, snap centre.2)
  | .other => cursor

/-! ## Runs -/

/-- The mouse is pushed, or the grab is switched. -/
inductive MouseOp where
  | displace (dx dy : Int)
  | setGrab (on : Bool)
  deriving DecidableEq, Repr

structure Mouse where
  /-- Where the system has the cursor, in pixels. -/
  cursor : Int × Int
  /-- The baseline, in half pixels. -/
  lastPos : Option (Int × Int)
  grabbing : Bool
  /-- The last motion was captured under a grab. -/
  captured : Bool

/-- What a step shows: the displacement made under a grab, and the events reported. -/
abbrev MouseTrace : Type := List ((Int × Int) × List LocalEvent)

/-- The relative motion an event reports. -/
def relDelta : LocalEvent → Int × Int
  | .motionRel dx dy => (dx.toInt, dy.toInt)
  | _ => (0, 0)

/-- The sum of some displacements. -/
def total : List (Int × Int) → Int × Int
  | [] => (0, 0)
  | d :: ds => (d.1 + (total ds).1, d.2 + (total ds).2)

namespace MouseTrace

/-- All displacements made while grabbing. -/
def made (t : MouseTrace) : Int × Int := total (t.map Prod.fst)

/-- All relative motion reported. -/
def emitted (t : MouseTrace) : Int × Int := total ((t.flatMap Prod.snd).map relDelta)

end MouseTrace

namespace Mouse

section

variable (platform : Platform) (snap : Int → Int) (centre : Int × Int)

/-- The cursor moves and its position is reported to `translate`, which may send it elsewhere. -/
def step (s : Mouse) : MouseOp → Mouse × MouseTrace
  | .setGrab on => ({ s with grabbing := on }, [])
  | .displace dx dy =>
    let p := (s.cursor.1 + dx, s.cursor.2 + dy)
    let moved := translateMove s.grabbing s.lastPos (some centre) (2 * p.1) (2 * p.2)
    let cursor := match moved.recenter with
      | some c => recenterCursor snap c p platform
      | none => p
    ({ s with cursor, lastPos := moved.lastPos, captured := s.grabbing },
      [(if s.grabbing then (dx, dy) else (0, 0), moved.events)])

end

/-- A mouse whose position was reported before any grab. -/
def known (cursor : Int × Int) : Mouse :=
  { cursor, lastPos := some (2 * cursor.1, 2 * cursor.2), grabbing := false, captured := false }

/-- The displacement `d` is measured exactly from a place `e` half pixels off the baseline: it fits
    in 32 bits, and the two places are one, up to a half pixel that the cut towards zero forgives;
    or it is the extreme one and saturates. -/
def Exact (e d : Int) : Prop :=
  (-2 ^ 31 ≤ d ∧ d < 2 ^ 31) ∧
  (e = 0 ∨ e = 1 ∧ 0 ≤ d ∨ e = -1 ∧ d ≤ 0 ∨ 0 < e ∧ d = 2 ^ 31 - 1 ∨ e < 0 ∧ d = -2 ^ 31)

/-- How far the cursor is from the centre when the motion before was captured, too. -/
def offset (s : Mouse) (centre : Int × Int) : Int × Int :=
  if s.captured then (2 * s.cursor.1 - centre.1, 2 * s.cursor.2 - centre.2) else (0, 0)

/-- The condition: a displacement made under a grab right after another one starts at the centre. -/
def OnTarget (s : Mouse) (centre : Int × Int) : MouseOp → Prop
  | .displace dx dy =>
    s.grabbing = true → Exact (s.offset centre).1 dx ∧ Exact (s.offset centre).2 dy
  | .setGrab _ => True

/-! ## The cast -/

theorem castI32_toInt (n : Int) :
    (castI32 n).toInt = max (-2 ^ 31) (min (n.tdiv 2) (2 ^ 31 - 1)) := by
  unfold castI32
  apply Int32.toInt_ofInt_of_le
  · omega
  · omega

/-- Halving towards zero. -/
theorem tdiv_two (n : Int) : n.tdiv 2 = if 0 ≤ n then n / 2 else -(-n / 2) := by
  by_cases hn : 0 ≤ n
  · rw [if_pos hn, Int.tdiv_eq_ediv_of_nonneg hn]
  · have hneg : 0 ≤ -n := by omega
    rw [if_neg hn, ← Int.tdiv_eq_ediv_of_nonneg hneg, Int.neg_tdiv, Int.neg_neg]

/-- **A displacement is measured right exactly in these cases.** -/
theorem castI32_eq_iff (e d : Int) : (castI32 (2 * d + e)).toInt = d ↔ Exact e d := by
  rw [castI32_toInt, tdiv_two]
  unfold Exact
  by_cases hn : 0 ≤ 2 * d + e
  · rw [if_pos hn]
    omega
  · rw [if_neg hn]
    omega

theorem total_singleton (d : Int × Int) : total [d] = d := by
  show (d.1 + 0, d.2 + 0) = d
  rw [Int.add_zero, Int.add_zero]

theorem total_append (ds es : List (Int × Int)) :
    total (ds ++ es) = ((total ds).1 + (total es).1, (total ds).2 + (total es).2) := by
  induction ds with
  | nil =>
    show total es = (0 + (total es).1, 0 + (total es).2)
    rw [Int.zero_add, Int.zero_add]
  | cons d ds ih =>
    show (d.1 + (total (ds ++ es)).1, d.2 + (total (ds ++ es)).2) =
      (d.1 + (total ds).1 + (total es).1, d.2 + (total ds).2 + (total es).2)
    rw [ih, Int.add_assoc, Int.add_assoc]

/-! ## One step -/

variable {platform : Platform} {snap : Int → Int} {centre : Int × Int} {s : Mouse}

/-- The baseline is the centre after a captured motion, and the cursor's place after any other. -/
def Based (centre : Int × Int) (s : Mouse) : Prop :=
  s.lastPos = some (2 * s.cursor.1 - (s.offset centre).1, 2 * s.cursor.2 - (s.offset centre).2)

theorem based_known (centre cursor : Int × Int) : (known cursor).Based centre := by
  show some _ = some (2 * cursor.1 - 0, 2 * cursor.2 - 0)
  rw [Int.sub_zero, Int.sub_zero]

theorem Based.step (h : s.Based centre) (op : MouseOp) :
    (step platform snap centre s op).1.Based centre := by
  cases op with
  | setGrab on => exact h
  | displace dx dy =>
    unfold Based Mouse.step translateMove offset
    cases hg : s.grabbing with
    | true =>
      -- wherever the cursor has been sent, the baseline is the centre
      simp only [if_true, Int.sub_sub_self]
    | false =>
      simp only [Bool.false_eq_true, if_false, Int.sub_zero]

/-- What a captured displacement is reported as. -/
theorem emitted_captured (h : s.Based centre) (hg : s.grabbing = true) (dx dy : Int) :
    MouseTrace.emitted (step platform snap centre s (.displace dx dy)).2 =
      ((castI32 (2 * dx + (s.offset centre).1)).toInt,
        (castI32 (2 * dy + (s.offset centre).2)).toInt) := by
  have hx : 2 * (s.cursor.1 + dx) - (2 * s.cursor.1 - (s.offset centre).1) =
      2 * dx + (s.offset centre).1 := by omega
  have hy : 2 * (s.cursor.2 + dy) - (2 * s.cursor.2 - (s.offset centre).2) =
      2 * dy + (s.offset centre).2 := by omega
  unfold Based at h
  simp only [Mouse.step, translateMove, hg, h, if_true, Option.map_some, hx, hy, MouseTrace.emitted,
    List.flatMap_cons, List.flatMap_nil, List.append_nil]
  split
  · show (_ + 0, _ + 0) = _
    rw [Int.add_zero, Int.add_zero]
    rfl
  · -- nothing is reported of a displacement measured as zero
    rename_i hzero
    obtain ⟨hx0, hy0⟩ : castI32 (2 * dx + (s.offset centre).1) = 0 ∧
        castI32 (2 * dy + (s.offset centre).2) = 0 := by
      simpa using hzero
    rw [hx0, hy0]
    rfl

/-- **A step reports the displacement it was given exactly if it starts on target.** -/
theorem step_law_iff (h : s.Based centre) (op : MouseOp) :
    MouseTrace.emitted (step platform snap centre s op).2 =
        MouseTrace.made (step platform snap centre s op).2 ↔ s.OnTarget centre op := by
  cases op with
  | setGrab on => exact ⟨fun _ => trivial, fun _ => rfl⟩
  | displace dx dy =>
    cases hg : s.grabbing with
    | true =>
      have hmade : MouseTrace.made (step platform snap centre s (.displace dx dy)).2 = (dx, dy) := by
        show total [if s.grabbing then (dx, dy) else (0, 0)] = _
        rw [hg, if_pos rfl, total_singleton]
      rw [emitted_captured h hg, hmade, Prod.mk.injEq, castI32_eq_iff, castI32_eq_iff]
      exact ⟨fun hexact _ => hexact, fun hexact => hexact hg⟩
    | false =>
      have hboth : MouseTrace.emitted (step platform snap centre s (.displace dx dy)).2 =
          MouseTrace.made (step platform snap centre s (.displace dx dy)).2 := by
        simp only [Mouse.step, translateMove, hg, Bool.false_eq_true, if_false]
        rfl
      refine ⟨fun _ hgrab => ?_, fun _ => hboth⟩
      rw [hg] at hgrab
      cases hgrab

/-! ## Whole runs -/

theorem based_run (start : Int × Int) (ops : List MouseOp) :
    (Mealy.run (step platform snap centre) (known start) ops).1.Based centre := by
  apply Mealy.run_induction (step platform snap centre) (P := fun _ s _ => s.Based centre)
  · exact based_known centre start
  · intro _ s _ op h
    exact h.step op

/-- A run and a step report and make what the two do together. -/
theorem emitted_append (t u : MouseTrace) : MouseTrace.emitted (t ++ u) =
    ((MouseTrace.emitted t).1 + (MouseTrace.emitted u).1,
      (MouseTrace.emitted t).2 + (MouseTrace.emitted u).2) := by
  unfold MouseTrace.emitted
  rw [List.flatMap_append, List.map_append, total_append]

theorem made_append (t u : MouseTrace) : MouseTrace.made (t ++ u) =
    ((MouseTrace.made t).1 + (MouseTrace.made u).1,
      (MouseTrace.made t).2 + (MouseTrace.made u).2) := by
  unfold MouseTrace.made
  rw [List.map_append, total_append]

/-- If every step starts on target, nothing is lost and nothing invented. -/
theorem law_of_onTarget {start : Int × Int} {ops : List MouseOp}
    (h : Mealy.EveryStep (step platform snap centre) (known start) ops
      fun _ s op => s.OnTarget centre op) :
    MouseTrace.emitted (Mealy.run (step platform snap centre) (known start) ops).2 =
      MouseTrace.made (Mealy.run (step platform snap centre) (known start) ops).2 := by
  induction ops using List.reverseRecOn with
  | nil => rfl
  | append_singleton ops op ih =>
    obtain ⟨hops, hop⟩ := (Mealy.everyStep_concat (step platform snap centre)).mp h
    rw [Mealy.run_concat, emitted_append, made_append, ih hops,
      (step_law_iff (based_run start ops) op).mpr hop]

/-- **When captured motion is physical motion.**  On either platform, for every display centre, every
    known start and all displacements and switches of the grab: after each step the relative motion
    reported is the sum of the displacements made while grabbing, if and only if each displacement
    made under a grab fits in 32 bits and, when the motion before it was captured too, starts at
    the centre of the display, up to a half pixel that is cut off or an extreme that saturates. -/
theorem motion_law_iff (platform : Platform) (snap : Int → Int) (centre start : Int × Int)
    (ops : List MouseOp) :
    (∀ pre, pre <+: ops →
      MouseTrace.emitted (Mealy.run (step platform snap centre) (known start) pre).2 =
        MouseTrace.made (Mealy.run (step platform snap centre) (known start) pre).2) ↔
      Mealy.EveryStep (step platform snap centre) (known start) ops
        fun _ s op => s.OnTarget centre op := by
  constructor
  · intro h pre op hpre
    have hbefore := h pre ((List.prefix_append pre [op]).trans hpre)
    have hafter := h (pre ++ [op]) hpre
    rw [Mealy.run_concat, emitted_append, made_append, hbefore] at hafter
    injection hafter with hx hy
    exact (step_law_iff (based_run start pre) op).mp
      (Prod.ext (Int.add_left_cancel hx) (Int.add_left_cancel hy))
  · intro h pre hpre
    exact law_of_onTarget (h.of_prefix _ hpre)

/-- Two pushes of ten pixels, on a platform where the cursor is not moved: the second is reported
    as twenty. -/
theorem pushed_twice :
    let ops : List MouseOp := [.setGrab true, .displace 10 0, .displace 10 0]
    MouseTrace.emitted (Mealy.run (step .other (· / 2) (1920, 1080)) (known (960, 540)) ops).2 ≠
      MouseTrace.made (Mealy.run (step .other (· / 2) (1920, 1080)) (known (960, 540)) ops).2 := by
  decide

/-- **Where the cursor is moved the law holds**: on macOS, for a display of even size, whatever
    the displacements, as long as each of them fits in 32 bits. -/
theorem motion_law_macos {start : Int × Int} {ops : List MouseOp}
    (hsnap : 2 * snap centre.1 = centre.1 ∧ 2 * snap centre.2 = centre.2)
    (hfits : ∀ dx dy, .displace dx dy ∈ ops →
      (-2 ^ 31 ≤ dx ∧ dx < 2 ^ 31) ∧ -2 ^ 31 ≤ dy ∧ dy < 2 ^ 31) :
    MouseTrace.emitted (Mealy.run (step .macos snap centre) (known start) ops).2 =
      MouseTrace.made (Mealy.run (step .macos snap centre) (known start) ops).2 := by
  apply law_of_onTarget
  intro pre op hpre
  -- a captured motion leaves the cursor at the centre
  have hcentred : (Mealy.run (step .macos snap centre) (known start) pre).1.captured = true →
      (Mealy.run (step .macos snap centre) (known start) pre).1.cursor =
        (snap centre.1, snap centre.2) := by
    apply Mealy.run_induction (step .macos snap centre)
      (P := fun _ s _ => s.captured = true → s.cursor = (snap centre.1, snap centre.2))
    · intro hfalse
      cases hfalse
    · intro _ s _ op h
      cases op with
      | setGrab on => exact h
      | displace dx dy =>
        intro hcaptured
        have hg : s.grabbing = true := hcaptured
        simp only [Mouse.step, translateMove, hg, if_true]
        rfl
  cases op with
  | setGrab on => trivial
  | displace dx dy =>
    intro _
    have hmem : MouseOp.displace dx dy ∈ ops :=
      hpre.subset (List.mem_append_right pre List.mem_cons_self)
    obtain ⟨hdx, hdy⟩ := hfits dx dy hmem
    generalize (Mealy.run (step .macos snap centre) (known start) pre).1 = s at hcentred
    have hoffset : s.offset centre = (0, 0) := by
      unfold offset
      by_cases hc : s.captured = true
      · rw [if_pos hc, hcentred hc, hsnap.1, hsnap.2, Int.sub_self, Int.sub_self]
      · rw [if_neg hc]
    rw [hoffset]
    exact ⟨⟨hdx, .inl rfl⟩, ⟨hdy, .inl rfl⟩⟩

end Mouse

end SelfKvm
