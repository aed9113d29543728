/-
  Carrying a position from one axis to another of a different length.

  An integer position `v` on an axis of length `a` goes to `v * b / a`, rounded down, on an axis of
  length `b`.  The map is monotone and stays on the axis.  Carrying a position there and back loses
  something to both roundings: never more than `a / b`, rounded up, and always downwards.
-/

namespace SelfKvm.Scaling

variable {a b v w : Int}

/-- `v` on an axis of length `a`, carried to one of length `b`. -/
def carry (a b v : Int) : Int := v * b / a

theorem carry_nonneg (ha : 0 < a) (hb : 0 < b) (hv : 0 ≤ v) : 0 ≤ carry a b v :=
  Int.ediv_nonneg (Int.mul_nonneg hv (by omega)) (by omega)

/-- What is on the one axis is on the other. -/
theorem carry_lt (ha : 0 < a) (hb : 0 < b) (hv : v < a) : carry a b v < b := by
  apply Int.ediv_lt_of_lt_mul ha
  rw [Int.mul_comm b a]
  exact Int.mul_lt_mul_of_pos_right hv hb

theorem carry_mono (ha : 0 < a) (hb : 0 < b) (h : v ≤ w) : carry a b v ≤ carry a b w :=
  Int.ediv_le_ediv ha (Int.mul_le_mul_of_nonneg_right h (by omega))

/-- There and back never leads past the start. -/
theorem carry_back_le (ha : 0 < a) (hb : 0 < b) : carry b a (carry a b v) ≤ v := by
  have hthere : carry a b v * a ≤ v * b := Int.ediv_mul_le _ (by omega)
  calc carry a b v * a / b
      ≤ v * b / b := Int.ediv_le_ediv hb hthere
    _ = v := Int.mul_ediv_cancel _ (by omega)

/-- The length of one step on the other axis, rounded up. -/
def stride (a b : Int) : Int := (a + b - 1) / b

theorem le_stride_mul (hb : 0 < b) : a ≤ stride a b * b := by
  have h : a + b - 1 < (stride a b + 1) * b := Int.lt_ediv_add_one_mul_self _ hb
  rw [Int.add_mul, Int.one_mul] at h
  omega

/-- **There and back loses at most one step.** -/
theorem le_carry_back (ha : 0 < a) (hb : 0 < b) : v - stride a b ≤ carry b a (carry a b v) := by
  have hthere : v * b < (carry a b v + 1) * a := Int.lt_ediv_add_one_mul_self _ ha
  have hstride := le_stride_mul (a := a) hb
  apply (Int.le_ediv_iff_mul_le hb).mpr
  rw [Int.add_mul, Int.one_mul] at hthere
  rw [Int.sub_mul]
  omega

end SelfKvm.Scaling
