import Agar.CollisionEffects

/-! `Cell::Update` of a cell that nothing pushes: one explicit step multiplies the velocity by one
number, which is at least -1 for short steps only. -/

namespace Agar

namespace Vec2

theorem length_nonneg (v : Vec2 ℝ) : 0 ≤ v.length := Real.sqrt_nonneg _

theorem length_mul (v : Vec2 ℝ) (s : ℝ) : (v * s).length = v.length * |s| := by
  have hsum : v.x * s * (v.x * s) + v.y * s * (v.y * s) = (v.x * v.x + v.y * v.y) * (s * s) := by
    ring
  show Real.sqrt (v.x * s * (v.x * s) + v.y * s * (v.y * s)) = _
  rw [hsum, Real.sqrt_mul (by nlinarith [mul_self_nonneg v.x, mul_self_nonneg v.y]),
    Real.sqrt_mul_self_eq_abs]
  rfl

theorem length_eq_zero {v : Vec2 ℝ} : v.length = 0 ↔ v = 0 := by
  have hx := mul_self_nonneg v.x
  have hy := mul_self_nonneg v.y
  constructor
  · intro h
    have hsum : v.x * v.x + v.y * v.y = 0 := (Real.sqrt_eq_zero (add_nonneg hx hy)).mp h
    ext
    · exact mul_self_eq_zero.mp (by linarith)
    · exact mul_self_eq_zero.mp (by linarith)
  · rintro rfl
    simp [length]

theorem normalize_mul_length (v : Vec2 ℝ) : v.normalize * v.length = v := by
  unfold normalize
  dsimp only
  split_ifs with h
  · rw [h, length_eq_zero.mp h]
    ext <;> simp
  · ext
    · show v.x * (1 / v.length) * v.length = v.x
      field_simp
    · show v.y * (1 / v.length) * v.length = v.y
      field_simp

end Vec2

namespace Cell

/-- The damping factor without a force: the cosine in `alpha` is zero. -/
noncomputable def damping (c : Cell ℝ) : ℝ :=
  if c.flag.isFood then feedDamping
  else minimumDamping * (1 / 2) + maximumDamping * (1 - 1 / 2)

/-- The part of its velocity that drag takes from a cell in a unit of time. -/
noncomputable def drag (c : Cell ℝ) : ℝ := c.damping * 100 * c.radius ^ (0.2 : ℝ)

theorem drag_pos {c : Cell ℝ} (h : 0 < c.radius) : 0 < c.drag := by
  have hdamping : 0 < c.damping := by
    unfold damping
    split_ifs <;> norm_num [feedDamping, minimumDamping, maximumDamping]
  exact mul_pos (mul_pos hdamping (by norm_num)) (Real.rpow_pos_of_pos h _)

theorem pow_div_size {c : Cell ℝ} (h : 0 < c.radius) :
    c.radius ^ (sizeDamping : ℝ) / c.size = 100 * c.radius ^ (0.2 : ℝ) := by
  have hpow : c.radius ^ (sizeDamping : ℝ) = c.radius ^ (0.2 : ℝ) * c.radius ^ 2 := by
    rw [← Real.rpow_natCast c.radius 2, ← Real.rpow_add h]
    norm_num [sizeDamping]
  have hsize := size_pos h
  rw [hpow, div_eq_iff hsize.ne', size]
  ring

theorem update_velocity {c : Cell ℝ} (hradius : 0 < c.radius) (hforce : c.force = 0) (dt : ℝ) :
    (c.update dt).velocity = c.velocity * (1 - c.drag * dt) := by
  have hdot : (0 : Vec2 ℝ).dot c.velocity = 0 := by simp [Vec2.dot, Vec2.normalize, Vec2.length]
  have hfactor : (if c.flag.isFood then (feedDamping : ℝ) else
      minimumDamping * (if c.flag.isFood then 0 else ((0 : Vec2 ℝ).dot c.velocity + 1) / 2) +
        maximumDamping * (1 - if c.flag.isFood then 0 else
          ((0 : Vec2 ℝ).dot c.velocity + 1) / 2)) = c.damping := by
    unfold damping
    rw [hdot]
    split_ifs
    · rfl
    · norm_num
  have hdrag : c.radius ^ (sizeDamping : ℝ) * c.damping / c.size = c.drag := by
    rw [mul_div_right_comm, pow_div_size hradius, drag]
    ring
  have hvelocity : (c.update dt).velocity =
      c.velocity + ((0 : Vec2 ℝ) + c.velocity.normalize *
        (c.velocity.length * c.radius ^ (sizeDamping : ℝ) * c.damping) * (-1 : ℝ)) / c.size * dt := by
    rw [← hfactor, ← hforce]
    rfl
  rw [hvelocity, ← hdrag]
  have hx := congrArg Vec2.x c.velocity.normalize_mul_length
  have hy := congrArg Vec2.y c.velocity.normalize_mul_length
  simp only [Vec2.mul_x, Vec2.mul_y] at hx hy
  ext
  · simp only [Vec2.add_x, Vec2.zero_x, Vec2.mul_x, Vec2.div_x]
    linear_combination (-(c.radius ^ (sizeDamping : ℝ) * c.damping / c.size * dt)) * hx
  · simp only [Vec2.add_y, Vec2.zero_y, Vec2.mul_y, Vec2.div_y]
    linear_combination (-(c.radius ^ (sizeDamping : ℝ) * c.damping / c.size * dt)) * hy

end Cell

/-- A cell that no force acts on, and the length of a step. -/
structure Coasting where
  cell : Cell ℝ
  dt : ℝ
  radius : 0 < cell.radius
  force : cell.force = 0
  forward : 0 ≤ dt

namespace Coasting

/-- The cell is not faster after the step. -/
def NotFaster (c : Coasting) : Prop :=
  (c.cell.update c.dt).velocity.length ≤ c.cell.velocity.length

/-- Drag turns the velocity around by no more than its length. -/
def ShortStep (c : Coasting) : Prop := c.cell.velocity = 0 ∨ c.cell.drag * c.dt ≤ 2

/-- A step makes no cell faster exactly when the cell rests or the step is short for its radius. -/
theorem not_faster (c : Coasting) : c.NotFaster ↔ c.ShortStep := by
  have hdrag : 0 ≤ c.cell.drag * c.dt := mul_nonneg (Cell.drag_pos c.radius).le c.forward
  unfold NotFaster ShortStep
  rw [Cell.update_velocity c.radius c.force, Vec2.length_mul]
  constructor
  · intro h
    by_cases hzero : c.cell.velocity.length = 0
    · exact Or.inl (Vec2.length_eq_zero.mp hzero)
    · have hpos := lt_of_le_of_ne c.cell.velocity.length_nonneg (Ne.symm hzero)
      have habs : |1 - c.cell.drag * c.dt| ≤ 1 := (mul_le_iff_le_one_right hpos).mp h
      have hlow := (abs_le.mp habs).1
      exact Or.inr (by linarith)
  · rintro (hzero | hshort)
    · rw [Vec2.length_eq_zero.mpr hzero, zero_mul]
    · have habs : |1 - c.cell.drag * c.dt| ≤ 1 := abs_le.mpr ⟨by linarith, by linarith⟩
      exact mul_le_of_le_one_right c.cell.velocity.length_nonneg habs

/-- The cell that a split throws off, and a loop that has stalled for a second. -/
noncomputable def stalled : Coasting where
  cell :=
    { force := 0, acceleration := 0, velocity := ⟨splitVelocity, 0⟩, position := 0, id := 0,
      color := 0, flag := playerFlag, radius := 1000, mouseVector := 0, combineTime := 0,
      combineSet := true }
  dt := 1
  radius := by norm_num
  force := rfl
  forward := zero_le_one

/-- The stalled step throws the cell back faster than it came. -/
theorem faster_after_stall : ¬ stalled.NotFaster := by
  have hpow : (1 : ℝ) ≤ (1000 : ℝ) ^ (0.2 : ℝ) :=
    Real.one_le_rpow (by norm_num) (by norm_num)
  have hdrag : 2 < stalled.cell.drag := by
    show 2 < stalled.cell.damping * 100 * (1000 : ℝ) ^ (0.2 : ℝ)
    have hdamping : stalled.cell.damping = 0.03 := by
      norm_num [Cell.damping, stalled, playerFlag, minimumDamping, maximumDamping]
    rw [hdamping]
    linarith
  have hlength : 0 < stalled.cell.velocity.length := by
    refine lt_of_le_of_ne (Vec2.length_nonneg _) fun h => ?_
    have hx := congrArg Vec2.x (Vec2.length_eq_zero.mp h.symm)
    norm_num [stalled, splitVelocity] at hx
  intro h
  unfold NotFaster at h
  rw [Cell.update_velocity stalled.radius stalled.force, Vec2.length_mul] at h
  have habs := (mul_le_iff_le_one_right hlength).mp h
  have hlow := (abs_le.mp habs).1
  have hdt : stalled.dt = 1 := rfl
  rw [hdt] at hlow
  linarith

end Coasting

end Agar
