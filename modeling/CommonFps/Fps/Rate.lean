import CommonFps.Lib.Rounding

/-!
# Frame rates and sampling windows

The constants of the samplers (`constants.hpp`), the validation shared by the
floating-point back-ends (`fps_rate.hpp`), and what both counter samplers do
with the time of a reading (`reading`). Floating-point rates are read as exact
rationals, which are finite.

Times are natural numbers: the code subtracts two of them only after comparing
them, so that its 64-bit subtractions never wrap.
-/

namespace CommonFps

/-- PS5 output is at most 120 Hz. -/
def kMaxDisplayFps : ℤ := 120

/-- The largest accepted rate, in tenths of a frame per second. -/
def kMaxTenthsFps : ℕ := 1300

def kMinFpsWindowUs : ℕ := 200000
def kMaxFpsWindowUs : ℕ := 3000000

/-- Raw counters discard one delta. -/
def kWarmupDeltasToDiscard : ℕ := 1

/-- The rate of `delta` frames counted in `elapsedUs` microseconds, in frames per second. -/
def rate (delta elapsedUs : ℕ) : ℚ := delta * 1000000 / elapsedUs

/-- The displayed value of a rate, if it is valid: from 1 to 130 frames per
    second, rounded to the nearest integer, and at most 120. -/
def validatedFps (fps : ℚ) : Option ℤ :=
  if fps < 1 ∨ fps > kMaxTenthsFps / 10 then none else some (min ⌊fps + 1 / 2⌋ kMaxDisplayFps)

/-- A rate the validation accepts. -/
def ValidRate (fps : ℚ) : Prop := 1 ≤ fps ∧ fps ≤ 130

instance (fps : ℚ) : Decidable (ValidRate fps) := by unfold ValidRate; infer_instance

@[simp] theorem rate_zero (elapsedUs : ℕ) : rate 0 elapsedUs = 0 := by simp [rate]

theorem validatedFps_eq_ite (fps : ℚ) :
    validatedFps fps = if ValidRate fps then some (min 120 ⌊fps + 1 / 2⌋) else none := by
  have hmax : (kMaxTenthsFps : ℚ) / 10 = 130 := by norm_num [kMaxTenthsFps]
  have hiff : ValidRate fps ↔ ¬(fps < 1 ∨ fps > 130) := by
    rw [ValidRate, not_or, not_lt, gt_iff_lt, not_lt]
  simp only [validatedFps, hmax, hiff, ite_not, min_comm, kMaxDisplayFps]

theorem validatedFps_eq_none {fps : ℚ} : validatedFps fps = none ↔ ¬ValidRate fps := by
  rw [validatedFps_eq_ite]
  split_ifs with h <;> simp [h]

theorem validatedFps_eq_some {fps : ℚ} {v : ℤ} :
    validatedFps fps = some v ↔ ValidRate fps ∧ v = min 120 ⌊fps + 1 / 2⌋ := by
  rw [validatedFps_eq_ite]
  split_ifs with h <;> simp [h, eq_comm]

/-- A validated value is displayable. -/
theorem validatedFps_bounds {fps : ℚ} {v : ℤ} (h : validatedFps fps = some v) : 1 ≤ v ∧ v ≤ 120 := by
  obtain ⟨⟨h₁, _⟩, rfl⟩ := validatedFps_eq_some.1 h
  refine ⟨le_min (by norm_num) (Int.le_floor.2 ?_), min_le_left _ _⟩
  push_cast
  linarith

/-! ## Windows -/

/-- What a counter sampler does with a reading, given its baseline. -/
inductive Reading
  /-- There is no baseline yet: the reading is the first one. -/
  | first
  /-- The clock did not advance, or the window is too long: start over. -/
  | rebase
  /-- The window is too short: wait. -/
  | short
  /-- The reading completes a window. -/
  | window
  deriving DecidableEq, Repr

/-- The reading at `nowUs`, given the time of the baseline. -/
def reading (haveBaseline : Bool) (previousTimeUs nowUs : ℕ) : Reading :=
  if !haveBaseline then .first
  else if nowUs ≤ previousTimeUs ∨ nowUs - previousTimeUs > kMaxFpsWindowUs then .rebase
  else if nowUs - previousTimeUs < kMinFpsWindowUs then .short
  else .window

variable {h : Bool} {p t : ℕ}

theorem reading_eq_first : reading h p t = .first ↔ h = false := by
  unfold reading
  cases h with
  | false => exact iff_of_true rfl rfl
  | true =>
    rw [Bool.not_true, if_neg Bool.false_ne_true]
    split_ifs <;> exact iff_of_false nofun nofun

theorem reading_eq_rebase : reading h p t = .rebase ↔ h = true ∧ (t ≤ p ∨ 3000000 < t - p) := by
  unfold reading kMaxFpsWindowUs
  cases h with
  | false => exact iff_of_false nofun fun h => absurd h.1 Bool.false_ne_true
  | true =>
    rw [Bool.not_true, if_neg Bool.false_ne_true]
    split_ifs with hrebase
    · exact iff_of_true rfl ⟨rfl, hrebase⟩
    · exact iff_of_false nofun fun h => hrebase h.2
    · exact iff_of_false nofun fun h => hrebase h.2

theorem reading_eq_window :
    reading h p t = .window ↔ h = true ∧ p < t ∧ 200000 ≤ t - p ∧ t - p ≤ 3000000 := by
  unfold reading kMaxFpsWindowUs kMinFpsWindowUs
  cases h with
  | false => exact iff_of_false nofun fun h => absurd h.1 Bool.false_ne_true
  | true =>
    rw [Bool.not_true, if_neg Bool.false_ne_true]
    split_ifs with hrebase hshort
    · exact iff_of_false nofun fun h => by omega
    · exact iff_of_false nofun fun h => by omega
    · exact iff_of_true rfl ⟨rfl, by omega⟩

end CommonFps
