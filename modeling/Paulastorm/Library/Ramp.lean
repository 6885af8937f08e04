import Mathlib.Algebra.Order.Field.Basic
import Mathlib.Tactic.Linarith
import Mathlib.Tactic.Ring

namespace Paulastorm.Library.Ramp

/-! Linear ramps: a level that moves towards its target by at most one step at a time. -/

variable {K : Type*} [Field K] [LinearOrder K] [IsStrictOrderedRing K]
  {step target level low high : K}

/-- One step towards the target. -/
def approach (step target level : K) : K := level + max (-step) (min step (target - level))

@[simp] theorem approach_target (positive : 0 ≤ step) : approach step target target = target := by
  rw [approach, sub_self, min_eq_right positive, max_eq_right (neg_nonpos.mpr positive), add_zero]

/-- The three cases of a step: up, down, or onto the target. -/
theorem approach_cases (positive : 0 ≤ step) (target level : K) :
    (step ≤ target - level ∧ approach step target level = level + step) ∨
      (target - level ≤ -step ∧ approach step target level = level - step) ∨
      (|target - level| ≤ step ∧ approach step target level = target) := by
  rcases le_total step (target - level) with above | within
  · left
    refine ⟨above, ?_⟩
    rw [approach, min_eq_left above, max_eq_right (by linarith)]
  · rw [approach, min_eq_right within]
    right
    rcases le_total (target - level) (-step) with below | near
    · left
      refine ⟨below, ?_⟩
      rw [max_eq_left below, sub_eq_add_neg]
    · right
      refine ⟨abs_le.mpr ⟨near, within⟩, ?_⟩
      rw [max_eq_right near, add_sub_cancel]

theorem approach_near (positive : 0 ≤ step) : |approach step target level - level| ≤ step := by
  rcases approach_cases positive target level with
    ⟨_, up⟩ | ⟨_, down⟩ | ⟨near, reached⟩
  · rw [up, add_sub_cancel_left, abs_of_nonneg positive]
  · rw [down, sub_sub_cancel_left, abs_neg, abs_of_nonneg positive]
  · rw [reached]
    exact near

/-- A step shortens the distance by its length, as far as there is any. -/
theorem distance_approach (positive : 0 ≤ step) :
    |target - approach step target level| = max 0 (|target - level| - step) := by
  rcases approach_cases positive target level with
    ⟨above, up⟩ | ⟨below, down⟩ | ⟨near, reached⟩
  · rw [up, abs_of_nonneg (show 0 ≤ target - level by linarith),
      abs_of_nonneg (show 0 ≤ target - (level + step) by linarith), max_eq_right (by linarith)]
    ring
  · rw [down, abs_of_nonpos (show target - level ≤ 0 by linarith),
      abs_of_nonpos (show target - (level - step) ≤ 0 by linarith), max_eq_right (by linarith)]
    ring
  · rw [reached, sub_self, abs_zero, max_eq_left (by linarith)]

theorem approach_mem (positive : 0 ≤ step) (level_mem : level ∈ Set.Icc low high)
    (target_mem : target ∈ Set.Icc low high) : approach step target level ∈ Set.Icc low high := by
  obtain ⟨lowLevel, levelHigh⟩ := level_mem
  obtain ⟨lowTarget, targetHigh⟩ := target_mem
  rcases approach_cases positive target level with
    ⟨above, up⟩ | ⟨below, down⟩ | ⟨_, reached⟩
  · rw [up]
    constructor <;> linarith
  · rw [down]
    constructor <;> linarith
  · rw [reached]
    exact ⟨lowTarget, targetHigh⟩

/-- The target is at most `count` steps away. -/
def Within (step target level : K) (count : ℕ) : Prop := |target - level| ≤ count * step

theorem within_zero : Within step target level 0 ↔ level = target := by
  rw [Within, Nat.cast_zero, zero_mul, abs_nonpos_iff, sub_eq_zero]
  exact eq_comm

theorem Within.approach {count : ℕ} (positive : 0 ≤ step) (within : Within step target level count) :
    Within step target (approach step target level) (count - 1) := by
  rw [Within] at within ⊢
  rw [distance_approach positive]
  apply max_le (mul_nonneg (Nat.cast_nonneg _) positive)
  cases count with
  | zero =>
      rw [Nat.cast_zero, zero_mul] at within ⊢
      linarith
  | succ count =>
      rw [Nat.cast_succ] at within
      rw [Nat.add_sub_cancel]
      linarith

end Paulastorm.Library.Ramp
