import Mathlib.Data.Nat.Basic
import Mathlib.Tactic.Linarith
import Mathlib.Tactic.Ring

namespace Paulastorm.Library.Approximation

/-! Fractions with bounded numerator and denominator near a given ratio `target / unit`.

The error of `n / m` is `|n * unit - target * m| / m`.  For each denominator it is enough to
try the rounded numerator: a numerator below the rounded one of a denominator too large for
the bound is beaten at the denominator before it, and a positive numerator where the rounded
one is zero is beaten at any larger denominator.
-/

/-- The distance of two numbers. -/
def gap (first second : Nat) : Nat := (first - second) + (second - first)

theorem gap_mul (first second factor : Nat) :
    gap (first * factor) (second * factor) = gap first second * factor := by
  simp only [gap, Nat.add_mul, Nat.sub_mul]

section Rounding

variable (target unit : Nat)

/-- The numerator nearest to `target * m / unit`. -/
def rounded (m : Nat) : Nat := (target * m + unit / 2) / unit

/-- The error of `n / m`, before the division by `m`. -/
def error (n m : Nat) : Nat := gap (n * unit) (target * m)

end Rounding

/-- The fraction of the first error is no larger than that of the second. -/
def AtMost (error m error' m' : Nat) : Prop := error * m' ≤ error' * m

theorem AtMost.refl (error m : Nat) : AtMost error m error m := Nat.le_refl _

theorem AtMost.trans {first second third m m' m'' : Nat} (positive : 0 < m')
    (early : AtMost first m second m') (late : AtMost second m' third m'') :
    AtMost first m third m'' := by
  unfold AtMost at early late ⊢
  apply Nat.le_of_mul_le_mul_left _ positive
  calc m' * (first * m'') = first * m' * m'' := by ring
    _ ≤ second * m * m'' := Nat.mul_le_mul_right _ early
    _ = second * m'' * m := by ring
    _ ≤ third * m' * m := Nat.mul_le_mul_right _ late
    _ = m' * (third * m) := by ring

variable {target unit m n : Nat}

section Rounded

/-- The rounded numerator is within half a unit. -/
theorem rounded_bounds (target : Nat) (positive : 0 < unit) (m : Nat) :
    rounded target unit m * unit ≤ target * m + unit / 2 ∧
      target * m + unit / 2 < rounded target unit m * unit + unit := by
  have parts := Nat.div_add_mod (target * m + unit / 2) unit
  have rest := Nat.mod_lt (target * m + unit / 2) positive
  rw [rounded, Nat.mul_comm]
  omega

theorem error_rounded_le (target : Nat) (positive : 0 < unit) (m : Nat) :
    error target unit (rounded target unit m) m ≤ unit / 2 := by
  obtain ⟨lower, upper⟩ := rounded_bounds target positive m
  unfold error gap
  omega

/-- The rounded numerator is the best for its denominator. -/
theorem error_rounded_le_error (positive : 0 < unit) (n m : Nat) :
    error target unit (rounded target unit m) m ≤ error target unit n m := by
  obtain ⟨lower, upper⟩ := rounded_bounds target positive m
  rcases Nat.lt_trichotomy n (rounded target unit m) with below | same | above
  · have step : n * unit + unit ≤ rounded target unit m * unit := by
      rw [← Nat.succ_mul]
      exact Nat.mul_le_mul_right unit below
    unfold error gap
    omega
  · rw [same]
  · have step : rounded target unit m * unit + unit ≤ n * unit := by
      rw [← Nat.succ_mul]
      exact Nat.mul_le_mul_right unit above
    unfold error gap
    omega

theorem rounded_mono (target unit : Nat) {m m' : Nat} (le : m ≤ m') :
    rounded target unit m ≤ rounded target unit m' :=
  Nat.div_le_div_right (Nat.add_le_add_right (Nat.mul_le_mul_left target le) _)

end Rounded

/-- A numerator below the rounded one is beaten at the denominator before. -/
theorem beaten_above (positive : 0 < unit) (several : 2 ≤ m) (below : n < rounded target unit m) :
    AtMost (error target unit (n - n / m) (m - 1)) (m - 1) (error target unit n m) m := by
  obtain ⟨lower, -⟩ := rounded_bounds target positive m
  obtain ⟨k, rfl⟩ : ∃ k, m = k + 1 := ⟨m - 1, by omega⟩
  have step : n * unit + unit ≤ rounded target unit (k + 1) * unit := by
    rw [← Nat.succ_mul]
    exact Nat.mul_le_mul_right unit below
  have parts := Nat.div_add_mod n (k + 1)
  have rest : n % (k + 1) ≤ k := Nat.le_of_lt_succ (Nat.mod_lt n k.succ_pos)
  generalize n / (k + 1) = quotient at parts ⊢
  generalize n % (k + 1) = remainder at parts rest
  have candidate : n - quotient = quotient * k + remainder := by
    rw [← parts, Nat.add_mul, Nat.one_mul, Nat.mul_comm k]
    omega
  -- Both errors are measured from the same distance `d` of `n / m` to the target.
  obtain ⟨d, distance⟩ : ∃ d, target * (k + 1) = n * unit + d := ⟨target * (k + 1) - n * unit, by omega⟩
  have far : unit ≤ 2 * d := by omega
  have worse : error target unit n (k + 1) = d := by
    unfold error gap
    omega
  have balance : (n - quotient) * unit * (k + 1) + k * d =
      target * k * (k + 1) + unit * remainder := by
    rw [candidate]
    have scaled : k * (target * (k + 1)) = k * (n * unit + d) := by rw [distance]
    have whole : n = (k + 1) * quotient + remainder := parts.symm
    rw [whole] at scaled
    calc (quotient * k + remainder) * unit * (k + 1) + k * d
        = k * (((k + 1) * quotient + remainder) * unit + d) + unit * remainder := by ring
      _ = k * (target * (k + 1)) + unit * remainder := by rw [scaled]
      _ = target * k * (k + 1) + unit * remainder := by ring
  have small : unit * remainder ≤ 2 * (k * d) := by
    calc unit * remainder ≤ unit * k := Nat.mul_le_mul_left unit rest
      _ ≤ 2 * d * k := Nat.mul_le_mul_right k far
      _ = 2 * (k * d) := by ring
  unfold AtMost
  rw [worse, Nat.add_sub_cancel, Nat.mul_comm d k]
  have distributed : error target unit (n - quotient) k * (k + 1) =
      gap ((n - quotient) * unit * (k + 1)) (target * k * (k + 1)) :=
    (gap_mul _ _ _).symm
  rw [distributed]
  unfold gap
  omega

/-- A positive numerator where the rounded one is zero is beaten at any denominator
where it is not. -/
theorem beaten_below {m' : Nat} (positive : 0 < unit) (none : rounded target unit m = 0)
    (some : 0 < rounded target unit m') (nonzero : 0 < n) :
    AtMost (error target unit (rounded target unit m') m') m' (error target unit n m) m := by
  obtain ⟨-, upper⟩ := rounded_bounds target positive m
  have larger : m ≤ m' := by
    by_contra smaller
    have mono := rounded_mono target unit (Nat.le_of_not_le smaller)
    omega
  have one : unit ≤ n * unit := Nat.le_mul_of_pos_left unit nonzero
  rw [none, Nat.zero_mul, Nat.zero_add] at upper
  have near := error_rounded_le target positive m'
  have far : error target unit (rounded target unit m') m' ≤ error target unit n m := by
    unfold error gap at near ⊢
    omega
  exact Nat.mul_le_mul far larger

section Bounded

variable {limit : Nat}

/-- A denominator whose rounded numerator is in range. -/
def InRange (target unit limit m : Nat) : Prop :=
  0 < rounded target unit m ∧ rounded target unit m ≤ limit

/-- Every admissible fraction is matched by a rounded one. -/
theorem matched_by_rounded (positive : 0 < unit) {m' : Nat} (some : 0 < m')
    (inRange : InRange target unit limit m') (n m : Nat) (numerator : 0 < n) (bounded : n ≤ limit)
    (denominator : 0 < m) :
    ∃ best, 0 < best ∧ best ≤ max m m' ∧ InRange target unit limit best ∧
      AtMost (error target unit (rounded target unit best) best) best (error target unit n m) m := by
  induction m generalizing n with
  | zero => exact absurd denominator (Nat.lt_irrefl 0)
  | succ m ih =>
      rcases Nat.eq_zero_or_pos (rounded target unit (m + 1)) with none | nonzero
      · exact ⟨m', some, Nat.le_max_right _ _, inRange, beaten_below positive none inRange.1 numerator⟩
      · rcases Nat.lt_or_ge limit (rounded target unit (m + 1)) with beyond | within
        · have several : 2 ≤ m + 1 := by
            by_contra single
            have mono := rounded_mono target unit (show m + 1 ≤ m' by omega)
            have upper := inRange.2
            omega
          have lower : 0 < n - n / (m + 1) :=
            Nat.sub_pos_of_lt (Nat.div_lt_self numerator several)
          obtain ⟨best, bestPositive, bestBound, bestRange, better⟩ :=
            ih (n - n / (m + 1)) lower ((Nat.sub_le _ _).trans bounded) (by omega)
          refine ⟨best, bestPositive, by omega, bestRange, better.trans (by omega) ?_⟩
          exact beaten_above positive several (by omega)
        · exact ⟨m + 1, m.succ_pos, Nat.le_max_left _ _, ⟨nonzero, within⟩,
            Nat.mul_le_mul_right _ (error_rounded_le_error positive n (m + 1))⟩

end Bounded

end Paulastorm.Library.Approximation
