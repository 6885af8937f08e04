import Mathlib.Data.Nat.Basic
import Mathlib.Logic.Function.Iterate

namespace Paulastorm.Library

/-! Counting in whole units while the rest is carried.

Amounts are given in parts of a unit.  Dividing each amount alone would lose its rest,
so the rest stays beside the count and is carried into the next amount.  The value of the
two together is the sum of the amounts, whatever their order and number.
-/

structure Carried (unit : Nat) where
  whole : Nat
  remainder : Nat
  reduced : remainder < unit

namespace Carried

variable {unit : Nat}

/-- The parts counted so far. -/
def parts (carried : Carried unit) : Nat := carried.whole * unit + carried.remainder

def zero (positive : 0 < unit) : Carried unit := ⟨0, 0, positive⟩

theorem positive (carried : Carried unit) : 0 < unit :=
  Nat.zero_lt_of_lt carried.reduced

theorem carry_lt (carried : Carried unit) (amount : Nat) :
    carried.remainder + amount % unit - unit < unit := by
  have reduced := carried.reduced
  have rest := Nat.mod_lt amount carried.positive
  omega

def add (amount : Nat) (carried : Carried unit) : Carried unit :=
  if carry : unit ≤ carried.remainder + amount % unit then
    ⟨carried.whole + amount / unit + 1, carried.remainder + amount % unit - unit,
      carried.carry_lt amount⟩
  else ⟨carried.whole + amount / unit, carried.remainder + amount % unit, Nat.not_le.mp carry⟩

theorem whole_eq (carried : Carried unit) : carried.whole = carried.parts / unit := by
  rw [parts, Nat.add_comm, Nat.add_mul_div_right _ _ carried.positive,
    Nat.div_eq_of_lt carried.reduced, Nat.zero_add]

theorem remainder_eq (carried : Carried unit) : carried.remainder = carried.parts % unit := by
  rw [parts, Nat.add_comm, Nat.add_mul_mod_self_right, Nat.mod_eq_of_lt carried.reduced]

@[simp] theorem zero_parts (positive : 0 < unit) : (zero positive).parts = 0 := by
  simp [zero, parts]

@[simp] theorem add_parts (amount : Nat) (carried : Carried unit) :
    (carried.add amount).parts = carried.parts + amount := by
  have divided := Nat.div_add_mod' amount unit
  unfold add
  split
  next carry =>
    simp only [parts, Nat.add_mul, Nat.one_mul]
    omega
  next =>
    simp only [parts, Nat.add_mul]
    omega

theorem iterate_add_parts (amount n : Nat) (carried : Carried unit) :
    ((add amount)^[n] carried).parts = carried.parts + n * amount := by
  induction n with
  | zero => simp
  | succ n ih =>
      rw [Function.iterate_succ_apply', add_parts, ih, Nat.add_mul, Nat.one_mul, Nat.add_assoc]

/-- Nothing is lost over any number of amounts. -/
theorem iterate_add_zero (positive : 0 < unit) (amount n : Nat) :
    ((add amount)^[n] (zero positive)).whole = n * amount / unit ∧
      ((add amount)^[n] (zero positive)).remainder = n * amount % unit := by
  rw [whole_eq, remainder_eq, iterate_add_parts, zero_parts, Nat.zero_add]
  exact ⟨rfl, rfl⟩

end Carried

end Paulastorm.Library
