import Mathlib.Algebra.Order.Floor.Ring
import Mathlib.Data.Rat.Floor

namespace Paulastorm.Core

/-! Floating-point arithmetic as an interface.

The renderer computes in `float` and `double`.  Nothing about the register
walk depends on how these round, so the core is generic in both formats and
only names the operations that the source uses.  Exact rational arithmetic is
one instance.
-/

/-- The operations of one floating-point format. -/
class Floating (F : Type) extends Add F, Sub F, Mul F, Div F, Neg F where
  /-- The value nearest to a literal or to a converted integer. -/
  ofRat : ℚ → F
  lt : F → F → Bool
  le : F → F → Bool

export Floating (ofRat)

/-- `float` and `double` together: the narrowing conversion, and how many turns the loop
takes that subtracts 1.0 from a phase while it is 1.0 or more. -/
class Arith (F D : Type) [Floating F] [Floating D] where
  narrow : D → F
  rounds : D → Nat

instance : Floating ℚ where
  ofRat value := value
  lt first second := decide (first < second)
  le first second := decide (first ≤ second)

/-- Exact arithmetic: the loop takes the integral part of the phase away. -/
instance : Arith ℚ ℚ where
  narrow value := value
  rounds phase := ⌊phase⌋.toNat

end Paulastorm.Core
