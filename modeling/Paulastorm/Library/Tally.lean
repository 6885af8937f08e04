import Mathlib.Algebra.BigOperators.Group.List.Basic
import Mathlib.Algebra.GroupWithZero.Nat
import Paulastorm.Library.Transition

namespace Paulastorm.Library

/-! Weights along a run.

A step may cost something and may bring something in.  Where a rank that falls and a
credit that grows pay for every step what it costs more than it brings in, a run
costs no more than its first rank, the growth of the credit and what it brings in.
-/

namespace Machine

variable {State : Type u} {Label : Type v}

/-- The weight of a list of labels, each at the state it is taken from. -/
def tally (machine : Machine State Label) (weight : Label → State → Nat) :
    List Label → State → Nat
  | [], _ => 0
  | label :: rest, state =>
      weight label state +
        match machine.step label state with
        | some next => machine.tally weight rest next
        | none => 0

variable {machine : Machine State Label} {allowed : Label → State → Prop}
  {before middle after : State} {label : Label} {labels : List Label}

theorem tally_cons (weight : Label → State → Nat) (taken : machine.step label before = some middle) :
    machine.tally weight (label :: labels) before =
      weight label before + machine.tally weight labels middle := by
  simp only [tally, taken]

/-- A weight of the labels alone is their sum. -/
theorem Runs.tally_labels (run : machine.Runs allowed before labels after)
    (weight : Label → Nat) :
    machine.tally (fun label _ => weight label) labels before = (labels.map weight).sum := by
  induction run with
  | refl => rfl
  | step _ taken _ ih => rw [tally_cons _ taken, ih, List.map_cons, List.sum_cons]

/-- What each step costs is paid by the rank, owed to the credit or brought in. -/
theorem Runs.tally_le (holds : State → Prop) (cost gain : Label → State → Nat)
    (rank credit : State → Nat)
    (preserved : ∀ label state next, allowed label state →
      machine.step label state = some next → holds state → holds next)
    (paid : ∀ label state next, allowed label state → machine.step label state = some next →
      holds state → cost label state + rank next + credit state ≤
        rank state + credit next + gain label state)
    (run : machine.Runs allowed before labels after) (initial : holds before) :
    machine.tally cost labels before + rank after + credit before ≤
      rank before + credit after + machine.tally gain labels before := by
  induction run with
  | refl => simp [tally]
  | @step before middle after label labels permitted taken _ ih =>
      have first := paid label before middle permitted taken initial
      have rest := ih (preserved label before middle permitted taken initial)
      rw [tally_cons cost taken, tally_cons gain taken]
      omega

end Machine

end Paulastorm.Library
