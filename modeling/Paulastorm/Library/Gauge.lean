import Paulastorm.Library.Transition
import Mathlib.Data.UInt

namespace Paulastorm.Library

/-! A gauge of the distance of two counters that both of their owners store.

One side owns `head`, the other `tail`.  After moving its counter a side stores the
difference to the other counter, as it loaded that one some time before.  At rest the
gauge shows what the last store left, so all that matters is whether the counter loaded
for it had moved by then.
-/

structure Gauge where
  head : UInt32
  tail : UInt32
  seenHead : UInt32
  seenTail : UInt32
  shown : UInt32
  /-- The last store was made from a counter that had not moved since its load. -/
  fresh : Bool
  headOwes : Bool
  tailOwes : Bool
deriving Repr, DecidableEq

namespace Gauge

/-- What the two sides do with the gauge and its counters. -/
inductive Event where
  | publish
  | loadTail
  | storeHead
  | retire (tail : UInt32)
  | loadHead
  | storeTail

def start : Gauge := ⟨0, 0, 0, 0, 0, true, false, false⟩

def apply (gauge : Gauge) : Event → Gauge
  | .publish => { gauge with head := gauge.head + 1, headOwes := true }
  | .loadTail => { gauge with seenTail := gauge.tail }
  | .storeHead =>
      { gauge with
        shown := gauge.head - gauge.seenTail
        fresh := gauge.seenTail == gauge.tail
        headOwes := false }
  | .retire tail => { gauge with tail := tail, tailOwes := true }
  | .loadHead => { gauge with seenHead := gauge.head }
  | .storeTail =>
      { gauge with
        shown := gauge.seenHead - gauge.tail
        fresh := gauge.seenHead == gauge.head
        tailOwes := false }

/-- Where no store is owed, the gauge is right exactly if the last store was fresh. -/
def Settled (gauge : Gauge) : Prop :=
  gauge.headOwes = false → gauge.tailOwes = false →
    (gauge.shown = gauge.head - gauge.tail ↔ gauge.fresh = true)

variable {gauge : Gauge}

theorem start_settled : start.Settled := fun _ _ => ⟨fun _ => rfl, fun _ => rfl⟩

theorem sub_left_inj (counter first second : UInt32) :
    counter - first = counter - second ↔ first = second := by
  constructor
  · intro same
    have negated : -first = -second := by
      rwa [UInt32.sub_eq_add_neg, UInt32.sub_eq_add_neg, UInt32.add_right_inj] at same
    exact UInt32.neg_inj.mp negated
  · rintro rfl
    rfl

theorem apply_settled (settled : gauge.Settled) (event : Event) : (gauge.apply event).Settled := by
  cases event with
  | publish => exact fun owes => absurd owes (by simp [apply])
  | loadTail => exact settled
  | storeHead =>
      intro _ _
      change gauge.head - gauge.seenTail = gauge.head - gauge.tail ↔
        (gauge.seenTail == gauge.tail) = true
      rw [sub_left_inj, beq_iff_eq]
  | retire tail => exact fun _ owes => absurd owes (by simp [apply])
  | loadHead => exact settled
  | storeTail =>
      intro _ _
      change gauge.seenHead - gauge.tail = gauge.head - gauge.tail ↔
        (gauge.seenHead == gauge.head) = true
      rw [UInt32.sub_left_inj, beq_iff_eq]

/-- The gauge after a run of a machine whose steps are such events. -/
def after {State : Type u} {Label : Type v} (machine : Machine State Label)
    (events : Label → State → List Event) : List Label → State → Gauge → Gauge
  | [], _, gauge => gauge
  | label :: rest, state, gauge =>
      match machine.step label state with
      | none => gauge
      | some next => after machine events rest next ((events label state).foldl apply gauge)

/-- A relation that every step carries along holds after every run. -/
theorem after_related {State : Type u} {Label : Type v} {machine : Machine State Label}
    {events : Label → State → List Event} {related : State → Gauge → Prop}
    (preserved : ∀ label state next gauge, machine.step label state = some next →
      related state gauge → related next ((events label state).foldl apply gauge))
    {before after : State} {labels : List Label}
    (run : machine.Runs Machine.anyStep before labels after) (initial : related before gauge) :
    related after (Gauge.after machine events labels before gauge) := by
  induction run generalizing gauge with
  | refl => exact initial
  | step _ taken _ ih =>
      rw [Gauge.after, taken]
      exact ih (preserved _ _ _ _ taken initial)

end Gauge

end Paulastorm.Library
