import Paulastorm.Library.Tally
import Paulastorm.Mirror.EventRing.Steps

namespace Paulastorm.Mirror.EventRing

/-! Neither processor waits for the other at the event ring. -/

open Library

/-- The steps that are left of a capture, at most. -/
def Producer.left : Producer → Nat
  | .idle => 0
  | .exchange _ => 14
  | .refuse _ => 1
  | .shadow _ => 13
  | .stamp _ => 12
  | .loadTail _ => 11
  | .test _ _ => 10
  | .overflow _ => 2
  | .fill _ _ _ field => (5 - field) + 4
  | .count _ _ _ => 3
  | .gauge _ => 2
  | .release => 1

/-- The steps that are left of an operation of the consumer, at most. -/
def Consumer.left : Consumer → Nat
  | .idle => 0
  | .peek => 7
  | .copy field => (5 - field) + 1
  | .pop => 4
  | .advance _ => 3
  | .popPending _ => 2
  | .popGauge _ => 1
  | .snapshot => 8
  | .loadHead => 7
  | .loadTail _ => 6
  | .copyLatest _ _ => 5
  | .loadDropped _ => 4
  | .discard _ => 3
  | .snapshotGauge => 2
  | .release => 1

variable {state next : State}

theorem produce_left {ticks : UInt64} (moved : produce ticks state = some next) :
    next.producer.left + 1 ≤ state.producer.left := by
  obtain ⟨shared, producer, consumer, out, history⟩ := state
  cases producer <;> simp only [produce, reduceCtorEq] at moved
  case fill call tail event field =>
    split at moved <;> cases moved <;> simp only [Producer.left] <;> omega
  case exchange | test => split at moved <;> cases moved <;> simp [Producer.left]
  all_goals
    cases moved
    simp [Producer.left]

theorem consume_left (moved : consume state = some next) :
    next.consumer.left + 1 ≤ state.consumer.left := by
  obtain ⟨shared, producer, consumer, out, history⟩ := state
  cases consumer <;> simp only [consume, reduceCtorEq] at moved
  case copy field => split at moved <;> cases moved <;> simp only [Consumer.left] <;> omega
  case peek | pop | snapshot => split at moved <;> cases moved <;> simp [Consumer.left]
  all_goals
    cases moved
    simp [Consumer.left]

/-- A capture under way can always go on. -/
theorem produce_continues (ticks : UInt64) (busy : 0 < state.producer.left) :
    ∃ next, produce ticks state = some next := by
  cases producer : state.producer <;> rw [producer] at busy <;>
    simp only [produce, producer]
  case idle => exact absurd busy (Nat.lt_irrefl 0)
  case exchange | test | fill => split <;> exact ⟨_, rfl⟩
  all_goals exact ⟨_, rfl⟩

theorem consume_continues (busy : 0 < state.consumer.left) : ∃ next, consume state = some next := by
  cases consumer : state.consumer <;> rw [consumer] at busy <;>
    simp only [consume, consumer]
  case idle => exact absurd busy (Nat.lt_irrefl 0)
  case peek | copy | pop | snapshot => split <;> exact ⟨_, rfl⟩
  all_goals exact ⟨_, rfl⟩

/-- The steps that a label lets CPU0 take, and those that it takes. -/
def Label.allots : Label → Nat
  | .capture _ => 14
  | _ => 0

def Label.produces : Label → Nat
  | .produce _ => 1
  | _ => 0

/-- The steps that a label lets CPU1 take, and those that it takes. -/
def Label.grants : Label → Nat
  | .begin operation => operation.left
  | _ => 0

def Label.consumes : Label → Nat
  | .consume => 1
  | _ => 0

theorem capture_allots {call : Call} (entered : capture call state = some next) :
    next.producer.left ≤ state.producer.left + 14 ∧ next.consumer = state.consumer := by
  obtain ⟨shared, producer, consumer, out, history⟩ := state
  cases producer with
  | idle =>
      simp only [capture] at entered
      split at entered <;> cases entered <;> exact ⟨by simp [Producer.left], rfl⟩
  | _ => cases entered

theorem begin_grants {operation : Consumer} (begun : begin operation state = some next) :
    next.consumer.left ≤ state.consumer.left + operation.left ∧ next.producer = state.producer := by
  obtain ⟨shared, producer, consumer, out, history⟩ := state
  cases consumer with
  | idle => cases operation <;> cases begun <;> exact ⟨by simp [Consumer.left], rfl⟩
  | _ => cases begun

theorem step_left {label : Label} (stepped : step label state = some next) :
    label.produces + next.producer.left ≤ state.producer.left + label.allots ∧
      label.consumes + next.consumer.left ≤ state.consumer.left + label.grants := by
  cases label with
  | capture call =>
      obtain ⟨producer, consumer⟩ := capture_allots stepped
      refine ⟨?_, Nat.le_of_eq ?_⟩
      · simpa [Label.produces, Label.allots] using producer
      · simp [Label.consumes, Label.grants, consumer]
  | produce ticks =>
      refine ⟨?_, Nat.le_of_eq ?_⟩
      · simpa [Label.produces, Label.allots, Nat.add_comm] using produce_left stepped
      · simp [Label.consumes, Label.grants, (produce_kept stepped).consumer]
  | begin operation =>
      obtain ⟨consumer, producer⟩ := begin_grants stepped
      refine ⟨Nat.le_of_eq ?_, ?_⟩
      · simp [Label.produces, Label.allots, producer]
      · simpa [Label.consumes, Label.grants] using consumer
  | consume =>
      refine ⟨Nat.le_of_eq ?_, ?_⟩
      · simp [Label.produces, Label.allots, (consume_kept stepped).producer]
      · simpa [Label.consumes, Label.grants, Nat.add_comm] using consume_left stepped

/-- However the two processors interleave, a capture ends within 14 steps of CPU0, a peek
within 7, a pop within 4 and a snapshot within 8 of CPU1, and none of these steps ever
has to wait for the other processor. -/
theorem operations_wait_free {labels : List Label}
    (run : machine.Runs Machine.anyStep state labels next) :
    (labels.map Label.produces).sum + next.producer.left ≤
        state.producer.left + (labels.map Label.allots).sum ∧
      (labels.map Label.consumes).sum + next.consumer.left ≤
        state.consumer.left + (labels.map Label.grants).sum ∧
      (next.producer ≠ .idle → ∀ ticks, ∃ after, step (.produce ticks) next = some after) ∧
      (next.consumer ≠ .idle → ∃ after, step .consume next = some after) := by
  have counted := fun (cost gain : Label → Nat) (rank : State → Nat)
      (paid : ∀ label state next, step label state = some next →
        cost label + rank next ≤ rank state + gain label) =>
    run.tally_le (fun _ => True) (fun label _ => cost label) (fun label _ => gain label) rank
      (fun _ => 0) (fun _ _ _ _ _ _ => trivial)
      (fun label state next _ stepped _ => paid label state next stepped) trivial
  simp only [run.tally_labels] at counted
  refine ⟨?_, ?_, fun busy ticks => ?_, fun busy => ?_⟩
  · exact counted Label.produces Label.allots (·.producer.left)
      fun _ _ _ stepped => (step_left stepped).1
  · exact counted Label.consumes Label.grants (·.consumer.left)
      fun _ _ _ stepped => (step_left stepped).2
  · refine produce_continues ticks ?_
    cases producer : next.producer <;> first | exact absurd producer busy | simp [Producer.left]
  · refine consume_continues ?_
    cases consumer : next.consumer <;> first | exact absurd consumer busy | simp [Consumer.left]

/-- The state after the sample run of one write. -/
def writtenOnce : State :=
  (machine.run Machine.anyStep oneWrite sampleStart).getD sampleStart

theorem writtenOnce_runs : machine.Runs Machine.anyStep sampleStart oneWrite writtenOnce :=
  Machine.runs_getD _ _ rfl

/-- The bounds are met: the write takes all its 14 steps. -/
theorem operations_wait_free_of_oneWrite : (oneWrite.map Label.produces).sum = 14 ∧
    (oneWrite.map Label.produces).sum + writtenOnce.producer.left ≤ 0 + 14 ∧
    (oneWrite.map Label.consumes).sum + writtenOnce.consumer.left ≤ 0 + 19 := by
  obtain ⟨produced, consumed, _⟩ := operations_wait_free writtenOnce_runs
  exact ⟨rfl, produced, consumed⟩

end Paulastorm.Mirror.EventRing
