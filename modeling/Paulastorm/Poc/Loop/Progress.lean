import Paulastorm.Mirror.EventRing.WaitFree
import Paulastorm.Poc.Loop.Counters

namespace Paulastorm.Poc

/-! The replay loop goes on: no drain, no recovery and no snapshot keeps it from its
next frame, and nothing but an output that stays full ends it.
-/

open Paulastorm.Core Mirror Probe
open Library (Machine)

/-- The steps of CPU1 to the start of the next frame, at most, where it neither waits for
the time of the frame nor for room in the output. -/
def Position.left : Position → Nat
  | .enter => 1689
  | .started => 1688
  | .top => 1687
  | .dropped _ => 1686
  | .pending _ => 1685
  | .recovered => 1676
  | .wait => 1675
  | .drain processed => 13 * (128 - processed) + 10
  | .peeked processed => 13 * (127 - processed) + 15
  | .checked => 2
  | .output _ => 1
  | .fifo .left _ _ _ => 1690
  | .fifo .right _ _ _ => 1689
  | .written => 1688
  | .stalled => 0

namespace Loop

variable {F D σ : Type} {port : Port σ} {timing : Timing}

def remaining (loop : Loop F D σ) : Nat := loop.ring.consumer.left + loop.position.left

/-- Whether CPU1 waits: for the time of the next frame, or for room in the output. -/
def waits (timing : Timing) (reading : Reading) (loop : Loop F D σ) : Bool :=
  match loop.ring.consumer, loop.position with
  | .idle, .wait => !ReplayClock.due reading.ticks (loop.clock.tick + timing.latency)
  | .idle, .fifo _ _ _ start =>
      decide (reading.control &&& maiCtlFull ≠ 0) &&
        !decide (timing.maxLag ≤ reading.ticks - start)
  | _, _ => false

def Label.turns : Label port → Nat
  | .cpu1 _ => 1
  | _ => 0

def Label.waits (timing : Timing) (label : Label port) (loop : Loop F D σ) : Nat :=
  match label with
  | .cpu1 reading => if loop.waits timing reading then 1 else 0
  | _ => 0

variable {loop next : Loop F D σ} {label : Label port} {reading : Reading}

theorem served_left {ring : EventRing.State} (moved : EventRing.consume loop.ring = some ring) :
    (loop.served ring).remaining + 1 ≤ loop.remaining := by
  have fell := EventRing.consume_left moved
  simp only [served, remaining]
  omega

variable [Floating F] [Floating D]

/-- Every step but a wait brings CPU1 closer to the next frame. -/
theorem Move.closer (idle : loop.ring.consumer = .idle) (move : Move port timing loop next)
    (elsewhere : loop.position ≠ .wait ∧ ∀ side l r start, loop.position ≠ .fifo side l r start) :
    1 + next.remaining + 1690 * loop.record.frames.length ≤
      loop.remaining + 1690 * next.record.frames.length := by
  cases move with
  | early here | paced here => exact absurd here elsewhere.1
  | full _ _ _ _ here | stall _ _ _ _ here | left _ _ _ _ here | right _ _ _ here =>
      exact absurd here (elsewhere.2 _ _ _ _)
  | emit _ _ _ _ here =>
      simp only [Loop.remaining, here, idle, EventRing.Consumer.left, Position.left,
        List.length_append, List.length_singleton]
      omega
  | look processed here | enough processed here | drained processed here =>
      simp only [Loop.remaining, here, idle, EventRing.Consumer.left, Position.left]
      omega
  | apply processed here =>
      simp only [Loop.remaining, Loop.apply, call, here, idle, EventRing.Consumer.left, Position.left]
      omega
  | enter here | start _ here | adopt _ here | lost _ here | intact _ here | behind _ here
  | pass _ here | restore _ here | retry here | decide here | advance _ here =>
      simp [Loop.remaining, here, idle, EventRing.Consumer.left, Position.left]

variable [Arith F D] {truncate : F → Int32}

theorem control_left (idle : loop.ring.consumer = .idle)
    (moved : loop.control port timing truncate reading = some next) :
    1 + next.remaining + 1690 * loop.record.frames.length ≤
      loop.remaining + 1690 * next.record.frames.length + (if loop.waits timing reading then 1 else 0) := by
  cases here : loop.position with
  | wait =>
      simp only [control, here] at moved
      split at moved <;> cases moved
      next due => simp [remaining, here, idle, EventRing.Consumer.left, Position.left]
      next early =>
        simp only [waits, here, idle, early, Bool.not_false, if_true]
        omega
  | fifo side l r start =>
      simp only [control, here, push] at moved
      split at moved
      next full =>
        split at moved <;> cases moved
        next late =>
          cases side <;>
            simp [remaining, probe, here, idle, EventRing.Consumer.left, Position.left] <;> omega
        next early =>
          simp only [waits, here, idle, full, early, decide_true, decide_false, ne_eq,
            not_false_eq_true, Bool.not_false, Bool.and_self, if_true]
          omega
      next room =>
        cases side <;> cases moved <;>
          simp [remaining, here, idle, EventRing.Consumer.left, Position.left]
  | _ =>
      have fell := (control_move moved).closer idle ⟨by simp [here], by simp [here]⟩
      omega

theorem step_left (stepped : step port timing truncate label loop = some next) :
    label.turns + next.remaining + 1690 * loop.record.frames.length ≤
      loop.remaining + 1690 * next.record.frames.length + label.waits timing loop := by
  cases label with
  | capture call =>
      obtain ⟨ring, entered, rfl⟩ := Option.map_eq_some_iff.mp stepped
      simp [Label.turns, Label.waits, remaining, (EventRing.capture_kept entered).1.consumer]
  | produce ticks =>
      obtain ⟨ring, moved, rfl⟩ := Option.map_eq_some_iff.mp stepped
      simp [Label.turns, Label.waits, remaining, (EventRing.produce_kept moved).consumer]
  | host guest =>
      cases stepped
      simp [Label.turns, Label.waits, remaining]
  | cpu1 reading =>
      simp only [step, cpu1] at stepped
      split at stepped
      next idle => exact control_left idle stepped
      next =>
        obtain ⟨ring, moved, rfl⟩ := Option.map_eq_some_iff.mp stepped
        have fell := served_left moved
        simp only [Label.turns, served] at fell ⊢
        omega

/-- CPU1 can always go on, but from the end of the loop. -/
theorem cpu1_continues (reading : Reading) (going : loop.position ≠ .stalled) :
    ∃ next, loop.cpu1 port timing truncate reading = some next := by
  unfold cpu1
  split
  next idle =>
    cases here : loop.position with
    | stalled => exact absurd here going
    | recovered | dropped | wait | drain | peeked =>
        simp only [control, here]
        split <;> exact ⟨_, rfl⟩
    | _ =>
        simp only [control, here]
        exact ⟨_, rfl⟩
  next consumer busy =>
    have working : 0 < loop.ring.consumer.left := by
      cases consumer : loop.ring.consumer <;>
        first | exact absurd consumer (by assumption) | simp [EventRing.Consumer.left]
    obtain ⟨ring, moved⟩ := EventRing.consume_continues working
    exact ⟨_, by rw [moved]; rfl⟩

/-- However CPU0 interleaves, CPU1 is never more than 1690 of its steps from the next frame,
but for the steps in which it waits for the frame's time or for room in the output; and it
can always take its next step until an output that stays full ends the loop. -/
theorem frames_progress {events : Nat → Event} {metrics : Metrics} {out : EventRing.Out}
    {host : σ} {labels : List (Label port)}
    (run : (machine port timing truncate).Runs Machine.anyStep
      (start port events metrics out host) labels loop) :
    (labels.map Label.turns).sum + loop.remaining ≤ 1690 * (loop.record.frames.length + 1) +
        (machine (D := D) port timing truncate).tally (Label.waits timing) labels
          (start port events metrics out host) ∧
      (loop.position ≠ .stalled → ∀ reading, ∃ next,
        step port timing truncate (.cpu1 reading) loop = some next) := by
  refine ⟨?_, fun going reading => cpu1_continues reading going⟩
  have counted := run.tally_le (fun _ : Loop F D σ => True) (fun label _ => label.turns)
    (Label.waits timing) remaining (fun loop => 1690 * loop.record.frames.length)
    (fun _ _ _ _ _ _ => trivial) (fun _ _ _ _ stepped _ => step_left stepped) trivial
  rw [run.tally_labels] at counted
  have first : (start port events metrics out host : Loop F D σ).remaining = 1689 := rfl
  have none : (start port events metrics out host : Loop F D σ).record.frames.length = 0 := rfl
  rw [first, none] at counted
  omega

set_option maxRecDepth 20000 in
/-- The first frame is made and written, and CPU1 waits twice for the time of the second. -/
theorem frames_progress_of_oneFrame : ∃ loop,
    sampleMachine.Runs Machine.anyStep sampleLoop (turns 20 60000000) loop ∧
    loop.record.frames.length = 1 ∧ 20 + loop.remaining ≤ 1690 * (1 + 1) + 2 ∧
    ∃ next, sampleMachine.step (.cpu1 ⟨60000000, 0⟩) loop = some next := by
  have executed : (sampleMachine.run Machine.anyStep (turns 20 60000000) sampleLoop).map
      (fun loop => (loop.record.frames.length, loop.position.left)) = some (1, 1675) := rfl
  have waited : sampleMachine.tally (Label.waits ⟨54000000⟩) (turns 20 60000000) sampleLoop =
      2 := rfl
  obtain ⟨loop, run, shown⟩ := Machine.runs_of_observed executed
  obtain ⟨frames, position⟩ := Prod.mk.inj shown
  obtain ⟨bound, goes⟩ := frames_progress run
  have turned : ((turns 20 60000000).map Label.turns).sum = 20 := rfl
  rw [turned, frames] at bound
  refine ⟨loop, run, frames, waited ▸ bound, goes ?_ ⟨60000000, 0⟩⟩
  intro stalled
  rw [stalled] at position
  cases position

end Loop

end Paulastorm.Poc
