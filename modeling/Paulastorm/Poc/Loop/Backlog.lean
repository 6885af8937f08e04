import Paulastorm.Poc.Loop.Counters
import Paulastorm.Poc.Loop.Timely

namespace Paulastorm.Poc

/-! A backlog is worked off at 128 events a frame, and the order and the time at which
events are applied. -/

open Paulastorm.Core Mirror Probe
open Library (Machine)

/-- The events that a position stands for, of the 128 of its frame. -/
def Position.share : Position → Nat
  | .drain processed | .peeked processed => processed
  | .checked | .output _ | .fifo _ _ _ _ | .written | .stalled => 128
  | _ => 0

/-- The frame under way has been made. -/
def Position.made : Position → Nat
  | .fifo _ _ _ _ | .written | .stalled => 1
  | _ => 0

namespace Loop

variable {F D σ : Type} {port : Port σ} {timing : Timing}

/-- How far a backlog of `count` events, found at `first`, has been worked off after
`ticked` frames. -/
structure Draining (origin : UInt64) (count : Nat) (first : Loop F D σ) (ticked : Nat)
    (loop : Loop F D σ) : Prop where
  started : loop.position.running = true
  frames : loop.record.frames.length =
    first.record.frames.length + ticked + loop.position.made
  clock : loop.clock = ReplayClock.advance^[ticked] first.clock
  later : offset origin first.clock.tick ≤ offset origin loop.clock.tick
  enqueued : first.ring.history.enqueued <+: loop.ring.history.enqueued
  cuts : loop.ring.history.cuts = first.ring.history.cuts
  handled : first.ring.history.retired.length + min count (128 * ticked + loop.position.share) ≤
    loop.ring.history.retired.length + claims loop.ring.consumer
  exhausted : loop.position.operation = .peek → loop.ring.consumer = .idle →
    loop.ring.out.found = false →
      first.ring.history.retired.length + count ≤ loop.ring.history.retired.length

/-- A backlog: its events are unread, inside the window, and due. -/
structure Backlogged (origin : UInt64) (count : Nat) (first : Loop F D σ) : Prop where
  unread : count ≤ first.ring.history.unread.length
  now : InWindow origin first.clock.tick
  due : ∀ event ∈ first.ring.history.unread.take count,
    ReplayClock.due first.clock.tick event.ticks = true

variable {origin : UInt64} {count ticked : Nat} {first loop next : Loop F D σ}
  {label : Label port}

/-- The event at the front belongs to the backlog, so it is due. -/
theorem front_due (backlogged : Backlogged origin count first) (timed : Timed origin first)
    (draining : Draining origin count first ticked loop) (now : InWindow origin loop.clock.tick)
    (idle : loop.ring.consumer = .idle)
    (unfinished : loop.ring.history.retired.length <
      first.ring.history.retired.length + count) {event : Event}
    (front : loop.ring.history.unread.head? = some event) :
    ReplayClock.due loop.clock.tick event.ticks = true := by
  have bound := backlogged.unread
  have handled := draining.handled
  have unclaimed : claims loop.ring.consumer = 0 := by rw [idle]; rfl
  rw [EventRing.History.head_unread] at front
  have position : loop.ring.history.retired.length =
      first.ring.history.retired.length +
        (loop.ring.history.retired.length - first.ring.history.retired.length) := by omega
  rw [EventRing.History.unread, List.length_drop] at bound
  obtain ⟨more, grown⟩ := draining.enqueued
  rw [← grown, List.getElem?_append_left (by omega)] at front
  have member : event ∈ first.ring.history.unread.take count := by
    refine List.mem_of_getElem? (i :=
      loop.ring.history.retired.length - first.ring.history.retired.length) ?_
    rw [List.getElem?_take_of_lt (by omega), EventRing.History.unread, List.getElem?_drop,
      ← position, front]
  have window := timed.window event (List.mem_of_mem_drop (List.mem_of_mem_take member))
  have before := (ReplayClock.due_iff_offset backlogged.now window).mp (backlogged.due event member)
  exact (ReplayClock.due_iff_offset now window).mpr (Nat.le_trans before draining.later)

/-- A step that leaves the ring's retirements, or claims another one. -/
theorem Draining.same (draining : Draining origin count first ticked loop)
    (running : next.position.running = true)
    (frames : next.record.frames.length + loop.position.made =
      loop.record.frames.length + next.position.made)
    (clock : next.clock = loop.clock) (history : next.ring.history = loop.ring.history)
    (share : min count (128 * ticked + next.position.share) + claims loop.ring.consumer ≤
      min count (128 * ticked + loop.position.share) + claims next.ring.consumer)
    (exhausted : next.position.operation = .peek → next.ring.consumer ≠ .idle) :
    Draining origin count first ticked next where
  started := running
  frames := by
    have before := draining.frames
    omega
  clock := clock.trans draining.clock
  later := clock ▸ draining.later
  enqueued := history ▸ draining.enqueued
  cuts := by
    rw [history]
    exact draining.cuts
  handled := by
    have before := draining.handled
    rw [history]
    omega
  exhausted peek idle := absurd idle (exhausted peek)

theorem kept_draining {ring : EventRing.State} {more : List Event}
    (draining : Draining origin count first ticked loop)
    (kept : EventRing.ConsumerKept loop.ring ring)
    (grown : ring.history.enqueued = loop.ring.history.enqueued ++ more) :
    Draining origin count first ticked { loop with ring := ring } where
  started := draining.started
  frames := draining.frames
  clock := draining.clock
  later := draining.later
  enqueued := by
    rw [grown]
    exact draining.enqueued.trans (List.prefix_append _ _)
  cuts := kept.cuts.trans draining.cuts
  handled := by
    rw [kept.retired, kept.consumer]
    exact draining.handled
  exhausted := by
    rw [kept.consumer, kept.out, kept.retired]
    exact draining.exhausted

/-- Without a recovery pending, no operation on the ring is a snapshot. -/
theorem no_snapshot (sound : Sound loop) (clear : loop.recoveryPending = false) :
    loop.ring.consumer.operation ≠ .snapshot := by
  intro snapshot
  have recovered : loop.position ≠ .recovered := by
    intro here
    have pending := sound.pending true (by rw [here]; rfl)
    rw [clear] at pending
    cases pending
  rcases sound.staged with idle | staged
  · rw [idle] at snapshot
    cases snapshot
  · rw [snapshot] at staged
    cases position : loop.position <;> rw [position] at staged <;>
      first | exact recovered position | cases staged

theorem served_draining {ring : EventRing.State} (sound : Sound loop) (ordered : Ordered loop)
    (clear : loop.recoveryPending = false) (first_sound : Sound first)
    (backlogged : Backlogged origin count first)
    (draining : Draining origin count first ticked loop)
    (moved : EventRing.consume loop.ring = some ring) :
    Draining origin count first ticked (loop.served ring) where
  started := draining.started
  frames := draining.frames
  clock := draining.clock
  later := draining.later
  enqueued := (EventRing.consume_kept moved).enqueued ▸ draining.enqueued
  cuts := (EventRing.consume_cuts moved (no_snapshot sound clear)).trans draining.cuts
  handled := Nat.le_trans draining.handled (served_claims sound ordered moved)
  exhausted (peek : loop.position.operation = .peek) finished (missing : ring.out.found = false) := by
    change first.ring.history.retired.length + count ≤ ring.history.retired.length
    have staged := sound.staged
    rw [peek] at staged
    cases consumer : loop.ring.consumer <;> rw [consumer] at staged <;>
      simp only [EventRing.consume, consumer, reduceCtorEq] at moved
    case peek =>
      split at moved
      next empty =>
        cases moved
        have none := sound.ring.ring.head_eq_tail_iff.mp empty.symm
        have total := sound.ring.history.unread_length
        have before := first_sound.ring.history.unread_length
        have more := draining.enqueued.length_le
        have unread := backlogged.unread
        rw [none, List.length_nil] at total
        change _ ≤ loop.ring.history.retired.length
        omega
      next =>
        cases moved
        cases finished
    case copy field =>
      split at moved <;> cases moved
      · cases finished
      · cases missing
    all_goals
      rcases staged with idle | other
      · cases idle
      · cases other

/-- An event of the backlog that is still there keeps the drain loop going. -/
theorem drained_handled (sound : Sound loop) (timed : Timed origin first)
    (backlogged : Backlogged origin count first)
    (draining : Draining origin count first ticked loop) (idle : loop.ring.consumer = .idle)
    {processed : Nat} (here : loop.position = .peeked processed)
    (now : InWindow origin loop.clock.tick)
    (drained : ¬ (loop.ring.out.found = true ∧
      ReplayClock.due loop.clock.tick loop.ring.out.event.ticks = true)) :
    first.ring.history.retired.length + count ≤ loop.ring.history.retired.length := by
  have peek : loop.position.operation = .peek := by rw [here]; rfl
  cases found : loop.ring.out.found with
  | false => exact draining.exhausted peek idle found
  | true =>
      by_contra unfinished
      have looked := sound.looked peek
      rw [idle, Looked, if_pos found] at looked
      have front := sound.ring.history.peeked _ looked.2
      exact drained ⟨found, front_due backlogged timed draining now idle (by omega) front⟩

/-- At the top of the loop a backlog has not been touched. -/
theorem top_draining (top : loop.position = .top) :
    Draining origin count loop 0 loop where
  started := by rw [top]; rfl
  frames := by rw [top]; rfl
  clock := rfl
  later := Nat.le_refl _
  enqueued := List.prefix_refl _
  cuts := rfl
  handled := by
    rw [top]
    change _ + min count 0 ≤ _
    omega
  exhausted peek := by
    rw [top] at peek
    cases peek

/-- What holds of the ring and of the record in every state of a timely run. -/
structure Consistent (origin : UInt64) (loop : Loop F D σ) : Prop where
  sound : Sound loop
  ordered : Ordered loop
  bounded : Bounded loop
  timed : Timed origin loop

/-- What a run of the replay loop has done with the events of the ring. -/
structure Replayed (loop : Loop F D σ) : Prop where
  due : ∀ entry ∈ loop.record.applied, ReplayClock.due entry.tick entry.event.ticks = true
  /-- In capture order, and none twice. -/
  order : loop.record.applied.Pairwise fun first second => first.number < second.number
  captured : ∀ entry ∈ loop.record.applied,
    loop.ring.history.enqueued[entry.number]? = some entry.event
  undiscarded : ∀ entry ∈ loop.record.applied, ∀ cut ∈ loop.ring.history.cuts,
    ¬ (cut.first ≤ entry.number ∧ entry.number < cut.last)
  /-- A frame is rendered unless a recovery is pending or a visible event is due. -/
  rendered : ∀ frame ∈ loop.record.frames, frame.silent = false ↔ frame.recovering = false ∧
    ∀ event ∈ frame.visible, ReplayClock.due frame.tick event.ticks = false
  bounded : ∀ frame, loop.record.inFrame frame ≤ 128

theorem Consistent.replayed (consistent : Consistent origin loop) : Replayed loop := by
  obtain ⟨sound, ordered, bounded, timed⟩ := consistent
  have valid := sound.ring.history
  have place : ∀ entry ∈ loop.record.applied,
      entry.number < loop.ring.history.retired.length ∨
        entry.number = loop.ring.history.retired.length := by
    intro entry member
    have below := ordered.below entry member
    have one : claims loop.ring.consumer ≤ 1 := by
      cases loop.ring.consumer <;> simp [claims]
    omega
  refine ⟨ordered.due, ordered.increasing, fun entry member => ?_, fun entry member cut cutMember
    inside => ?_, timed.frames, bounded.each⟩
  · rcases place entry member with earlier | last
    · exact valid.popped _ _ (ordered.popped entry member earlier)
    · have front := valid.peeked _ (ordered.front entry member last)
      rwa [EventRing.History.head_unread, ← last] at front
  · have retired := valid.cutRetired cut cutMember
    have popped := ordered.popped entry member (by omega)
    obtain ⟨number, found⟩ := List.mem_iff_getElem?.mp cutMember
    have skipped := (valid.skipped entry.number number).mpr ⟨cut, found, inside⟩
    rw [popped] at skipped
    cases skipped

/-- Without a cut every retired event was applied. -/
theorem applied_of_retired (sound : Sound loop) (ordered : Ordered loop)
    (cuts : loop.ring.history.cuts = first.ring.history.cuts)
    (valid : first.ring.history.Valid) {number : Nat}
    (after : first.ring.history.retired.length ≤ number)
    (retired : number < loop.ring.history.retired.length) :
    ∃ entry ∈ loop.record.applied, entry.number = number := by
  obtain ⟨retirement, found⟩ : ∃ retirement,
      loop.ring.history.retired[number]? = some retirement :=
    ⟨_, List.getElem?_eq_getElem retired⟩
  cases retirement with
  | popped copy => exact ordered.every number copy found
  | skipped index =>
      obtain ⟨cut, member, _, below⟩ := (sound.ring.history.skipped number index).mp found
      rw [cuts] at member
      have before := valid.cutRetired cut (List.mem_of_getElem? member)
      omega

variable [Floating F] [Floating D]

theorem Move.draining (sound : Sound loop) (timed : Timed origin first)
    (backlogged : Backlogged origin count first)
    (draining : Draining origin count first ticked loop) (idle : loop.ring.consumer = .idle)
    (clear : loop.recoveryPending = false) (now : InWindow origin loop.clock.tick)
    (move : Move port timing loop next) (still : next.recoveryPending = false) :
    ∃ ticked, Draining origin count first ticked next := by
  have unclaimed : claims loop.ring.consumer = 0 := by rw [idle]; rfl
  have running := draining.started
  cases move with
  | enter here | start _ here =>
      rw [here] at running
      cases running
  | lost | behind => cases still
  | restore _ here | retry here =>
      have pending := sound.pending true (by rw [here]; rfl)
      rw [clear] at pending
      cases pending
  | early | full => exact ⟨ticked, draining⟩
  | adopt _ here | intact _ here | pass _ here | paced here | decide here | left _ _ _ _ here
  | right _ _ _ here | stall _ _ _ _ here =>
      refine ⟨ticked, draining.same rfl ?_ rfl rfl ?_ fun peek => by cases peek⟩
      · rw [here]
        rfl
      · rw [here]
        exact Nat.le_refl _
  | look processed here =>
      refine ⟨ticked, draining.same rfl ?_ rfl rfl ?_ fun _ finished => by cases finished⟩
      · rw [here]
        rfl
      · rw [here, unclaimed]
        exact Nat.le_refl _
  | enough processed here enough =>
      refine ⟨ticked, draining.same rfl ?_ rfl rfl ?_ fun _ finished => by cases finished⟩
      · rw [here]
        rfl
      · rw [here, unclaimed]
        simp only [Position.share]
        omega
  | drained processed here drained =>
      have handled := drained_handled sound timed backlogged draining idle here now drained
      refine ⟨ticked, ?_, ?_, draining.clock, draining.later, draining.enqueued, draining.cuts, ?_,
        fun _ finished => by cases finished⟩
      · rfl
      · have frames := draining.frames
        rwa [here] at frames
      · change _ ≤ loop.ring.history.retired.length + 0
        omega
  | apply processed here =>
      refine ⟨ticked, draining.same rfl ?_ rfl rfl ?_ fun peek => by cases peek⟩
      · rw [here]
        rfl
      · rw [here, unclaimed]
        change min count (128 * ticked + (processed + 1)) + 0 ≤
          min count (128 * ticked + processed) + 1
        omega
  | emit _ _ _ _ here =>
      refine ⟨ticked, draining.same rfl ?_ rfl rfl ?_ fun peek => by cases peek⟩
      · rw [here, List.length_append]
        rfl
      · rw [here]
        exact Nat.le_refl _
  | advance _ here =>
      have frames := draining.frames
      have handled := draining.handled
      rw [here] at frames handled
      refine ⟨ticked + 1, rfl, ?_, ?_, ?_, draining.enqueued, draining.cuts, ?_,
        fun peek => by cases peek⟩
      · change loop.record.frames.length = first.record.frames.length + ticked + 1 at frames
        change loop.record.frames.length = first.record.frames.length + (ticked + 1)
        omega
      · rw [Function.iterate_succ_apply', ← draining.clock]
      · exact Nat.le_trans draining.later (ReplayClock.offset_advance now)
      · exact handled

theorem Turn.draining (sound : Sound loop) (ordered : Ordered loop) (firstSound : Sound first)
    (timed : Timed origin first) (backlogged : Backlogged origin count first)
    (draining : Draining origin count first ticked loop) (clear : loop.recoveryPending = false)
    (permitted : timely origin label loop) (turn : Turn port timing loop label next)
    (still : next.recoveryPending = false) : ∃ ticked, Draining origin count first ticked next := by
  cases turn with
  | @captured call ring entered =>
      obtain ⟨kept, log⟩ := EventRing.capture_kept entered
      have grown : ring.history.enqueued = loop.ring.history.enqueued ++ [] := by
        rw [List.append_nil, EventRing.History.enqueued, log]
        rfl
      exact ⟨ticked, kept_draining draining kept grown⟩
  | produced moved =>
      exact ⟨ticked, kept_draining draining (EventRing.produce_kept moved)
        (EventRing.produce_enqueued moved)⟩
  | host =>
      exact ⟨ticked, draining.started, draining.frames, draining.clock, draining.later,
        draining.enqueued, draining.cuts, draining.handled, draining.exhausted⟩
  | served _ moved =>
      exact ⟨ticked, served_draining sound ordered clear firstSound backlogged draining moved⟩
  | moved _ idle move =>
      exact move.draining sound timed backlogged draining idle clear (permitted draining.started)
        still

theorem Turn.consistent (consistent : Consistent origin loop)
    (permitted : timely origin label loop) (turn : Turn port timing loop label next) :
    Consistent origin next where
  sound := turn.sound consistent.sound
  ordered := turn.ordered consistent.sound consistent.ordered
  bounded := turn.bounded consistent.bounded
  timed := turn.timed consistent.sound consistent.timed permitted

/-- The loop's steps while no recovery is pending. -/
def undisturbed (origin : UInt64) (label : Label port) (loop : Loop F D σ) : Prop :=
  timely origin label loop ∧ loop.recoveryPending = false

instance undisturbed.decidable (origin : UInt64) (label : Label port) (loop : Loop F D σ) :
    Decidable (undisturbed origin label loop) := inferInstanceAs (Decidable (_ ∧ _))

theorem start_consistent (port : Port σ) (events : Nat → Event) (metrics : Metrics)
    (out : EventRing.Out) (host : σ) :
    Consistent origin (start port events metrics out host : Loop F D σ) where
  sound := start_sound port events metrics out host
  ordered := start_ordered port events metrics out host
  bounded := start_bounded port events metrics out host
  timed := start_timed port events metrics out host

variable [Arith F D] {truncate : F → Int32} {labels : List (Label port)}

theorem run_consistent (run : (machine port timing truncate).Runs (timely origin) loop labels next)
    (consistent : Consistent origin loop) : Consistent origin next :=
  run.invariant
    (fun _ _ _ permitted stepped consistent => (step_turn stepped).consistent consistent permitted)
    consistent

theorem run_draining (consistent : Consistent origin first) (top : first.position = .top)
    (backlogged : Backlogged origin count first)
    (run : (machine port timing truncate).Runs (undisturbed origin) first labels next)
    (clear : next.recoveryPending = false) :
    Consistent origin next ∧ ∃ ticked, Draining origin count first ticked next := by
  let kept : Loop F D σ → Prop := fun loop => Consistent origin loop ∧
    (loop.recoveryPending = false → ∃ ticked, Draining origin count first ticked loop)
  have both : kept next := by
    refine run.invariant (motive := kept) ?_ ⟨consistent, fun _ => ⟨0, top_draining top⟩⟩
    rintro label before after ⟨permitted, pending⟩ stepped ⟨held, draining⟩
    have turn := step_turn stepped
    refine ⟨turn.consistent held permitted, fun still => ?_⟩
    obtain ⟨ticked, draining⟩ := draining pending
    exact turn.draining held.sound held.ordered consistent.sound consistent.timed backlogged
      draining pending permitted still
  exact ⟨both.1, both.2 clear⟩

/-- Over every timely run events are applied when they are due, in capture order and at most
128 a frame, a frame is silent exactly when it has to be, and a backlog that no recovery
cuts short is applied within as many frames as it has times 128 events. -/
theorem replay_ordered_and_timely (owns : port.Owns fun word => word ∉ sharedWords)
    {events : Nat → Event} {metrics : Metrics} {out : EventRing.Out} {host : σ}
    (run : (machine port timing truncate).Runs (timely origin)
      (start port events metrics out host) labels loop) :
    Replayed loop ∧
    loop.counter port ppReplaySilentFrames =
      (start port events metrics out host : Loop F D σ).counter port ppReplaySilentFrames +
        UInt32.ofNat (loop.record.frames.countP (·.silent)) ∧
    loop.counter port ppRenderFrames =
      (start port events metrics out host : Loop F D σ).counter port ppRenderFrames +
        UInt32.ofNat (loop.record.frames.countP (!·.silent)) ∧
    ∀ (count : Nat) (labels' : List (Label port)) (later : Loop F D σ),
      loop.position = .top → Backlogged origin count loop →
      (machine port timing truncate).Runs (undisturbed origin) loop labels' later →
      later.position = .top → later.recoveryPending = false →
      ∃ frames, later.record.frames.length = loop.record.frames.length + frames ∧
        later.clock = ReplayClock.advance^[frames] loop.clock ∧
        (count ≤ 128 * frames → ∀ index < count, ∃ entry ∈ later.record.applied,
          entry.number = loop.ring.history.retired.length + index) := by
  have consistent := run_consistent run (start_consistent port events metrics out host)
  have counted := run_counted owns run (start_sound port events metrics out host)
    (start_counted port events metrics out host)
  refine ⟨consistent.replayed, counted.silent, counted.rendered, ?_⟩
  · intro count labels' later top backlogged continued finished clear
    obtain ⟨after, ticked, draining⟩ := run_draining consistent top backlogged continued clear
    refine ⟨ticked, ?_, draining.clock, fun enough index inside => ?_⟩
    · have frames := draining.frames
      rwa [finished] at frames
    · have idle : claims later.ring.consumer = 0 := by
        have staged := after.sound.staged
        rw [finished] at staged
        cases consumer : later.ring.consumer <;> first | rfl | simp [consumer, Position.operation,
          EventRing.Consumer.operation] at staged
      have handled := draining.handled
      refine applied_of_retired after.sound after.ordered draining.cuts consistent.sound.ring.history
        (Nat.le_add_right _ _) ?_
      omega

/-- Two writes are captured before the clock starts, so they are due from the first frame on. -/
def twoDue : List (Label samplePort) :=
  .capture ⟨0xdff0a8, 64, 2⟩ :: List.replicate 14 (.produce 57000000) ++
    .capture ⟨0xdff0b8, 32, 2⟩ :: List.replicate 14 (.produce 57000000) ++ turns 2 60000000

/-- The loop with two events to apply, and one frame later. -/
def loaded : Loop ℚ ℚ Metrics := (sampleMachine.run (timely 0) twoDue sampleLoop).getD sampleLoop

def unloaded : Loop ℚ ℚ Metrics :=
  (sampleMachine.run (undisturbed 0) (turns 39 60000000) loaded).getD loaded

set_option maxRecDepth 20000 in
theorem loaded_runs : sampleMachine.Runs (timely 0) sampleLoop twoDue loaded :=
  Machine.runs_getD _ _ rfl

set_option maxRecDepth 20000 in
theorem unloaded_runs :
    sampleMachine.Runs (undisturbed 0) loaded (turns 39 60000000) unloaded :=
  Machine.runs_getD _ _ rfl

set_option maxRecDepth 20000 in
theorem loaded_backlogged : Backlogged 0 2 loaded where
  unread := by decide
  now := by decide
  due := by decide

set_option maxRecDepth 20000 in
/-- Both are applied for the frame, in the order in which they were captured. -/
theorem replay_ordered_and_timely_of_twoDue : Replayed loaded ∧ Replayed unloaded ∧
    unloaded.record.frames.length = 1 ∧
    (unloaded.record.applied.map fun entry => (entry.number, entry.event.value)) =
      [(0, 64), (1, 32)] ∧
    ∀ index < 2, ∃ entry ∈ unloaded.record.applied, entry.number = index := by
  obtain ⟨replayed, _, _, drains⟩ :=
    replay_ordered_and_timely (idealPort_owns_shared fun _ => 0) loaded_runs
  have whole := loaded_runs.append (unloaded_runs.weaken fun _ _ allowed => allowed.1)
  have later := replay_ordered_and_timely (idealPort_owns_shared fun _ => 0) whole
  obtain ⟨frames, made, _, applied⟩ :=
    drains 2 _ unloaded rfl loaded_backlogged unloaded_runs rfl rfl
  have one : unloaded.record.frames.length = 1 := by rfl
  have before : loaded.record.frames.length = 0 := by rfl
  have start : loaded.ring.history.retired.length = 0 := by rfl
  refine ⟨replayed, later.1, one, by rfl, fun index inside => ?_⟩
  obtain ⟨entry, member, number⟩ := applied (by omega) index inside
  exact ⟨entry, member, by omega⟩

end Loop

end Paulastorm.Poc
