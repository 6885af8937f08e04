import Paulastorm.Poc.Loop.Order

namespace Paulastorm.Poc

/-! A frame is rendered exactly when nothing that the loop can see is due.

The counter is read through a window of less than 2^63 ticks, in which the signed
comparison of two dates is their order.
-/

open Paulastorm.Core Mirror Probe
open Library (Machine)

/-- A date, counted from the start of the window. -/
def offset (origin tick : UInt64) : Nat := (tick - origin).toNat

def InWindow (origin tick : UInt64) : Prop := offset origin tick < 2 ^ 63

instance InWindow.decidable (origin tick : UInt64) : Decidable (InWindow origin tick) :=
  inferInstanceAs (Decidable (_ < _))

namespace ReplayClock

variable {origin now target : UInt64}

theorem due_iff_offset (here : InWindow origin now) (there : InWindow origin target) :
    due now target = true ↔ offset origin target ≤ offset origin now := by
  have difference : now - target = (now - origin) - (target - origin) := by
    simp only [UInt64.sub_eq_add_neg, UInt64.neg_add, UInt64.neg_neg]
    rw [UInt64.add_assoc, ← UInt64.add_assoc (-origin), UInt64.add_comm (-origin),
      UInt64.add_assoc, UInt64.add_left_neg, UInt64.add_zero]
  rw [due_iff, difference, UInt64.toNat_sub]
  simp only [InWindow, offset] at here there ⊢
  omega

/-- Inside the window the clock does not go back. -/
theorem offset_advance {clock : ReplayClock} (here : InWindow origin clock.tick) :
    offset origin clock.tick ≤ offset origin clock.advance.tick := by
  have grows : ∀ step : UInt64, step.toNat < 2 ^ 33 →
      offset origin clock.tick ≤ offset origin (clock.tick + step) := by
    intro step small
    have moved : clock.tick + step - origin = (clock.tick - origin) + step := by
      rw [UInt64.sub_eq_add_neg, UInt64.sub_eq_add_neg, UInt64.add_assoc, UInt64.add_assoc,
        UInt64.add_comm step]
    simp only [InWindow, offset] at here ⊢
    rw [moved, UInt64.toNat_add, Nat.mod_eq_of_lt (by omega)]
    exact Nat.le_add_right _ _
  have quotient : (clock.frequency / 48000).toUInt64.toNat < 2 ^ 32 := by
    rw [UInt32.toNat_toUInt64]
    exact UInt32.toNat_lt _
  unfold advance
  simp only
  split
  · have carried := grows ((clock.frequency / 48000).toUInt64 + 1) (by
      rw [UInt64.toNat_add, Nat.mod_eq_of_lt (by simp only [UInt64.reduceToNat]; omega)]
      simp only [UInt64.reduceToNat]
      omega)
    rwa [← UInt64.add_assoc] at carried
  · exact grows _ (by omega)

end ReplayClock

/-- The clock runs once the loop has started it. -/
def Position.running : Position → Bool
  | .enter | .started => false
  | _ => true

namespace Loop

variable {F D σ : Type} {port : Port σ} {timing : Timing}

/-- Every date of a run lies in the window, and captures are dated in their order. -/
def timely (origin : UInt64) (label : Label port) (loop : Loop F D σ) : Prop :=
  match label with
  | .produce ticks => InWindow origin ticks ∧
      ∀ event ∈ loop.ring.history.enqueued, offset origin event.ticks ≤ offset origin ticks
  | .cpu1 _ => loop.position.running = true → InWindow origin loop.clock.tick
  | _ => True

instance timely.decidable (origin : UInt64) (label : Label port) (loop : Loop F D σ) :
    Decidable (timely origin label loop) :=
  match label with
  | .produce ticks => inferInstanceAs (Decidable (InWindow origin ticks ∧ ∀ event ∈ _, _ ≤ _))
  | .cpu1 _ => inferInstanceAs (Decidable (_ = true → InWindow _ _))
  | .capture _ | .host _ => inferInstanceAs (Decidable True)

/-- An event that is dated after the enqueued ones, inside the window. -/
def Latest (origin : UInt64) (enqueued : List Event) (event : Event) : Prop :=
  InWindow origin event.ticks ∧
    ∀ earlier ∈ enqueued, offset origin earlier.ticks ≤ offset origin event.ticks

/-- What the loop has seen, and what it made of it. -/
structure Timed (origin : UInt64) (loop : Loop F D σ) : Prop where
  sorted : loop.ring.history.enqueued.Pairwise fun first second =>
    offset origin first.ticks ≤ offset origin second.ticks
  window : ∀ event ∈ loop.ring.history.enqueued, InWindow origin event.ticks
  stamped : ∀ event, (∃ call tail field, loop.ring.producer = .fill call tail event field) →
    Latest origin loop.ring.history.enqueued event
  visible : loop.record.visible.Sublist loop.ring.history.enqueued
  backlog : ∀ backlog, loop.position = .output backlog → loop.recoveryPending = false →
    (backlog = false ↔ ∀ event ∈ loop.record.visible,
      ReplayClock.due loop.clock.tick event.ticks = false)
  frames : ∀ frame ∈ loop.record.frames, frame.silent = false ↔
    frame.recovering = false ∧
      ∀ event ∈ frame.visible, ReplayClock.due frame.tick event.ticks = false

variable {origin : UInt64} {loop next : Loop F D σ} {label : Label port}

/-- A step that leaves the ring's events, the decisions and the frames. -/
theorem Timed.same (timed : Timed origin loop) (producer : next.ring.producer = loop.ring.producer)
    (enqueued : next.ring.history.enqueued = loop.ring.history.enqueued)
    (visible : next.record.visible = loop.record.visible)
    (frames : next.record.frames = loop.record.frames)
    (backlog : ∀ backlog, next.position = .output backlog → next.recoveryPending = false →
      (backlog = false ↔ ∀ event ∈ loop.record.visible,
        ReplayClock.due next.clock.tick event.ticks = false)) : Timed origin next where
  sorted := enqueued ▸ timed.sorted
  window := enqueued ▸ timed.window
  stamped := by
    rw [producer, enqueued]
    exact timed.stamped
  visible := by
    rw [visible, enqueued]
    exact timed.visible
  backlog := by
    rw [visible]
    exact backlog
  frames := frames ▸ timed.frames

/-- The first of the events in sight is due if any of them is. -/
theorem due_of_front (timed : Timed origin loop) (now : InWindow origin loop.clock.tick)
    {front : Event} (first : loop.record.visible.head? = some front) :
    ReplayClock.due loop.clock.tick front.ticks = false ↔
      ∀ event ∈ loop.record.visible, ReplayClock.due loop.clock.tick event.ticks = false := by
  obtain ⟨rest, visible⟩ := List.head?_eq_some_iff.mp first
  have window : ∀ event ∈ loop.record.visible, InWindow origin event.ticks :=
    fun event member => timed.window event (timed.visible.mem member)
  have sorted := timed.sorted.sublist timed.visible
  rw [visible] at window sorted ⊢
  constructor
  · intro early event member
    rcases List.mem_cons.mp member with rfl | later
    · exact early
    · have behind := (List.pairwise_cons.mp sorted).1 event later
      rw [← Bool.not_eq_true, ReplayClock.due_iff_offset now (window _ List.mem_cons_self)] at early
      rw [← Bool.not_eq_true, ReplayClock.due_iff_offset now (window _ member)]
      omega
  · exact fun none => none front List.mem_cons_self

/-- The last peek before a frame decides whether there is a backlog. -/
theorem decide_backlog (sound : Sound loop) (timed : Timed origin loop)
    (here : loop.position = .checked) (idle : loop.ring.consumer = .idle)
    (now : InWindow origin loop.clock.tick) :
    (loop.ring.out.found && ReplayClock.due loop.clock.tick loop.ring.out.event.ticks) = false ↔
      ∀ event ∈ loop.record.visible, ReplayClock.due loop.clock.tick event.ticks = false := by
  have looked := sound.looked (by rw [here]; rfl)
  rw [idle, Looked] at looked
  cases found : loop.ring.out.found with
  | false =>
      rw [found, if_neg (by decide)] at looked
      simp [looked]
  | true =>
      rw [found, if_pos rfl] at looked
      rw [Bool.true_and]
      exact due_of_front timed now looked.1

theorem capture_timed {call : Mirror.Call} {ring : EventRing.State} (timed : Timed origin loop)
    (entered : EventRing.capture call loop.ring = some ring) :
    Timed origin { loop with ring := ring } := by
  obtain ⟨kept, log⟩ := EventRing.capture_kept entered
  have enqueued : ring.history.enqueued = loop.ring.history.enqueued := by
    rw [EventRing.History.enqueued, log]
    rfl
  have unfilled : ∀ event, (∃ call tail field, ring.producer = .fill call tail event field) →
      ∃ call tail field, loop.ring.producer = .fill call tail event field := by
    rintro event ⟨call, tail, field, filling⟩
    simp only [EventRing.capture] at entered
    split at entered
    · split at entered <;> cases entered
      · cases filling
      · exact ⟨call, tail, field, filling⟩
    · cases entered
  exact ⟨enqueued ▸ timed.sorted, enqueued ▸ timed.window,
    fun event filling => enqueued ▸ timed.stamped event (unfilled event filling),
    enqueued ▸ timed.visible, timed.backlog, timed.frames⟩

/-- The producer fills a slot with an event of the counter's last value. -/
theorem produce_fills {ticks : UInt64} {state after : EventRing.State}
    (moved : EventRing.produce ticks state = some after) {event : Event}
    (filling : ∃ call tail field, after.producer = .fill call tail event field) :
    (∃ call : Mirror.Call, event = call.event ticks ∧ after.history = state.history) ∨
      (after.history = state.history ∧
        ∃ call tail field, state.producer = .fill call tail event field) := by
  obtain ⟨shared, producer, consumer, out, history⟩ := state
  obtain ⟨call, tail, field, filling⟩ := filling
  cases producer <;> simp only [EventRing.produce, reduceCtorEq] at moved
  case test current seen =>
    split at moved
    · cases moved
      cases filling
    · cases moved
      cases filling
      exact .inl ⟨_, rfl, rfl⟩
  case fill current seen stored count =>
    split at moved
    · cases moved
      cases filling
      exact .inr ⟨rfl, _, _, _, rfl⟩
    · cases moved
      cases filling
  case exchange => split at moved <;> cases moved <;> cases filling
  all_goals
    cases moved
    cases filling

theorem produce_timed {ticks : UInt64} {ring : EventRing.State} (timed : Timed origin loop)
    (permitted : timely origin (.produce ticks : Label port) loop)
    (moved : EventRing.produce ticks loop.ring = some ring) :
    Timed origin { loop with ring := ring } := by
  have grown := EventRing.produce_enqueued moved
  have latest : ∀ event ∈ loop.ring.producer.enqueues.toList,
      Latest origin loop.ring.history.enqueued event := by
    intro event member
    cases producer : loop.ring.producer with
    | fill call tail stored field =>
        rw [producer] at member
        simp only [EventRing.Producer.enqueues] at member
        split at member
        · simp at member
        · rw [Option.toList_some, List.mem_singleton] at member
          exact timed.stamped event ⟨call, tail, field, member ▸ producer⟩
    | _ => simp [producer, EventRing.Producer.enqueues] at member
  refine ⟨?_, ?_, ?_, ?_, timed.backlog, timed.frames⟩
  · change ring.history.enqueued.Pairwise _
    rw [grown]
    refine List.pairwise_append.mpr ⟨timed.sorted, ?_, fun event member last new =>
      (latest last new).2 event member⟩
    cases loop.ring.producer.enqueues with
    | none => exact .nil
    | some event => exact List.pairwise_singleton _ _
  · change ∀ event ∈ ring.history.enqueued, _
    rw [grown]
    intro event member
    rcases List.mem_append.mp member with old | new
    · exact timed.window event old
    · exact (latest event new).1
  · intro event filling
    change Latest origin ring.history.enqueued event
    rcases produce_fills moved filling with ⟨call, rfl, history⟩ | ⟨history, before⟩ <;> rw [history]
    · exact permitted
    · exact timed.stamped event before
  · change List.Sublist _ ring.history.enqueued
    rw [grown]
    exact timed.visible.trans (List.sublist_append_left _ _)

theorem served_timed {ring : EventRing.State} (sound : Sound loop) (timed : Timed origin loop)
    (moved : EventRing.consume loop.ring = some ring) : Timed origin (loop.served ring) := by
  have kept := EventRing.consume_kept moved
  have enqueued := kept.enqueued
  refine ⟨?_, ?_, ?_, ?_, ?_, timed.frames⟩
  · exact (enqueued ▸ timed.sorted : ring.history.enqueued.Pairwise _)
  · exact (enqueued ▸ timed.window : ∀ event ∈ ring.history.enqueued, _)
  · intro event filling
    change Latest origin ring.history.enqueued event
    rw [enqueued]
    exact timed.stamped event (kept.producer ▸ filling)
  · change List.Sublist _ ring.history.enqueued
    rw [enqueued]
    simp only [served]
    split
    · exact List.drop_sublist _ _
    · exact timed.visible
  · intro backlog (here : loop.position = .output backlog) pending
    have idle : loop.ring.consumer ≠ .peek := by
      intro peek
      rcases sound.staged with idle | staged
      · rw [peek] at idle
        cases idle
      · rw [peek, here] at staged
        cases staged
    have visible : (loop.served ring).record.visible = loop.record.visible := by
      simp only [served]
    rw [visible]
    exact timed.backlog backlog here pending

variable [Floating F] [Floating D]

theorem Move.timed (sound : Sound loop) (timed : Timed origin loop)
    (idle : loop.ring.consumer = .idle)
    (now : loop.position.running = true → InWindow origin loop.clock.tick)
    (move : Move port timing loop next) : Timed origin next := by
  cases move with
  | retry here =>
      refine timed.same rfl rfl rfl rfl ?_
      intro backlog _ clear
      rw [sound.pending true (by rw [here]; rfl)] at clear
      cases clear
  | decide here =>
      refine timed.same rfl rfl rfl rfl ?_
      intro backlog output _
      cases output
      exact decide_backlog sound timed here idle (now (by rw [here]; rfl))
  | emit backlog left right _ here =>
      refine ⟨timed.sorted, timed.window, timed.stamped, timed.visible,
        fun _ output => (by cases output), ?_⟩
      intro frame member
      rcases List.mem_append.mp member with old | new
      · exact timed.frames frame old
      · rw [List.mem_singleton.mp new, Bool.or_eq_false_iff]
        exact and_congr_right fun clear => timed.backlog backlog here clear
  | early | full => exact timed
  | _ => exact timed.same rfl rfl rfl rfl fun _ output => by cases output

theorem Turn.timed (sound : Sound loop) (timed : Timed origin loop)
    (permitted : timely origin label loop) (turn : Turn port timing loop label next) :
    Timed origin next := by
  cases turn with
  | captured entered => exact capture_timed timed entered
  | produced moved => exact produce_timed timed permitted moved
  | host => exact timed.same rfl rfl rfl rfl timed.backlog
  | served _ moved => exact served_timed sound timed moved
  | moved _ idle move => exact move.timed sound timed idle permitted

theorem start_timed (port : Port σ) (events : Nat → Event) (metrics : Metrics)
    (out : EventRing.Out) (host : σ) :
    Timed origin (start port events metrics out host : Loop F D σ) := by
  constructor <;> simp [start, EventRing.start, EventRing.History.empty,
    EventRing.History.enqueued]

end Loop

end Paulastorm.Poc
