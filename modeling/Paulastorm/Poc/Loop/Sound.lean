import Paulastorm.Poc.Loop.Turns

namespace Paulastorm.Poc

/-! What holds of the ring and of the last peek in every state of the replay loop. -/

open Paulastorm.Core Mirror Probe
open Library (Machine)

/-- The operation on the ring that a position waits for. -/
def Position.operation : Position → EventRing.Operation
  | .recovered => .snapshot
  | .drain _ => .pop
  | .peeked _ | .checked => .peek
  | _ => .none

/-- Whether a recovery is pending, where the position decides it. -/
def Position.pending? : Position → Option Bool
  | .recovered => some true
  | .wait | .drain _ | .peeked _ | .checked => some false
  | _ => none

namespace Loop

variable {F D σ : Type} {port : Port σ} {timing : Timing}

/-- What a peek has found out: nothing was visible, or the event at the front was. -/
def Looked (loop : Loop F D σ) : EventRing.Consumer → Prop
  | .idle =>
      if loop.ring.out.found then
        loop.record.visible.head? = some loop.ring.out.event ∧
          loop.ring.history.peeked = some loop.ring.out.event
      else loop.record.visible = []
  | .copy _ => loop.record.visible ≠ [] ∧
      loop.record.visible.head? = loop.ring.history.unread.head?
  | _ => True

structure Sound (loop : Loop F D σ) : Prop where
  ring : EventRing.Invariant loop.ring
  staged : loop.ring.consumer = .idle ∨ loop.ring.consumer.operation = loop.position.operation
  looked : loop.position.operation = .peek → loop.Looked loop.ring.consumer
  pending : ∀ pending, loop.position.pending? = some pending → loop.recoveryPending = pending

variable {loop next : Loop F D σ} {label : Label port}

/-- Where the loop is while it takes a snapshot, and while it pops. -/
theorem Sound.recovered (sound : Sound loop)
    (snapshot : loop.ring.consumer.operation = .snapshot) : loop.position = .recovered := by
  rcases sound.staged with idle | staged
  · rw [idle] at snapshot
    cases snapshot
  · rw [snapshot] at staged
    cases position : loop.position <;> rw [position] at staged <;> first | rfl | cases staged

theorem Sound.drain (sound : Sound loop) (pop : loop.ring.consumer.operation = .pop) :
    ∃ processed, loop.position = .drain processed := by
  rcases sound.staged with idle | staged
  · rw [idle] at pop
    cases pop
  · rw [pop] at staged
    cases position : loop.position <;> rw [position] at staged <;>
      first | exact ⟨_, rfl⟩ | cases staged

/-- An operation that the loop starts keeps the ring's invariant. -/
theorem begun_invariant {ring : EventRing.State} (inv : EventRing.Invariant ring)
    (idle : ring.consumer = .idle) {operation : EventRing.Consumer}
    (starts : operation = .peek ∨ operation = .pop ∨ operation = .snapshot) :
    EventRing.Invariant { ring with consumer := operation } := by
  have begun : EventRing.begin operation ring = some { ring with consumer := operation } := by
    rcases starts with rfl | rfl | rfl <;> simp [EventRing.begin, idle]
  exact EventRing.begin_invariant inv begun

theorem capture_looked {ring : EventRing.State} {more : List Event} (sound : Sound loop)
    (kept : EventRing.ConsumerKept loop.ring ring)
    (grown : ring.history.enqueued = loop.ring.history.enqueued ++ more)
    (peek : loop.position.operation = .peek) :
    Looked { loop with ring := ring } ring.consumer := by
  have looked := sound.looked peek
  have unread := EventRing.unread_grows sound.ring.history.retiredBound kept.retired grown
  rw [kept.consumer]
  cases consumer : loop.ring.consumer with
  | idle =>
      rw [consumer] at looked
      simp only [Looked, kept.out, kept.peeked]
      exact looked
  | copy field =>
      rw [consumer] at looked
      obtain ⟨nonempty, front⟩ := looked
      refine ⟨nonempty, front.trans ?_⟩
      have unreadNonempty : loop.ring.history.unread ≠ [] := by
        rintro none
        rw [none, List.head?_nil, List.head?_eq_none_iff] at front
        exact nonempty front
      rw [unread, List.head?_append_of_ne_nil _ unreadNonempty]
  | _ => trivial

theorem served_sound {ring : EventRing.State} (sound : Sound loop)
    (moved : EventRing.consume loop.ring = some ring) : Sound (loop.served ring) := by
  have inv := EventRing.consume_invariant sound.ring moved
  refine ⟨inv, ?_, ?_, sound.pending⟩
  · rcases EventRing.consume_operation moved with idle | same
    · exact .inl idle
    · rcases sound.staged with idle | staged
      · simp [EventRing.consume, idle] at moved
      · exact .inr (same.trans staged)
  · intro (peek : loop.position.operation = .peek)
    have looked := sound.looked peek
    cases consumer : loop.ring.consumer with
    | idle => simp [EventRing.consume, consumer] at moved
    | peek =>
        simp only [EventRing.consume, consumer] at moved
        split at moved
        next empty =>
          cases moved
          have none := sound.ring.ring.head_eq_tail_iff.mp empty.symm
          simpa [served, Looked, consumer] using none
        next more =>
          cases moved
          have some : loop.ring.history.unread ≠ [] :=
            fun none => more (sound.ring.ring.head_eq_tail_iff.mpr none).symm
          simpa [served, Looked, consumer] using some
    | copy field =>
        rw [consumer] at looked
        have holds := sound.ring.consumer
        rw [consumer] at holds
        obtain ⟨front, first, agree⟩ := holds
        simp only [EventRing.consume, consumer] at moved
        split at moved
        · cases moved
          simpa [served, Looked, consumer] using looked
        next complete =>
          cases moved
          have copied := agree.eq (Nat.le_of_not_lt complete)
          have seen := looked.2.trans (first.trans (congrArg some copied))
          simpa [served, Looked, consumer] using seen
    | _ =>
        rcases sound.staged with idle | staged
        · rw [consumer] at idle
          cases idle
        · rw [peek, consumer] at staged
          cases staged

variable [Floating F] [Floating D]

theorem Move.sound (sound : Sound loop) (idle : loop.ring.consumer = .idle)
    (move : Move port timing loop next) : Sound next := by
  have begun {operation : EventRing.Consumer} := @begun_invariant _ sound.ring idle operation
  have kept {before after : Position} (here : loop.position = before)
      (same : before.pending? = after.pending?) (pending : Bool)
      (decided : after.pending? = some pending) : loop.recoveryPending = pending :=
    sound.pending pending (by rw [here, same, decided])
  cases move with
  | lost | behind =>
      exact ⟨begun (.inr (.inr rfl)), .inr rfl, fun peek => (by cases peek),
        fun _ recovered => (by cases recovered; rfl)⟩
  | look _ here | enough _ here | drained _ here =>
      exact ⟨begun (.inl rfl), .inr rfl, fun _ => trivial, kept here rfl⟩
  | apply _ here =>
      exact ⟨begun (.inr (.inl rfl)), .inr rfl, fun peek => (by cases peek), kept here rfl⟩
  | early | full => exact sound
  | pass _ _ clear =>
      exact ⟨sound.ring, .inl idle, fun peek => (by cases peek),
        fun _ waits => (by cases waits; exact clear)⟩
  | restore =>
      exact ⟨sound.ring, .inl idle, fun peek => (by cases peek),
        fun _ waits => (by cases waits; rfl)⟩
  | paced here => exact ⟨sound.ring, .inl idle, fun peek => (by cases peek), kept here rfl⟩
  | _ =>
      exact ⟨sound.ring, .inl idle, fun peek => (by cases peek), fun _ either => by cases either⟩

theorem Turn.sound (sound : Sound loop) (turn : Turn port timing loop label next) :
    Sound next := by
  cases turn with
  | @captured call ring entered =>
      obtain ⟨kept, log⟩ := EventRing.capture_kept entered
      have grown : ring.history.enqueued = loop.ring.history.enqueued ++ [] := by
        rw [List.append_nil, EventRing.History.enqueued, log]
        rfl
      have looked := capture_looked sound kept grown
      refine ⟨EventRing.capture_invariant sound.ring entered, ?_, looked, sound.pending⟩
      exact kept.consumer ▸ sound.staged
  | @produced ticks ring moved =>
      have kept := EventRing.produce_kept moved
      have looked := capture_looked sound kept (EventRing.produce_enqueued moved)
      refine ⟨EventRing.produce_invariant sound.ring moved, ?_, looked, sound.pending⟩
      exact kept.consumer ▸ sound.staged
  | host => exact ⟨sound.ring, sound.staged, sound.looked, sound.pending⟩
  | served _ moved => exact served_sound sound moved
  | moved _ idle move => exact move.sound sound idle

theorem start_sound (port : Port σ) (events : Nat → Event) (metrics : Metrics)
    (out : EventRing.Out) (host : σ) : Sound (start port events metrics out host : Loop F D σ) :=
  ⟨EventRing.start_invariant events metrics out, .inl rfl, fun peek => (by cases peek),
    fun _ either => by cases either⟩

variable [Arith F D] {truncate : F → Int32} {allowed : Label port → Loop F D σ → Prop}
  {labels : List (Label port)}

end Loop

end Paulastorm.Poc
