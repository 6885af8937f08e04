import Paulastorm.Mirror.EventRing.Delivery

namespace Paulastorm.Mirror.EventRing

/-! What a step of either side leaves of the other, and which operation of the
consumer a step belongs to. -/

/-- What a step of CPU0 leaves of the consumer's side. -/
structure ConsumerKept (before after : State) : Prop where
  consumer : after.consumer = before.consumer
  out : after.out = before.out
  eventTail : after.shared.eventTail = before.shared.eventTail
  retired : after.history.retired = before.history.retired
  cuts : after.history.cuts = before.history.cuts
  peeked : after.history.peeked = before.history.peeked

/-- What a step of CPU1 leaves of the producer's side. -/
structure ProducerKept (before after : State) : Prop where
  producer : after.producer = before.producer
  dropped : after.shared.dropped = before.shared.dropped
  log : after.history.log = before.history.log
  accepted : after.history.accepted = before.history.accepted

variable {state next : State}

theorem ProducerKept.enqueued (kept : ProducerKept state next) :
    next.history.enqueued = state.history.enqueued := by
  rw [History.enqueued, kept.log]
  rfl

theorem capture_kept {call : Call} (entered : capture call state = some next) :
    ConsumerKept state next ∧ next.history.log = state.history.log := by
  obtain ⟨shared, producer, consumer, out, history⟩ := state
  cases producer with
  | idle =>
      simp only [capture] at entered
      split at entered <;> cases entered <;> exact ⟨⟨rfl, rfl, rfl, rfl, rfl, rfl⟩, rfl⟩
  | _ => cases entered

/-- The producer is about to exchange the lock. -/
def Producer.exchanges : Producer → Bool
  | .exchange _ => true
  | _ => false

/-- The event that a step of the producer enqueues, if it does. -/
def Producer.enqueues : Producer → Option Event
  | .fill _ _ event field => if field < 5 then none else some event
  | _ => none

theorem produce_kept {ticks : UInt64} (moved : produce ticks state = some next) :
    ConsumerKept state next := by
  obtain ⟨shared, producer, consumer, out, history⟩ := state
  cases producer <;> simp only [produce, reduceCtorEq] at moved
  all_goals first
    | (split at moved <;> cases moved <;> exact ⟨rfl, rfl, rfl, rfl, rfl, rfl⟩)
    | (cases moved; exact ⟨rfl, rfl, rfl, rfl, rfl, rfl⟩)

theorem produce_enqueued {ticks : UInt64} (moved : produce ticks state = some next) :
    next.history.enqueued = state.history.enqueued ++ state.producer.enqueues.toList := by
  obtain ⟨shared, producer, consumer, out, history⟩ := state
  cases producer <;> simp only [produce, reduceCtorEq] at moved
  case fill call tail event field =>
    simp only [Producer.enqueues]
    split at moved
    next unfinished =>
      cases moved
      rw [if_pos unfinished]
      exact (List.append_nil _).symm
    next complete =>
      cases moved
      rw [if_neg complete]
      exact History.enqueued_append_enqueued
  all_goals first
    | (split at moved <;> cases moved <;>
        simp [Producer.enqueues])
    | (cases moved; exact (List.append_nil _).symm)

theorem consume_kept (moved : consume state = some next) : ProducerKept state next := by
  obtain ⟨shared, producer, consumer, out, history⟩ := state
  cases consumer <;> simp only [consume, reduceCtorEq] at moved
  all_goals first
    | (split at moved <;> cases moved <;> exact ⟨rfl, rfl, rfl, rfl⟩)
    | (cases moved; exact ⟨rfl, rfl, rfl, rfl⟩)

/-- New events come after the unread ones. -/
theorem unread_grows {before after : State} {more : List Event}
    (bounded : before.history.retired.length ≤ before.history.enqueued.length)
    (retired : after.history.retired = before.history.retired)
    (grown : after.history.enqueued = before.history.enqueued ++ more) :
    after.history.unread = before.history.unread ++ more := by
  rw [History.unread, History.unread, retired, grown, List.drop_append_of_le_length bounded]

/-- The operations that the consumer starts. -/
inductive Operation where
  | none
  | peek
  | pop
  | snapshot
deriving DecidableEq

/-- The operation a step of the consumer belongs to. -/
def Consumer.operation : Consumer → Operation
  | .idle => .none
  | .peek | .copy _ => .peek
  | .pop | .advance _ | .popPending _ | .popGauge _ => .pop
  | .snapshot | .loadHead | .loadTail _ | .copyLatest _ _ | .loadDropped _ | .discard _
  | .snapshotGauge | .release => .snapshot

/-- An operation goes on until it is over. -/
theorem consume_operation (moved : consume state = some next) :
    next.consumer = .idle ∨ next.consumer.operation = state.consumer.operation := by
  obtain ⟨shared, producer, consumer, out, history⟩ := state
  cases consumer <;> simp only [consume, reduceCtorEq] at moved
  all_goals first
    | (split at moved <;> cases moved <;> first | exact .inl rfl | exact .inr rfl)
    | (cases moved; first | exact .inl rfl | exact .inr rfl)

/-- Only a snapshot cuts. -/
theorem consume_cuts (moved : consume state = some next)
    (other : state.consumer.operation ≠ .snapshot) : next.history.cuts = state.history.cuts := by
  obtain ⟨shared, producer, consumer, out, history⟩ := state
  cases consumer <;> simp only [consume, reduceCtorEq] at moved
  case peek | copy | pop => split at moved <;> cases moved <;> rfl
  case advance | popPending | popGauge =>
    cases moved
    rfl
  all_goals exact absurd rfl other

/-- The calls that a step of the producer settles, if it does. -/
theorem produce_history {ticks : UInt64} (moved : produce ticks state = some next) :
    next.history = state.history ∨
    (∃ call, state.producer = .exchange call ∧ state.shared.eventLock = true ∧
      next.history = state.history.append call .contended) ∨
    (∃ call seen, state.producer = .test call seen ∧ next.producer = .overflow call ∧
      next.history = state.history.append call .full) ∨
    ∃ call seen event field, state.producer = .fill call seen event field ∧
      next.history = state.history.append call (.enqueued event) := by
  obtain ⟨shared, producer, consumer, out, history⟩ := state
  cases producer <;> simp only [produce, reduceCtorEq] at moved
  case exchange call =>
    split at moved
    next held =>
      cases moved
      exact .inr (.inl ⟨call, rfl, held, rfl⟩)
    next =>
      cases moved
      exact .inl rfl
  case test call seen =>
    split at moved <;> cases moved
    · exact .inr (.inr (.inl ⟨call, seen, rfl, rfl, rfl⟩))
    · exact .inl rfl
  case fill call seen event field =>
    split at moved <;> cases moved
    · exact .inl rfl
    · exact .inr (.inr (.inr ⟨call, seen, event, field, rfl, rfl⟩))
  all_goals
    cases moved
    exact .inl rfl

/-- The mirror stays enabled, and only an entered capture is accepted. -/
theorem capture_accepted {call : Call} (entered : capture call state = some next)
    (enabled : state.shared.enabled = true) :
    next.history.accepted = state.history.accepted ++
      (if call.accepted then [call.masked] else []) ∧ next.shared.enabled = true := by
  obtain ⟨shared, producer, consumer, out, history⟩ := state
  cases producer with
  | idle =>
      simp only [capture, Bool.and_eq_true] at entered
      split at entered
      next accepted =>
        cases entered
        exact ⟨by rw [if_pos accepted.1], enabled⟩
      next rejected =>
        cases entered
        rw [if_neg fun accepted => rejected ⟨accepted, enabled⟩, List.append_nil]
        exact ⟨rfl, enabled⟩
  | _ => cases entered

theorem produce_accepted {ticks : UInt64} (moved : produce ticks state = some next) :
    next.history.accepted = state.history.accepted ∧
      next.shared.enabled = state.shared.enabled := by
  obtain ⟨shared, producer, consumer, out, history⟩ := state
  cases producer <;> simp only [produce, reduceCtorEq] at moved
  case exchange | test | fill => split at moved <;> cases moved <;> exact ⟨rfl, rfl⟩
  all_goals
    cases moved
    exact ⟨rfl, rfl⟩

theorem consume_enabled (moved : consume state = some next) :
    next.shared.enabled = state.shared.enabled := by
  obtain ⟨shared, producer, consumer, out, history⟩ := state
  cases consumer <;> simp only [consume, reduceCtorEq] at moved
  case peek | copy | pop | snapshot => split at moved <;> cases moved <;> rfl
  all_goals
    cases moved
    rfl

/-- Nothing is retired but by a pop or by a snapshot. -/
theorem consume_retired (moved : consume state = some next)
    (pops : ∀ seen, state.consumer ≠ .advance seen)
    (cuts : ∀ head, state.consumer ≠ .discard head) :
    next.history.retired = state.history.retired ∧ next.history.cuts = state.history.cuts := by
  obtain ⟨shared, producer, consumer, out, history⟩ := state
  cases consumer <;> simp only [consume, reduceCtorEq] at moved
  case advance seen => exact absurd rfl (pops seen)
  case discard head => exact absurd rfl (cuts head)
  case peek | copy | pop | snapshot => split at moved <;> cases moved <;> exact ⟨rfl, rfl⟩
  all_goals
    cases moved
    exact ⟨rfl, rfl⟩

/-- The front event is retired by a pop. -/
theorem consume_advance {seen : UInt32} (consumer : state.consumer = .advance seen)
    (moved : consume state = some next) :
    next.consumer = .popPending seen ∧ next.shared.eventTail = seen + 1 ∧
      next.history = state.history.pop := by
  simp only [consume, consumer] at moved
  cases moved
  exact ⟨rfl, rfl, rfl⟩

/-- The unread events are retired by a snapshot. -/
theorem consume_discard {head : UInt32} (consumer : state.consumer = .discard head)
    (moved : consume state = some next) :
    next.consumer = .snapshotGauge ∧ next.shared.eventTail = head ∧ next.out = state.out ∧
      next.history = state.history.cut state.out.snapshot := by
  simp only [consume, consumer] at moved
  cases moved
  exact ⟨rfl, rfl, rfl, rfl⟩

end Paulastorm.Mirror.EventRing
