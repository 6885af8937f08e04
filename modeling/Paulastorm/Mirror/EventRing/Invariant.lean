import Paulastorm.Mirror.EventRing.History

namespace Paulastorm.Mirror.EventRing

/-! The invariant of the event ring under every interleaving.

The lock makes the producer's and the snapshot's critical sections exclusive.
Outside them only the two counters synchronise: the producer fills the slot
past the last unread event, and the consumer copies the front one.
-/

open Library

/-- Two events agree on the fields below `count`. -/
def Agree (count : Nat) (first second : Event) : Prop :=
  (0 < count → first.ticks = second.ticks) ∧ (1 < count → first.address = second.address) ∧
  (2 < count → first.value = second.value) ∧ (3 < count → first.width = second.width) ∧
  (4 < count → first.reserved = second.reserved)

theorem agree_zero (first second : Event) : Agree 0 first second := by
  simp [Agree]

theorem storeField_agree {field : Nat} {source target : Event} (agree : Agree field source target) :
    Agree (field + 1) source (storeField field source target) := by
  obtain ⟨ticks, address, value, width, reserved⟩ := agree
  unfold storeField
  split
  · simp [Agree]
  · simp [Agree, ticks]
  · simp [Agree, ticks, address]
  · simp [Agree, ticks, address, value]
  · rename_i notFirst notSecond notThird notFourth
    have last : 4 ≤ field := by
      rcases field with _ | _ | _ | _ | field <;> first | contradiction | omega
    exact ⟨fun _ => ticks (by omega), fun _ => address (by omega), fun _ => value (by omega),
      fun _ => width (by omega), fun _ => rfl⟩

theorem Agree.eq {count : Nat} {first second : Event} (agree : Agree count first second)
    (complete : 5 ≤ count) : first = second := by
  obtain ⟨ticks, address, value, width, reserved⟩ := agree
  cases first
  cases second
  simp only [Event.mk.injEq]
  exact ⟨ticks (by omega), address (by omega), value (by omega), width (by omega),
    reserved (by omega)⟩

namespace Producer

/-- The producer is between its lock exchange and its release. -/
def locked : Producer → Bool
  | .idle | .exchange _ | .refuse _ => false
  | _ => true

/-- The call in the shadow whose fate is still open. -/
def shadowed : Producer → List Call
  | .stamp call | .loadTail call | .test call _ | .fill call _ _ _ => [call]
  | _ => []

/-- The call whose fate is open. -/
def undecided : Producer → List Call
  | .exchange call | .shadow call | .stamp call | .loadTail call | .test call _
  | .fill call _ _ _ => [call]
  | _ => []

/-- Enqueued events that `captured` does not count yet. -/
def uncounted : Producer → UInt32
  | .count _ _ _ => 1
  | _ => 0

/-- Refused calls that `dropped` does not count yet. -/
def undropped : Producer → UInt32
  | .refuse _ | .overflow _ => 1
  | _ => 0

end Producer

/-- The consumer is inside the critical section of a snapshot. -/
def Consumer.locked : Consumer → Bool
  | .idle | .peek | .copy _ | .pop | .advance _ | .popPending _ | .popGauge _ | .snapshot => false
  | _ => true

/-- What the producer's local values say about the ring. -/
def ProducerHolds (events : Nat → Event) (head tail : UInt32) (unread : List Event) :
    Producer → Prop
  | .test _ seen => ∃ popped, tail = seen + UInt32.ofNat popped ∧
      popped + unread.length ≤ capacity.value.toNat
  | .fill call _ event field => unread.length < capacity.value.toNat ∧
      (∃ ticks, event = call.event ticks) ∧
      Agree field event (events (Ring.slot capacity head))
  | _ => True

/-- What the consumer's local values say about the ring. -/
def ConsumerHolds (head tail : UInt32) (latest : Latest) (unread : List Event) (out : Out) :
    Consumer → Prop
  | .copy field => ∃ front, unread.head? = some front ∧ Agree field front out.event
  | .advance seen => seen = tail ∧ unread ≠ []
  | .loadTail seenHead => seenHead = head
  | .copyLatest seenHead seenTail => seenHead = head ∧ seenTail = tail
  | .loadDropped seenHead | .discard seenHead => seenHead = head ∧
      out.snapshot.toLatest = latest ∧ out.snapshot.skipped = UInt32.ofNat unread.length
  | _ => True

structure Invariant (state : State) : Prop where
  history : state.history.Valid
  ring : Ring.Represents capacity state.shared.events state.shared.eventHead
    state.shared.eventTail state.history.unread
  lock : state.shared.eventLock = (state.producer.locked || state.consumer.locked)
  exclusive : ¬ (state.producer.locked = true ∧ state.consumer.locked = true)
  producer : ProducerHolds state.shared.events state.shared.eventHead state.shared.eventTail
    state.history.unread state.producer
  consumer : ConsumerHolds state.shared.eventHead state.shared.eventTail
    state.shared.latest.toLatest state.history.unread state.out state.consumer
  accepted : state.history.accepted =
    state.history.log.map Entry.call ++ state.producer.undecided
  shadow : state.shared.latest.toLatest =
    .ofCalls (state.history.locked ++ state.producer.shadowed)
  captured : state.shared.captured + state.producer.uncounted =
    UInt32.ofNat state.history.enqueued.length
  dropped : state.shared.dropped + state.producer.undropped =
    UInt32.ofNat state.history.refusals

theorem start_invariant (events : Nat → Event) (metrics : Probe.Metrics) (out : Out) :
    Invariant (start events metrics out) where
  history := History.empty_valid
  ring := Ring.Represents.empty events 0
  lock := rfl
  exclusive := by simp [start, Producer.locked]
  producer := trivial
  consumer := trivial
  accepted := rfl
  shadow := rfl
  captured := rfl
  dropped := rfl

/-- A consumer outside the lock does not notice new events or a newer shadow. -/
theorem ConsumerHolds.grow {head tail : UInt32} {latest : Latest} {unread : List Event} {out : Out}
    {consumer : Consumer} (holds : ConsumerHolds head tail latest unread out consumer)
    (outside : consumer.locked = false) (newHead : UInt32) (newLatest : Latest)
    (more : List Event) :
    ConsumerHolds newHead tail newLatest (unread ++ more) out consumer := by
  cases consumer with
  | copy field =>
      obtain ⟨front, first, agree⟩ := holds
      exact ⟨front, by simp [List.head?_append, first], agree⟩
  | advance seen => exact ⟨holds.1, by simp [holds.2]⟩
  | idle | peek | pop | popPending | popGauge | snapshot => exact trivial
  | _ => simp [Consumer.locked] at outside

/-- Popping only makes room for the producer. -/
theorem ProducerHolds.shrink {events : Nat → Event} {head tail : UInt32} {unread : List Event}
    {producer : Producer} (holds : ProducerHolds events head tail unread producer)
    (nonempty : unread ≠ []) : ProducerHolds events head (tail + 1) unread.tail producer := by
  have positive := List.length_pos_iff.mpr nonempty
  cases producer with
  | test call seen =>
      obtain ⟨popped, moved, window⟩ := holds
      refine ⟨popped + 1, ?_, ?_⟩
      · rw [moved, UInt32.ofNat_add, UInt32.add_assoc]
        rfl
      · rw [List.length_tail]
        omega
  | fill call seen event field =>
      refine ⟨?_, holds.2⟩
      rw [List.length_tail]
      exact Nat.lt_of_le_of_lt (Nat.sub_le _ _) holds.1
  | _ => exact trivial

variable {state next : State}

theorem capture_invariant {call : Call} (inv : Invariant state)
    (entered : capture call state = some next) : Invariant next := by
  obtain ⟨shared, producer, consumer, out, history⟩ := state
  cases producer with
  | idle =>
      simp only [capture] at entered
      split at entered <;> cases entered
      · exact { inv with
          history := { inv.history with }
          accepted := by
            have before : history.accepted = history.log.map Entry.call ++ [] := inv.accepted
            rw [before, List.append_nil]
            rfl }
      · exact inv
  | _ => cases entered

theorem begin_invariant {operation : Consumer} (inv : Invariant state)
    (begun : begin operation state = some next) : Invariant next := by
  obtain ⟨shared, producer, consumer, out, history⟩ := state
  cases consumer with
  | idle => cases operation <;> cases begun <;> exact { inv with consumer := trivial }
  | _ => cases begun

theorem produce_invariant {ticks : UInt64} (inv : Invariant state)
    (moved : produce ticks state = some next) : Invariant next := by
  obtain ⟨shared, producer, consumer, out, history⟩ := state
  have outside : producer.locked = true → consumer.locked = false :=
    fun locked => Bool.eq_false_iff.mpr fun both => inv.exclusive ⟨locked, both⟩
  cases producer with
  | idle => cases moved
  | exchange call =>
      simp only [produce] at moved
      split at moved
      next held =>
        cases moved
        have unread : (history.append call .contended).unread = history.unread :=
          History.unread_append_contended
        exact { inv with
          history := inv.history.afterAppend (fun event fate => by cases fate)
          ring := unread ▸ inv.ring
          producer := trivial
          consumer := unread ▸ inv.consumer
          accepted := by simpa [History.append, Producer.undecided] using inv.accepted
          shadow := by
            rw [History.locked_append_contended]
            exact inv.shadow
          captured := by
            rw [History.enqueued_append_contended]
            exact inv.captured
          dropped := by
            have counted : shared.dropped + 0 = UInt32.ofNat history.refusals := inv.dropped
            rw [UInt32.add_zero] at counted
            simp [Producer.undropped, counted, UInt32.ofNat_add] }
      next free =>
        cases moved
        have unlocked : shared.eventLock = consumer.locked := inv.lock
        rw [Bool.not_eq_true] at free
        rw [free] at unlocked
        exact { inv with
          lock := rfl
          exclusive := by simp [← unlocked] }
  | refuse call =>
      cases moved
      exact { inv with dropped := by simpa [Producer.undropped] using inv.dropped }
  | shadow call =>
      cases moved
      have before : shared.latest.toLatest = .ofCalls (history.locked ++ []) := inv.shadow
      rw [List.append_nil] at before
      exact { inv with
        consumer := by
          have grown := inv.consumer.grow (outside rfl) shared.eventHead
            (shared.latest.shadowWord call.address call.word) []
          rwa [List.append_nil] at grown
        shadow := by
          simp only [Producer.shadowed, Latest.ofCalls_append_singleton, ← before] }
  | stamp call =>
      cases moved
      exact { inv with }
  | loadTail call =>
      cases moved
      exact { inv with producer := ⟨0, by simp, by simpa using inv.ring.bounded⟩ }
  | test call tail =>
      simp only [produce] at moved
      split at moved
      next full =>
        cases moved
        have unread : (history.append call .full).unread = history.unread :=
          History.unread_append_full
        exact { inv with
          history := inv.history.afterAppend (fun event fate => by cases fate)
          ring := unread ▸ inv.ring
          producer := trivial
          consumer := unread ▸ inv.consumer
          accepted := by simpa [History.append, Producer.undecided] using inv.accepted
          shadow := by
            rw [History.locked_append_full]
            simpa [Producer.shadowed] using inv.shadow
          captured := by
            rw [History.enqueued_append_full]
            exact inv.captured
          dropped := by
            have counted : shared.dropped + 0 = UInt32.ofNat history.refusals := inv.dropped
            rw [UInt32.add_zero] at counted
            simp [Producer.undropped, counted, UInt32.ofNat_add] }
      next room =>
        cases moved
        obtain ⟨popped, tail, window⟩ := inv.producer
        exact { inv with
          producer := ⟨inv.ring.room_of_stale tail window (UInt32.not_le.mp room),
            ⟨ticks, rfl⟩, agree_zero _ _⟩ }
  | overflow call =>
      cases moved
      exact { inv with dropped := by simpa [Producer.undropped] using inv.dropped }
  | fill call tail event field =>
      obtain ⟨room, stamped, agree⟩ := inv.producer
      simp only [produce] at moved
      split at moved
      · cases moved
        exact { inv with
          ring := inv.ring.write_free room _
          producer := ⟨room, stamped, by
            simpa only [Function.update_self] using storeField_agree agree⟩ }
      next complete =>
        cases moved
        have filled := (agree.eq (Nat.le_of_not_lt complete)).symm
        have unread : (history.append call (.enqueued event)).unread = history.unread ++ [event] :=
          inv.history.unread_append_enqueued
        exact { inv with
          history := inv.history.afterAppend (fun other fate => by cases fate; exact stamped)
          ring := unread ▸ inv.ring.push room filled
          producer := trivial
          consumer := unread ▸ inv.consumer.grow (outside rfl) _ _ [event]
          accepted := by simpa [History.append, Producer.undecided] using inv.accepted
          shadow := by
            rw [History.locked_append_enqueued]
            simpa [Producer.shadowed] using inv.shadow
          captured := by
            have counted : shared.captured + 0 = UInt32.ofNat history.enqueued.length :=
              inv.captured
            rw [UInt32.add_zero] at counted
            simp [Producer.uncounted, counted, UInt32.ofNat_add]
          dropped := by
            rw [History.refusals_append_enqueued]
            exact inv.dropped }
  | count call tail event =>
      cases moved
      exact { inv with captured := by simpa [Producer.uncounted] using inv.captured }
  | gauge pending =>
      cases moved
      exact { inv with }
  | release =>
      cases moved
      exact { inv with
        lock := (outside rfl).symm
        exclusive := by simp [Producer.locked] }

theorem consume_invariant (inv : Invariant state) (moved : consume state = some next) :
    Invariant next := by
  obtain ⟨shared, producer, consumer, out, history⟩ := state
  have outside : consumer.locked = true → producer.locked = false :=
    fun locked => Bool.eq_false_iff.mpr fun both => inv.exclusive ⟨both, locked⟩
  cases consumer with
  | idle => cases moved
  | peek =>
      simp only [consume] at moved
      split at moved
      next empty =>
        cases moved
        exact { inv with consumer := trivial }
      next more =>
        cases moved
        have nonempty : history.unread ≠ [] :=
          fun none => more (inv.ring.head_eq_tail_iff.mpr none).symm
        exact { inv with
          consumer := ⟨history.unread.head nonempty, List.head?_eq_some_head nonempty,
            agree_zero _ _⟩ }
  | copy field =>
      obtain ⟨front, first, agree⟩ := inv.consumer
      obtain ⟨rest, unread⟩ : ∃ rest, history.unread = front :: rest :=
        List.head?_eq_some_iff.mp first
      have stored : shared.events (Ring.slot capacity shared.eventTail) = front :=
        Ring.Represents.front (unread ▸ inv.ring)
      simp only [consume] at moved
      split at moved
      · cases moved
        exact { inv with
          consumer := ⟨front, first, by simpa only [stored] using storeField_agree agree⟩ }
      next complete =>
        cases moved
        rw [agree.eq (Nat.le_of_not_lt complete)] at first
        exact { inv with
          history := inv.history.afterPeek first
          consumer := trivial }
  | pop =>
      simp only [consume] at moved
      split at moved
      next empty =>
        cases moved
        exact { inv with consumer := trivial }
      next more =>
        cases moved
        exact { inv with
          consumer := ⟨rfl, fun none => more (inv.ring.head_eq_tail_iff.mpr none).symm⟩ }
  | advance tail =>
      obtain ⟨seen, nonempty⟩ : tail = shared.eventTail ∧ history.unread ≠ [] := inv.consumer
      subst seen
      obtain ⟨front, rest, unread⟩ := List.exists_cons_of_ne_nil nonempty
      cases moved
      have popped : history.pop.unread = history.unread.tail := History.unread_pop
      exact { inv with
        history := inv.history.afterPop nonempty
        ring := by
          have after := Ring.Represents.pop (unread ▸ inv.ring)
          rwa [popped, unread]
        producer := popped ▸ inv.producer.shrink nonempty
        consumer := trivial }
  | popPending tail =>
      cases moved
      exact { inv with consumer := trivial }
  | popGauge pending =>
      cases moved
      exact { inv with consumer := trivial }
  | snapshot =>
      simp only [consume] at moved
      split at moved
      next held =>
        cases moved
        exact { inv with consumer := trivial }
      next free =>
        cases moved
        have unlocked : shared.eventLock = (producer.locked || false) := inv.lock
        simp only [Bool.or_eq_true, Bool.not_eq_true', not_or, Bool.not_eq_true,
          Bool.or_false] at free unlocked
        rw [free.2] at unlocked
        exact { inv with
          lock := by simp [Consumer.locked]
          exclusive := by simp [← unlocked]
          consumer := trivial }
  | loadHead =>
      cases moved
      exact { inv with consumer := rfl }
  | loadTail head =>
      cases moved
      exact { inv with consumer := ⟨inv.consumer, rfl⟩ }
  | copyLatest head tail =>
      obtain ⟨seenHead, seenTail⟩ : head = shared.eventHead ∧ tail = shared.eventTail :=
        inv.consumer
      subst seenHead seenTail
      cases moved
      refine { inv with consumer := ⟨rfl, rfl, ?_⟩ }
      rw [← inv.ring.pending, UInt32.ofNat_toNat]
  | loadDropped head =>
      cases moved
      exact { inv with consumer := inv.consumer }
  | discard head =>
      obtain ⟨seen, copied, skipped⟩ : head = shared.eventHead ∧ _ := inv.consumer
      subst seen
      have free : producer.locked = false := outside rfl
      have shadow : shared.latest.toLatest = .ofCalls (history.locked ++ producer.shadowed) :=
        inv.shadow
      have settled : producer.shadowed = [] := by
        cases producer <;> first | rfl | simp [Producer.locked] at free
      rw [settled, List.append_nil] at shadow
      cases moved
      have none : (history.cut out.snapshot).unread = [] := inv.history.unread_cut
      exact { inv with
        history := inv.history.afterCut (copied.trans shadow) skipped
        ring := none ▸ Ring.Represents.discard _ _
        producer := by cases producer <;> first | exact trivial | simp [Producer.locked] at free
        consumer := trivial }
  | snapshotGauge =>
      cases moved
      exact { inv with consumer := trivial }
  | release =>
      cases moved
      have free : producer.locked = false := outside rfl
      exact { inv with
        lock := by simp [Consumer.locked, free]
        exclusive := by simp [Consumer.locked]
        consumer := trivial }

theorem step_invariant {label : Label} (inv : Invariant state)
    (stepped : step label state = some next) : Invariant next := by
  cases label with
  | capture call => exact capture_invariant inv stepped
  | produce ticks => exact produce_invariant inv stepped
  | begin operation => exact begin_invariant inv stepped
  | consume => exact consume_invariant inv stepped

end Paulastorm.Mirror.EventRing
