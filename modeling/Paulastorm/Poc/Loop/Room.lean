import Paulastorm.Poc.Loop.Backlog

namespace Paulastorm.Poc

/-! Events lost to a full ring never go unnoticed.

A capture that finds the ring full counts a drop.  The drop counter wraps, but a
second drop before the loop has tested for one means that the ring is full to
within the burst of a frame, and the loop recovers from a long backlog as well.
-/

open Paulastorm.Core Mirror Probe
open Library (Machine)

/-- How many events may have been popped since the last test, where the loop is. -/
def Position.limit : Position → Nat
  | .enter | .wait => 0
  | .drain processed | .peeked processed => processed
  | _ => 128

namespace Loop

variable {F D σ : Type} {port : Port σ} {timing : Timing}

/-- The captures are of bytes and aligned words, and none finds the lock held. -/
def uncontended (label : Label port) (loop : Loop F D σ) : Prop :=
  match label with
  | .capture call => call.WellFormed
  | .produce _ => loop.ring.producer.exchanges = true → loop.ring.shared.eventLock = false
  | _ => True

instance uncontended.decidable (label : Label port) (loop : Loop F D σ) :
    Decidable (uncontended label loop) :=
  match label with
  | .capture call => inferInstanceAs (Decidable call.WellFormed)
  | .produce _ => inferInstanceAs (Decidable (_ = true → _ = false))
  | .host _ | .cpu1 _ => inferInstanceAs (Decidable True)

/-- The captures dropped since the first `marked` of them. -/
def lost (marked : Nat) (loop : Loop F D σ) : Nat :=
  (loop.ring.history.log.drop marked).countP EventRing.Entry.refused

/-- The drops that the last recovery knew of. -/
def known (marked : Nat) (loop : Loop F D σ) : Nat :=
  (loop.ring.history.log.take marked).countP EventRing.Entry.refused

/-- The ring was full `burst` pops ago. -/
def Full (burst : Nat) (loop : Loop F D σ) : Prop :=
  8192 ≤ loop.ring.history.unread.length + burst

/-- No capture was refused because the lock was held. -/
structure Unrefused (loop : Loop F D σ) : Prop where
  wellFormed : ∀ call ∈ loop.ring.history.accepted, call.WellFormed
  locked : loop.ring.history.locked = loop.ring.history.log.map EventRing.Entry.call
  producer : ∀ call, loop.ring.producer ≠ .refuse call

/-- The pops that a producer may have missed since it loaded the tail. -/
def slack (burst : Nat) (loop : Loop F D σ) : Nat :=
  match loop.position with
  | .pending _ => 0
  | _ => burst

/-- Of the drops since the last cut, all but the first happened when the ring was full. -/
structure Room (marked burst : Nat) (loop : Loop F D σ) : Prop where
  inside : marked ≤ loop.ring.history.log.length
  paced : burst + claims loop.ring.consumer ≤ loop.position.limit
  few : loop.lost marked ≤ 1 ∨ loop.Full burst
  overflow : ∀ call, loop.ring.producer = .overflow call → 1 ≤ loop.lost marked
  stale : ∀ call seen, loop.ring.producer = .test call seen → ∃ popped,
    loop.ring.shared.eventTail = seen + UInt32.ofNat popped ∧
      popped + loop.ring.history.unread.length ≤ 8192 ∧
      (loop.lost marked = 0 ∨ loop.Full burst ∨ popped ≤ loop.slack burst)
  fresh : loop.position = .enter → (loop.lost marked = 0 ∨ loop.Full burst) ∧
    ∀ call seen, loop.ring.producer = .test call seen → seen = loop.ring.shared.eventTail

variable {marked burst : Nat} {loop next : Loop F D σ} {label : Label port}

section Captures

variable {ring : EventRing.State}

theorem masked_wellFormed {call : Mirror.Call} (wellFormed : call.WellFormed) :
    call.masked.WellFormed := by
  rcases wellFormed with byte | ⟨word, even⟩
  · exact .inl byte
  · refine .inr ⟨word, ?_⟩
    change call.address &&& 0xffffff &&& 1 = 0
    rw [UInt32.and_assoc]
    exact even

/-- An accepted call is entered in the history, and nothing else happens. -/
theorem capture_cases {call : Mirror.Call} {state after : EventRing.State}
    (entered : EventRing.capture call state = some after) :
    after = state ∨ after = { state with
      producer := .exchange call.masked
      history.accepted := state.history.accepted ++ [call.masked] } := by
  simp only [EventRing.capture] at entered
  split at entered
  · split at entered <;> cases entered
    · exact .inr rfl
    · exact .inl rfl
  · cases entered

theorem capture_unrefused {call : Mirror.Call} (unrefused : Unrefused loop) (wellFormed : call.WellFormed)
    (entered : EventRing.capture call loop.ring = some ring) :
    Unrefused { loop with ring := ring } := by
  rcases capture_cases entered with rfl | rfl
  · exact unrefused
  · refine ⟨fun other member => ?_, unrefused.locked, fun _ refusing => by cases refusing⟩
    rcases List.mem_append.mp member with old | new
    · exact unrefused.wellFormed other old
    · rw [List.mem_singleton.mp new]
      exact masked_wellFormed wellFormed

/-- No capture is refused by a step that finds the lock free. -/
theorem produce_settles {ticks : UInt64}
    (permitted : uncontended (.produce ticks : Label port) loop)
    (moved : EventRing.produce ticks loop.ring = some ring) :
    ring.history = loop.ring.history ∨
    (∃ call seen, loop.ring.producer = .test call seen ∧ ring.producer = .overflow call ∧
      ring.history = loop.ring.history.append call .full) ∨
    ∃ call seen event field, loop.ring.producer = .fill call seen event field ∧
      ring.history = loop.ring.history.append call (.enqueued event) := by
  rcases EventRing.produce_history moved with same | ⟨call, producer, held, _⟩ | settled
  · exact .inl same
  · have free : loop.ring.shared.eventLock = false := permitted (by rw [producer]; rfl)
    cases held.symm.trans free
  · exact .inr settled

theorem produce_unrefused {ticks : UInt64} (unrefused : Unrefused loop)
    (permitted : uncontended (.produce ticks : Label port) loop)
    (moved : EventRing.produce ticks loop.ring = some ring) :
    Unrefused { loop with ring := ring } := by
  have producing : ∀ call, ring.producer ≠ .refuse call := by
    intro call refusing
    cases producer : loop.ring.producer <;>
      simp only [EventRing.produce, producer, reduceCtorEq] at moved
    case exchange =>
      have free : loop.ring.shared.eventLock = false := permitted (by rw [producer]; rfl)
      rw [free] at moved
      cases moved
      cases refusing
    case test | fill => split at moved <;> cases moved <;> cases refusing
    all_goals
      cases moved
      cases refusing
  rcases produce_settles permitted moved with
    same | ⟨call, seen, _, _, history⟩ | ⟨call, seen, event, field, _, history⟩
  · refine ⟨?_, ?_, producing⟩
    · exact (same ▸ unrefused.wellFormed : ∀ call ∈ ring.history.accepted, _)
    · exact (same ▸ unrefused.locked : ring.history.locked = _)
  · refine ⟨?_, ?_, producing⟩
    · change ∀ call ∈ ring.history.accepted, call.WellFormed
      rw [history]
      exact unrefused.wellFormed
    · change ring.history.locked = ring.history.log.map _
      rw [history, EventRing.History.locked_append_full, unrefused.locked]
      simp [EventRing.History.append]
  · refine ⟨?_, ?_, producing⟩
    · change ∀ call ∈ ring.history.accepted, call.WellFormed
      rw [history]
      exact unrefused.wellFormed
    · change ring.history.locked = ring.history.log.map _
      rw [history, EventRing.History.locked_append_enqueued, unrefused.locked]
      simp [EventRing.History.append]

theorem served_unrefused (unrefused : Unrefused loop)
    (moved : EventRing.consume loop.ring = some ring) : Unrefused (loop.served ring) := by
  have kept := EventRing.consume_kept moved
  refine ⟨?_, ?_, fun call => ?_⟩
  · exact (kept.accepted ▸ unrefused.wellFormed : ∀ call ∈ ring.history.accepted, _)
  · change ring.history.locked = ring.history.log.map _
    rw [kept.log, ← unrefused.locked, EventRing.History.locked, kept.log]
    rfl
  · exact (kept.producer ▸ unrefused.producer call : ring.producer ≠ _)

/-- A step of CPU0 that settles no call and tests nothing. -/
theorem Room.quiet (room : Room marked burst loop) (kept : EventRing.ConsumerKept loop.ring ring)
    (log : ring.history.log = loop.ring.history.log)
    (dropping : ∀ call, ring.producer ≠ .overflow call)
    (testing : ∀ call seen, ring.producer ≠ .test call seen) :
    Room marked burst { loop with ring := ring } := by
  have unread : ring.history.unread = loop.ring.history.unread := by
    rw [EventRing.History.unread, EventRing.History.enqueued, log, kept.retired]
    rfl
  have lost : lost marked { loop with ring := ring } = loop.lost marked := by
    simp only [Loop.lost, log]
  have full : Full burst { loop with ring := ring } ↔ loop.Full burst := by
    simp only [Full, unread]
  refine ⟨?_, ?_, ?_, fun call here => absurd here (dropping call),
    fun call seen here => absurd here (testing call seen), fun enter => ?_⟩
  · exact (congrArg List.length log) ▸ room.inside
  · exact kept.consumer ▸ room.paced
  · rw [lost, full]
    exact room.few
  · rw [lost, full]
    exact ⟨(room.fresh enter).1, fun call seen here => absurd here (testing call seen)⟩

theorem capture_room {call : Mirror.Call} (room : Room marked burst loop)
    (entered : EventRing.capture call loop.ring = some ring) :
    Room marked burst { loop with ring := ring } := by
  obtain ⟨kept, log⟩ := EventRing.capture_kept entered
  rcases capture_cases entered with rfl | rfl
  · exact room
  · exact room.quiet kept log (fun _ here => by cases here) (fun _ _ here => by cases here)

theorem lost_append (marked : Nat) {call : Mirror.Call} {fate : EventRing.Fate}
    (inside : marked ≤ loop.ring.history.log.length)
    (log : ring.history.log = loop.ring.history.log ++ [⟨call, fate⟩]) :
    lost marked { loop with ring := ring } =
      loop.lost marked + if EventRing.Entry.refused ⟨call, fate⟩ then 1 else 0 := by
  simp only [lost, log]
  rw [List.drop_append_of_le_length inside, List.countP_append, List.countP_singleton]

/-- The producer finds the ring full. -/
theorem test_room {call : Mirror.Call} {seen : UInt32} (sound : Sound loop)
    (room : Room marked burst loop) (producer : loop.ring.producer = .test call seen)
    (full : loop.ring.shared.eventHead - seen ≥ EventRing.capacity.value) :
    Room marked burst { loop with ring := { loop.ring with
      producer := .overflow call
      history := loop.ring.history.append call .full } } := by
  obtain ⟨popped, moved, window, stale⟩ := room.stale call seen producer
  have filled : 8192 ≤ popped + loop.ring.history.unread.length := by
    have difference : loop.ring.shared.eventHead - seen =
        UInt32.ofNat (popped + loop.ring.history.unread.length) := by
      rw [sound.ring.ring.headEq, moved, UInt32.add_assoc, ← UInt32.ofNat_add, UInt32.add_comm,
        UInt32.add_sub_cancel]
    have small : popped + loop.ring.history.unread.length < UInt32.size :=
      Nat.lt_of_le_of_lt window (by decide)
    rw [ge_iff_le, difference, UInt32.le_iff_toNat_le, UInt32.toNat_ofNat_of_lt' small] at full
    exact full
  let after : EventRing.State := { loop.ring with
    producer := .overflow call
    history := loop.ring.history.append call .full }
  let dropped : Loop F D σ := { loop with ring := after }
  have log : after.history.log = loop.ring.history.log ++ [⟨call, .full⟩] := rfl
  have lost : dropped.lost marked = loop.lost marked + 1 := lost_append marked room.inside log
  have kept : dropped.Full burst ↔ loop.Full burst := by
    change 8192 ≤ (loop.ring.history.append call .full).unread.length + burst ↔ _
    rw [EventRing.History.unread_append_full]
    rfl
  have near : loop.slack burst ≤ burst := by
    unfold slack
    split
    · exact Nat.zero_le _
    · exact Nat.le_refl _
  refine ⟨?_, room.paced, ?_, fun _ _ => ?_, fun _ _ here => (by cases here), fun enter =>
    ⟨.inr ?_, fun _ _ here => by cases here⟩⟩
  · change marked ≤ (loop.ring.history.log ++ [_]).length
    rw [List.length_append]
    exact Nat.le_add_right_of_le room.inside
  · change dropped.lost marked ≤ 1 ∨ dropped.Full burst
    rw [lost, kept]
    rcases stale with none | full | few
    · exact .inl (by omega)
    · exact .inr full
    · refine .inr ?_
      change 8192 ≤ _
      omega
  · change 1 ≤ dropped.lost marked
    omega
  · change dropped.Full burst
    rw [kept]
    have same := (room.fresh enter).2 call seen producer
    rw [same] at full
    have pending := sound.ring.ring.pending
    have size : 8192 ≤ (loop.ring.shared.eventHead - loop.ring.shared.eventTail).toNat :=
      UInt32.le_iff_toNat_le.mp full
    change 8192 ≤ _
    omega

/-- The producer publishes an event. -/
theorem fill_room {call : Mirror.Call} {seen : UInt32} {event : Event} (sound : Sound loop)
    (room : Room marked burst loop) (kept : EventRing.ConsumerKept loop.ring ring)
    (history : ring.history = loop.ring.history.append call (.enqueued event))
    (producer : ring.producer = .count call seen event) :
    Room marked burst { loop with ring := ring } := by
  have lost : lost marked { loop with ring := ring } = loop.lost marked :=
    lost_append marked room.inside (by rw [history]; rfl)
  have unread : ring.history.unread.length = loop.ring.history.unread.length + 1 := by
    rw [history, sound.ring.history.unread_append_enqueued, List.length_append]
    rfl
  have full : loop.Full burst → Full burst { loop with ring := ring } := by
    simp only [Full]
    omega
  refine ⟨?_, ?_, ?_, fun call here => ?_, fun call seen here => ?_, fun enter => ⟨?_, ?_⟩⟩
  · change marked ≤ ring.history.log.length
    rw [history]
    exact Nat.le_trans room.inside (by simp [EventRing.History.append])
  · exact kept.consumer ▸ room.paced
  · rw [lost]
    exact room.few.imp_right full
  · cases producer.symm.trans here
  · cases producer.symm.trans here
  · rw [lost]
    exact (room.fresh enter).1.imp_right full
  · intro call seen here
    cases producer.symm.trans here

theorem produce_room {ticks : UInt64} (sound : Sound loop) (unrefused : Unrefused loop)
    (permitted : uncontended (.produce ticks : Label port) loop)
    (room : Room marked burst loop) (moved : EventRing.produce ticks loop.ring = some ring) :
    Room marked burst { loop with ring := ring } := by
  have kept := EventRing.produce_kept moved
  cases producer : loop.ring.producer with
  | idle => simp [EventRing.produce, producer] at moved
  | refuse call => exact absurd producer (unrefused.producer call)
  | exchange call =>
      have free : loop.ring.shared.eventLock = false := permitted (by rw [producer]; rfl)
      simp only [EventRing.produce, producer, free] at moved
      cases moved
      exact room.quiet kept rfl (fun _ here => by cases here) (fun _ _ here => by cases here)
  | loadTail call =>
      simp only [EventRing.produce, producer] at moved
      cases moved
      refine ⟨room.inside, room.paced, room.few, fun _ here => (by cases here),
        fun other seen here => ?_, fun enter => ⟨(room.fresh enter).1, fun other seen here => ?_⟩⟩
      · cases here
        have bounded : loop.ring.history.unread.length ≤ 8192 := sound.ring.ring.bounded
        exact ⟨0, (UInt32.add_zero _).symm, (Nat.zero_add _).symm ▸ bounded,
          .inr (.inr (Nat.zero_le _))⟩
      · cases here
        rfl
  | test call seen =>
      simp only [EventRing.produce, producer] at moved
      split at moved
      next full =>
        cases moved
        exact test_room sound room producer full
      next =>
        cases moved
        exact room.quiet kept rfl (fun _ here => by cases here) (fun _ _ here => by cases here)
  | fill call seen event field =>
      simp only [EventRing.produce, producer] at moved
      split at moved <;> cases moved
      · exact room.quiet kept rfl (fun _ here => by cases here) (fun _ _ here => by cases here)
      · exact fill_room sound room kept rfl rfl
  | _ =>
      simp only [EventRing.produce, producer] at moved
      cases moved
      exact room.quiet kept rfl (fun _ here => by cases here) (fun _ _ here => by cases here)

/-- A step of an operation that retires nothing. -/
theorem Room.looking (room : Room marked burst loop) (kept : EventRing.ProducerKept loop.ring ring)
    (tail : ring.shared.eventTail = loop.ring.shared.eventTail)
    (retired : ring.history.retired = loop.ring.history.retired)
    (claimed : claims ring.consumer = claims loop.ring.consumer) :
    Room marked burst (loop.served ring) := by
  have unread : ring.history.unread = loop.ring.history.unread := by
    rw [EventRing.History.unread, kept.enqueued, retired]
    rfl
  have lost : lost marked (loop.served ring) = loop.lost marked := by
    simp only [Loop.lost, served, kept.log]
  have full : Full burst (loop.served ring) ↔ loop.Full burst := by
    simp only [Full, served, unread]
  refine ⟨?_, ?_, ?_, fun call here => ?_, fun call seen here => ?_, fun enter => ⟨?_, ?_⟩⟩
  · exact (congrArg List.length kept.log) ▸ room.inside
  · exact claimed ▸ room.paced
  · rw [lost, full]
    exact room.few
  · rw [lost]
    exact room.overflow call (kept.producer ▸ here)
  · obtain ⟨popped, moved, window, stale⟩ := room.stale call seen (kept.producer ▸ here)
    refine ⟨popped, tail.trans moved, ?_, ?_⟩
    · change popped + ring.history.unread.length ≤ 8192
      rwa [unread]
    · rw [lost, full]
      exact stale
  · rw [lost, full]
    exact (room.fresh enter).1
  · intro call seen here
    exact ((room.fresh enter).2 call seen (kept.producer ▸ here)).trans tail.symm

/-- An event leaves the ring by a pop. -/
theorem pop_room {seen : UInt32} (sound : Sound loop) (room : Room marked burst loop)
    (consumer : loop.ring.consumer = .advance seen)
    (moved : EventRing.consume loop.ring = some ring) :
    Room marked (burst + 1) (loop.served ring) := by
  have kept := EventRing.consume_kept moved
  obtain ⟨claimed, tail, history⟩ := EventRing.consume_advance consumer moved
  have holds := sound.ring.consumer
  rw [consumer] at holds
  obtain ⟨same, nonempty⟩ := holds
  obtain ⟨processed, position⟩ := sound.drain (by rw [consumer]; rfl)
  have unread : ring.history.unread.length + 1 = loop.ring.history.unread.length := by
    have positive := List.length_pos_iff.mpr nonempty
    rw [history, EventRing.History.unread_pop, List.length_tail]
    omega
  have lost : lost marked (loop.served ring) = loop.lost marked := by
    simp only [Loop.lost, served, kept.log]
  have full : loop.Full burst → Full (burst + 1) (loop.served ring) := by
    simp only [Full, served]
    omega
  refine ⟨?_, ?_, ?_, fun call here => ?_, fun call testing here => ?_,
    fun enter => by cases position.symm.trans enter⟩
  · exact (congrArg List.length kept.log) ▸ room.inside
  · have paced := room.paced
    rw [consumer] at paced
    change burst + 1 + claims ring.consumer ≤ _
    rw [claimed]
    exact paced
  · rw [lost]
    exact room.few.imp_right full
  · rw [lost]
    exact room.overflow call (kept.producer ▸ here)
  · obtain ⟨popped, moved, window, stale⟩ := room.stale call testing (kept.producer ▸ here)
    refine ⟨popped + 1, ?_, ?_, ?_⟩
    · change ring.shared.eventTail = _
      rw [tail, same, moved, UInt32.ofNat_add, UInt32.add_assoc]
      rfl
    · change popped + 1 + ring.history.unread.length ≤ 8192
      omega
    · rw [lost]
      refine stale.imp_right (Or.imp full fun near => ?_)
      simp only [slack, position] at near
      simp only [slack, served, position]
      omega

/-- A snapshot takes everything, and every drop is known. -/
theorem cut_room {head : UInt32} (sound : Sound loop)
    (consumer : loop.ring.consumer = .discard head)
    (moved : EventRing.consume loop.ring = some ring) :
    Room loop.ring.history.log.length 0 (loop.served ring) := by
  have kept := EventRing.consume_kept moved
  obtain ⟨finished, -, -, -⟩ := EventRing.consume_discard consumer moved
  have exclusive : ¬ loop.ring.producer.locked = true := by
    have exclusive := sound.ring.exclusive
    rw [consumer] at exclusive
    exact fun locked => exclusive ⟨locked, rfl⟩
  have recovered := sound.recovered (by rw [consumer]; rfl)
  have none : lost loop.ring.history.log.length (loop.served ring) = 0 := by
    simp [lost, served, kept.log]
  refine ⟨?_, ?_, .inl (none ▸ Nat.zero_le _), fun call here => ?_, fun call seen here => ?_,
    fun enter => by cases recovered.symm.trans enter⟩
  · exact Nat.le_of_eq (congrArg List.length kept.log).symm
  · change 0 + claims ring.consumer ≤ _
    rw [finished]
    exact Nat.zero_le _
  · have producer : loop.ring.producer = .overflow call := kept.producer ▸ here
    rw [producer] at exclusive
    exact absurd rfl exclusive
  · have producer : loop.ring.producer = .test call seen := kept.producer ▸ here
    rw [producer] at exclusive
    exact absurd rfl exclusive

/-- Any other step of an operation. -/
theorem other_room (sound : Sound loop) (ordered : Ordered loop) (room : Room marked burst loop)
    (moved : EventRing.consume loop.ring = some ring)
    (pops : ∀ seen, loop.ring.consumer ≠ .advance seen)
    (cuts : ∀ head, loop.ring.consumer ≠ .discard head) :
    Room marked burst (loop.served ring) := by
  have kept := EventRing.consume_kept moved
  have retired := (EventRing.consume_retired moved pops cuts).1
  cases consumer : loop.ring.consumer with
  | idle => simp [EventRing.consume, consumer] at moved
  | advance seen => exact absurd consumer (pops seen)
  | discard head => exact absurd consumer (cuts head)
  | pop =>
      have present := claimed_present sound ordered (by rw [consumer]; rfl)
      simp only [EventRing.consume, consumer, if_neg present] at moved
      cases moved
      exact room.looking kept rfl retired (by rw [consumer]; rfl)
  | peek | copy | snapshot =>
      simp only [EventRing.consume, consumer] at moved
      split at moved <;> cases moved <;> exact room.looking kept rfl retired (by rw [consumer]; rfl)
  | _ =>
      simp only [EventRing.consume, consumer] at moved
      cases moved
      exact room.looking kept rfl retired (by rw [consumer]; rfl)

end Captures

/-- A step between two operations that keeps the burst. -/
theorem Room.moved (operation : EventRing.Consumer) (room : Room marked burst loop)
    (ring : next.ring = { loop.ring with consumer := operation })
    (paced : burst + claims operation ≤ next.position.limit) (entered : next.position ≠ .enter)
    (near : loop.slack burst ≤ next.slack burst ∨ loop.lost marked = 0 ∨ loop.Full burst ∨
      loop.ring.producer.undropped ≠ 0) : Room marked burst next := by
  have lost : next.lost marked = loop.lost marked := by simp only [Loop.lost, ring]
  have full : next.Full burst ↔ loop.Full burst := by simp only [Full, ring]
  refine ⟨?_, ?_, ?_, fun call here => ?_, fun call seen here => ?_,
    fun enter => absurd enter entered⟩
  · rw [ring]
    exact room.inside
  · rw [ring]
    exact paced
  · rw [lost, full]
    exact room.few
  · rw [lost]
    rw [ring] at here
    exact room.overflow call here
  · rw [lost, full, ring]
    rw [ring] at here
    obtain ⟨popped, moved, window, stale⟩ := room.stale call seen here
    refine ⟨popped, moved, window, ?_⟩
    rcases near with more | none | full | counting
    · exact stale.imp_right (Or.imp_right fun few => Nat.le_trans few more)
    · exact .inl none
    · exact .inr (.inl full)
    · rw [here] at counting
      exact absurd rfl counting

/-- After the test the ring has room for everything that a frame pops. -/
theorem pass_room {now : UInt64} (sound : Sound loop) (room : Room marked burst loop)
    (idle : loop.ring.consumer = .idle) (here : loop.position = .pending now)
    (few : ¬ 6144 ≤ loop.ring.shared.eventHead - loop.ring.shared.eventTail) :
    ¬ loop.Full burst ∧ Room marked 0 { loop with position := .wait } := by
  have notFull : ¬ loop.Full burst := by
    have paced := room.paced
    rw [here, idle] at paced
    have pending := sound.ring.ring.pending
    rw [UInt32.le_iff_toNat_le, pending] at few
    simp only [UInt32.reduceToNat] at few
    simp only [Position.limit, claims] at paced
    simp only [Full]
    omega
  refine ⟨notFull, room.inside, ?_, ?_, room.overflow, fun call seen testing => ?_,
    fun enter => by cases enter⟩
  · change 0 + claims loop.ring.consumer ≤ 0
    rw [idle]
    exact Nat.le_refl _
  · exact .inl (room.few.resolve_right notFull)
  · obtain ⟨popped, moved, window, stale⟩ := room.stale call seen testing
    refine ⟨popped, moved, window, ?_⟩
    rcases stale with none | full | near
    · exact .inl none
    · exact absurd full notFull
    · simp only [slack, here] at near
      exact .inr (.inr near)

variable [Floating F] [Floating D]

/-- `unnoticed` is what the test for a drop tells, `restored` what a restore leaves. -/
theorem Move.room (sound : Sound loop) (bounded : Bounded loop) (room : Room marked burst loop)
    (unnoticed : ∀ now, loop.position = .dropped now →
      loop.ring.shared.dropped = loop.lastDrop →
        loop.lost marked = 0 ∨ loop.Full burst ∨ loop.ring.producer.undropped ≠ 0)
    (restored : loop.position = .recovered → loop.ring.out.taken = true → burst = 0)
    (idle : loop.ring.consumer = .idle) (move : Move port timing loop next) :
    Room marked burst next ∨
      (next.position = .wait ∧ ¬ next.Full burst ∧ Room marked 0 next) := by
  have paced := room.paced
  have bound := bounded.paced
  rw [idle] at paced
  cases move with
  | pass now here _ few =>
      obtain ⟨notFull, room⟩ := pass_room sound room idle here few
      exact .inr ⟨rfl, notFull, room⟩
  | intact now here same =>
      rw [here] at paced
      exact .inl (room.moved loop.ring.consumer rfl (idle ▸ paced)
        (fun enter => by cases enter) (.inr (unnoticed now here same)))
  | restore _ here taken =>
      have none := restored here taken
      refine .inl (room.moved loop.ring.consumer rfl ?_ (fun enter => by cases enter)
        (.inl ?_))
      · rw [none, idle]
        exact Nat.le_refl _
      · simp only [slack, here]
        exact Nat.le_refl _
  | early | full => exact .inl room
  | enough processed here | drained processed here =>
      rw [here] at paced bound
      simp only [Position.limit] at paced
      refine .inl (room.moved _ rfl ?_ (fun enter => by cases enter) (.inl ?_))
      · simp only [claims, Position.limit] at paced ⊢
        have handled := bound.2
        omega
      · simp only [slack, here]
        exact Nat.le_refl _
  | apply processed here =>
      rw [here] at paced
      refine .inl (room.moved .pop rfl ?_ (fun enter => by cases enter) (.inl ?_))
      · simp only [claims, Position.limit, Loop.apply, call] at paced ⊢
        omega
      · simp only [slack, here, Loop.apply, call]
        exact Nat.le_refl _
  | lost _ here | behind _ here | look _ here =>
      rw [here] at paced
      refine .inl (room.moved _ rfl paced (fun enter => by cases enter) (.inl ?_))
      simp only [slack, here]
      first | exact Nat.zero_le _ | exact Nat.le_refl _
  | enter here | start _ here | adopt _ here | retry here | paced here | decide here
  | emit _ _ _ _ here | stall _ _ _ _ here | left _ _ _ _ here | right _ _ _ here
  | advance _ here =>
      rw [here] at paced
      refine .inl (room.moved loop.ring.consumer rfl ?_ (fun enter => by cases enter)
        (.inl ?_))
      · rw [idle]
        first | exact paced | exact Nat.le_trans paced (Nat.zero_le _)
      · simp only [slack, here]
        exact Nat.le_refl _

end Loop

end Paulastorm.Poc
