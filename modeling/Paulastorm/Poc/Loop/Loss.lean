import Paulastorm.Poc.Loop.Room

namespace Paulastorm.Poc

/-! No register write is lost for good, unless it finds the lock held.

A dropped write is in the producer's shadow, and the drop counter tells the loop of it.
The loop's registers and the unread events together are the fold of every call,
unless there is a drop that the loop has not recovered from.
-/

open Paulastorm.Core Mirror Probe
open Library (Machine)

/-- One event on a register bank. -/
def deliver (bank : Bank) (event : Event) : Bank :=
  bank.writeOffset (event.address &&& 0xffe).toNat (busWord event.value event.width)

section Deliver

variable {call : Mirror.Call} {first second : Bank}

theorem deliver_event (wellFormed : call.WellFormed) (bank : Bank) (ticks : UInt64) :
    deliver bank (call.event ticks) = bank.writeOffset call.offset call.word := by
  rw [deliver, Mirror.Call.busWord_event wellFormed]
  rfl

theorem deliverable_event (wellFormed : call.WellFormed) (ticks : UInt64) :
    Deliverable (call.event ticks) := by
  rcases wellFormed with byte | ⟨word, even⟩
  · exact .inl (by rw [Mirror.Call.event, byte]; rfl)
  · exact .inr ⟨by rw [Mirror.Call.event, word]; rfl, even⟩

theorem foldl_deliver_withoutIntreq (same : first.withoutIntreq = second.withoutIntreq)
    (events : List Event) :
    (events.foldl deliver first).withoutIntreq = (events.foldl deliver second).withoutIntreq := by
  induction events generalizing first second with
  | nil => exact same
  | cons event rest ih => exact ih (Bank.writeOffset_withoutIntreq same _ _)

end Deliver

namespace Loop

variable {F D σ : Type} {port : Port σ} {timing : Timing}

/-- The loop knows of every drop up to its last cut. -/
structure Noted (marked burst : Nat) (loop : Loop F D σ) : Prop where
  last : loop.position ≠ .enter → loop.unrestored = 0 →
    loop.lastDrop = UInt32.ofNat (loop.known marked) ∨ loop.Full burst
  sampled : ∀ head, loop.ring.consumer = .discard head →
    loop.ring.out.snapshot.dropped = UInt32.ofNat loop.ring.history.refusals
  cut : loop.unrestored ≠ 0 → burst = 0 ∧
    loop.ring.out.snapshot.dropped = UInt32.ofNat (loop.known marked)

/-- What is latched once the snapshot is restored and the unread events are applied. -/
def foreseen (loop : Loop F D σ) : Bank :=
  (loop.ring.history.unread.drop (claims loop.ring.consumer)).foldl deliver
    (if loop.unrestored = 0 then loop.replay.live.core.bank else loop.ring.out.snapshot.bank)

/-- Without an unnoticed drop, what is foreseen is the fold of every call. -/
structure Latches (marked : Nat) (loop : Loop F D σ) : Prop where
  shadow : loop.unrestored ≠ 0 → ∃ calls, loop.ring.out.snapshot.toLatest = .ofCalls calls
  bank : loop.lost marked = 0 → loop.foreseen.withoutIntreq =
    (bankOf (loop.ring.history.log.map EventRing.Entry.call)).withoutIntreq

variable {marked burst : Nat} {loop next : Loop F D σ} {label : Label port}

theorem refusals_eq (marked : Nat) (loop : Loop F D σ) :
    loop.ring.history.refusals = loop.known marked + loop.lost marked := by
  rw [EventRing.History.refusals, known, lost, ← List.countP_append, List.take_append_drop]

/-- A drop that the loop has not noticed yet: at most one, unless the ring was full. -/
theorem lost_of_unnoticed (sound : Sound loop) (room : Room marked burst loop)
    (noted : Noted marked burst loop) (entered : loop.position ≠ .enter)
    (restored : loop.unrestored = 0) (same : loop.ring.shared.dropped = loop.lastDrop)
    (counted : loop.ring.producer.undropped = 0) : loop.lost marked = 0 ∨ loop.Full burst := by
  rcases noted.last entered restored with last | full
  · have dropped := sound.ring.dropped
    rw [counted, UInt32.add_zero, same, last, refusals_eq marked, UInt32.ofNat_add] at dropped
    have zero : UInt32.ofNat (loop.lost marked) = 0 := by
      have cancelled := congrArg (· - UInt32.ofNat (loop.known marked)) dropped
      simp only [UInt32.sub_self] at cancelled
      rw [UInt32.add_comm, UInt32.add_sub_cancel] at cancelled
      exact cancelled.symm
    rcases room.few with few | full
    · refine .inl ?_
      have small : loop.lost marked < 2 ^ 32 := by omega
      have value := congrArg UInt32.toNat zero
      rwa [UInt32.toNat_ofNat_of_lt' small] at value
    · exact .inr full
  · exact .inr full

section Captures

variable {ring : EventRing.State}

/-- A call that got an event into the ring, or is about to, is a call of the run. -/
theorem enqueued_call (sound : Sound loop) (unrefused : Unrefused loop) {event : Event}
    (member : event ∈ loop.ring.history.enqueued) :
    ∃ call : Mirror.Call, call.WellFormed ∧ ∃ ticks, event = call.event ticks := by
  obtain ⟨entry, logged, kept⟩ := List.mem_filterMap.mp member
  have accepted : entry.call ∈ loop.ring.history.accepted := by
    rw [sound.ring.accepted]
    exact List.mem_append_left _ (List.mem_map_of_mem logged)
  refine ⟨entry.call, unrefused.wellFormed _ accepted, ?_⟩
  have fate : entry.fate = .enqueued event := by
    cases fate : entry.fate <;> simp only [EventRing.Entry.event?, fate, reduceCtorEq] at kept
    rw [Option.some.inj kept]
  exact sound.ring.history.events entry logged event fate

theorem claims_le (sound : Sound loop) (ordered : Ordered loop) :
    claims loop.ring.consumer ≤ loop.ring.history.unread.length := by
  cases count : claims loop.ring.consumer with
  | zero => exact Nat.zero_le _
  | succ more =>
      have one : claims loop.ring.consumer = 1 := by
        cases consumer : loop.ring.consumer <;> rw [consumer] at count <;>
          first | rfl | cases count
      have present := claimed_present sound ordered one
      have nonempty : loop.ring.history.unread ≠ [] :=
        fun none => present (sound.ring.ring.head_eq_tail_iff.mpr none).symm
      rw [← count, one]
      exact List.length_pos_iff.mpr nonempty

/-- A step of CPU0 leaves what the loop knows. -/
theorem kept_noted (more : List EventRing.Entry) (room : Room marked burst loop)
    (noted : Noted marked burst loop) (kept : EventRing.ConsumerKept loop.ring ring)
    (log : ring.history.log = loop.ring.history.log ++ more)
    (full : loop.Full burst → Full burst { loop with ring := ring })
    (settled : ∀ head, loop.ring.consumer = .discard head → more = []) :
    Noted marked burst { loop with ring := ring } := by
  have known : known marked { loop with ring := ring } = loop.known marked := by
    simp only [Loop.known, log]
    rw [List.take_append_of_le_length room.inside]
  have unrestored := unrestored_kept kept
  refine ⟨fun entered restored => ?_, fun head here => ?_, fun cut => ?_⟩
  · rw [known]
    exact (noted.last entered (unrestored ▸ restored)).imp_right full
  · have discarding := kept.consumer ▸ here
    have same := settled head discarding
    change ring.out.snapshot.dropped = UInt32.ofNat (ring.history.log.countP EventRing.Entry.refused)
    rw [kept.out, log, same, List.append_nil]
    exact noted.sampled head discarding
  · rw [known]
    change _ ∧ ring.out.snapshot.dropped = _
    rw [kept.out]
    exact noted.cut (unrestored ▸ cut)

theorem capture_noted {call : Mirror.Call} (room : Room marked burst loop)
    (noted : Noted marked burst loop) (entered : EventRing.capture call loop.ring = some ring) :
    Noted marked burst { loop with ring := ring } := by
  obtain ⟨kept, log⟩ := EventRing.capture_kept entered
  refine kept_noted [] room noted kept (by rw [log, List.append_nil]) (fun full => ?_)
    fun _ _ => rfl
  change 8192 ≤ ring.history.unread.length + burst
  rw [EventRing.History.unread, EventRing.History.enqueued, log, kept.retired]
  exact full

theorem capture_latches {call : Mirror.Call} (latches : Latches marked loop)
    (entered : EventRing.capture call loop.ring = some ring) :
    Latches marked { loop with ring := ring } := by
  rcases capture_cases entered with rfl | rfl
  · exact latches
  · exact ⟨latches.shadow, latches.bank⟩

theorem produce_full {ticks : UInt64} (sound : Sound loop)
    (moved : EventRing.produce ticks loop.ring = some ring) (full : loop.Full burst) :
    Full burst { loop with ring := ring } := by
  have unread := EventRing.unread_grows sound.ring.history.retiredBound
    (EventRing.produce_kept moved).retired (EventRing.produce_enqueued moved)
  change 8192 ≤ ring.history.unread.length + burst
  rw [unread, List.length_append]
  simp only [Full] at full
  omega

theorem produce_noted {ticks : UInt64} (sound : Sound loop)
    (permitted : uncontended (.produce ticks : Label port) loop)
    (room : Room marked burst loop) (noted : Noted marked burst loop)
    (moved : EventRing.produce ticks loop.ring = some ring) :
    Noted marked burst { loop with ring := ring } := by
  have kept := EventRing.produce_kept moved
  have exclusive := sound.ring.exclusive
  have full : loop.Full burst → Full burst { loop with ring := ring } := produce_full sound moved
  rcases produce_settles permitted moved with
    same | ⟨call, seen, producer, _, history⟩ | ⟨call, seen, event, field, producer, history⟩
  · exact kept_noted [] room noted kept (by rw [same, List.append_nil]) full
      fun _ _ => rfl
  · refine kept_noted _ room noted kept (by rw [history]; rfl) full fun head discarding => ?_
    rw [producer, discarding] at exclusive
    exact absurd ⟨rfl, rfl⟩ exclusive
  · refine kept_noted _ room noted kept (by rw [history]; rfl) full fun head discarding => ?_
    rw [producer, discarding] at exclusive
    exact absurd ⟨rfl, rfl⟩ exclusive

theorem produce_latches {ticks : UInt64} (sound : Sound loop) (ordered : Ordered loop)
    (unrefused : Unrefused loop) (permitted : uncontended (.produce ticks : Label port) loop)
    (room : Room marked burst loop) (latches : Latches marked loop)
    (moved : EventRing.produce ticks loop.ring = some ring) :
    Latches marked { loop with ring := ring } := by
  have kept := EventRing.produce_kept moved
  have unrestored := unrestored_kept kept
  refine ⟨fun cut => ?_, fun none => ?_⟩
  · change ∃ calls, ring.out.snapshot.toLatest = _
    rw [kept.out]
    exact latches.shadow (unrestored ▸ cut)
  · have foreseen : ∀ more, ring.history.unread = loop.ring.history.unread ++ more →
        foreseen { loop with ring := ring } = more.foldl deliver loop.foreseen := by
      intro more unread
      have bound := claims_le sound ordered
      simp only [Loop.foreseen, unrestored]
      rw [unread, kept.consumer, kept.out, List.drop_append_of_le_length bound, List.foldl_append]
    rcases produce_settles permitted moved with
      same | ⟨call, seen, producer, _, history⟩ | ⟨call, seen, event, field, producer, history⟩
    · rw [foreseen [] (by rw [same, List.append_nil])]
      change _ = (bankOf (ring.history.log.map _)).withoutIntreq
      rw [same]
      exact latches.bank (by simpa only [lost, same] using none)
    · have dropped := lost_append marked room.inside
        (show ring.history.log = loop.ring.history.log ++ [⟨call, .full⟩] by rw [history]; rfl)
      rw [none] at dropped
      exact absurd dropped.symm (Nat.succ_ne_zero _)
    · have lost := lost_append marked room.inside
        (show ring.history.log = loop.ring.history.log ++ [⟨call, .enqueued event⟩] by
          rw [history]; rfl)
      have unread : ring.history.unread = loop.ring.history.unread ++ [event] := by
        rw [history]
        exact sound.ring.history.unread_append_enqueued
      have holds := sound.ring.producer
      have accepted := sound.ring.accepted
      rw [producer] at holds accepted
      obtain ⟨_, ⟨stamp, stamped⟩, _⟩ := holds
      have wellFormed : call.WellFormed := by
        refine unrefused.wellFormed call ?_
        rw [accepted]
        exact List.mem_append_right _ (List.mem_singleton.mpr rfl)
      rw [foreseen [event] unread]
      change _ = (bankOf (ring.history.log.map EventRing.Entry.call)).withoutIntreq
      have log : ring.history.log.map EventRing.Entry.call =
          loop.ring.history.log.map EventRing.Entry.call ++ [call] := by
        rw [history]
        exact List.map_append
      rw [log, bankOf_append_singleton, stamped]
      change (deliver _ _).withoutIntreq = _
      rw [deliver_event wellFormed]
      refine Bank.writeOffset_withoutIntreq (latches.bank ?_) _ _
      rw [none] at lost
      exact lost.symm

/-- A step of an operation that cuts nothing. -/
theorem served_uncut (sound : Sound loop) (moved : EventRing.consume loop.ring = some ring)
    (cuts : ∀ head, loop.ring.consumer ≠ .discard head) :
    (loop.served ring).unrestored = loop.unrestored ∧
      (loop.unrestored ≠ 0 → ring.out.snapshot = loop.ring.out.snapshot) := by
  constructor
  · have same : ring.history.cuts = loop.ring.history.cuts := by
      by_cases pops : ∃ seen, loop.ring.consumer = .advance seen
      · obtain ⟨seen, consumer⟩ := pops
        exact EventRing.consume_cuts moved (by rw [consumer]; exact fun snapshot => by cases snapshot)
      · exact (EventRing.consume_retired moved (fun seen here => pops ⟨seen, here⟩) cuts).2
    have balance := served_unrestored sound moved
    rw [same] at balance
    exact Nat.add_right_cancel balance
  · intro cut
    cases consumer : loop.ring.consumer <;>
      simp only [EventRing.consume, consumer, reduceCtorEq] at moved
    case copyLatest | loadDropped =>
      refine absurd ?_ cut
      unfold unrestored
      cases loop.position <;> simp [consumer]
    case peek | copy | pop | snapshot => split at moved <;> cases moved <;> rfl
    all_goals
      cases moved
      rfl

theorem served_known (moved : EventRing.consume loop.ring = some ring) :
    known marked (loop.served ring) = loop.known marked ∧
      lost marked (loop.served ring) = loop.lost marked := by
  have log := (EventRing.consume_kept moved).log
  exact ⟨by simp only [known, served, log], by simp only [lost, served, log]⟩

theorem pop_noted {seen : UInt32} (sound : Sound loop) (noted : Noted marked burst loop)
    (consumer : loop.ring.consumer = .advance seen)
    (moved : EventRing.consume loop.ring = some ring) :
    Noted marked (burst + 1) (loop.served ring) := by
  obtain ⟨popped, -, history⟩ := EventRing.consume_advance consumer moved
  obtain ⟨processed, position⟩ := sound.drain (by rw [consumer]; rfl)
  have away : loop.position ≠ .recovered := by
    rw [position]
    exact fun here => by cases here
  have none : (loop.served ring).unrestored = 0 := unrestored_elsewhere away
  refine ⟨fun entered _ => ?_, fun head here => ?_, fun cut => absurd none cut⟩
  · rw [(served_known moved).1]
    refine (noted.last entered (unrestored_elsewhere away)).imp_right fun full => ?_
    change 8192 ≤ ring.history.unread.length + (burst + 1)
    rw [history, EventRing.History.unread_pop, List.length_tail]
    simp only [Full] at full
    omega
  · cases popped.symm.trans here

theorem cut_noted {head : UInt32} (sound : Sound loop) (noted : Noted marked burst loop)
    (consumer : loop.ring.consumer = .discard head)
    (moved : EventRing.consume loop.ring = some ring) :
    Noted loop.ring.history.log.length 0 (loop.served ring) := by
  obtain ⟨finished, -, out, -⟩ := EventRing.consume_discard consumer moved
  have recovered := sound.recovered (by rw [consumer]; rfl)
  have one : (loop.served ring).unrestored = 1 := by
    simp [unrestored, served, recovered, finished]
  refine ⟨fun _ restored => ?_, fun head here => ?_, fun _ => ⟨rfl, ?_⟩⟩
  · rw [one] at restored
    cases restored
  · cases finished.symm.trans here
  · change ring.out.snapshot.dropped = _
    rw [(served_known moved).1, known, List.take_length, out]
    exact noted.sampled head consumer

/-- Any other step of an operation, the load of the drop counter among them. -/
theorem other_noted (sound : Sound loop) (unrefused : Unrefused loop)
    (noted : Noted marked burst loop) (moved : EventRing.consume loop.ring = some ring)
    (pops : ∀ seen, loop.ring.consumer ≠ .advance seen)
    (cuts : ∀ head, loop.ring.consumer ≠ .discard head) :
    Noted marked burst (loop.served ring) := by
  have kept := EventRing.consume_kept moved
  obtain ⟨restoring, snapshot⟩ := served_uncut sound moved cuts
  refine ⟨fun entered restored => ?_, fun head (here : ring.consumer = .discard head) => ?_,
    fun cut => ?_⟩
  · rw [(served_known moved).1]
    refine (noted.last entered (restoring ▸ restored)).imp_right fun full => ?_
    change 8192 ≤ ring.history.unread.length + burst
    rw [EventRing.History.unread, kept.enqueued, (EventRing.consume_retired moved pops cuts).1]
    exact full
  · change ring.out.snapshot.dropped = UInt32.ofNat (ring.history.log.countP _)
    rw [kept.log]
    have dropped := sound.ring.dropped
    have exclusive := sound.ring.exclusive
    cases consumer : loop.ring.consumer <;> rw [consumer] at exclusive <;>
      simp only [EventRing.consume, consumer, reduceCtorEq] at moved
    case loadDropped =>
      cases moved
      have counted : loop.ring.producer.undropped = 0 := by
        cases producer : loop.ring.producer with
        | refuse call => exact absurd producer (unrefused.producer call)
        | overflow call =>
            rw [producer] at exclusive
            exact absurd ⟨rfl, rfl⟩ exclusive
        | _ => rfl
      rwa [counted, UInt32.add_zero] at dropped
    case peek | copy | pop | snapshot => split at moved <;> cases moved <;> cases here
    all_goals
      cases moved
      cases here
  · rw [(served_known moved).1]
    have before : loop.unrestored ≠ 0 := restoring ▸ cut
    change _ ∧ ring.out.snapshot.dropped = _
    rw [snapshot before]
    exact noted.cut before

theorem served_latches (sound : Sound loop) (ordered : Ordered loop)
    (latches : Latches marked loop) (moved : EventRing.consume loop.ring = some ring)
    (cuts : ∀ head, loop.ring.consumer ≠ .discard head) :
    Latches marked (loop.served ring) := by
  have kept := EventRing.consume_kept moved
  obtain ⟨restoring, snapshot⟩ := served_uncut sound moved cuts
  have claimed : ring.history.unread.drop (claims ring.consumer) =
      loop.ring.history.unread.drop (claims loop.ring.consumer) := by
    cases consumer : loop.ring.consumer with
    | advance seen =>
        obtain ⟨popped, -, history⟩ := EventRing.consume_advance consumer moved
        rw [popped, history, EventRing.History.unread_pop, ← List.drop_one]
        rfl
    | discard head => exact absurd consumer (cuts head)
    | pop =>
        have present := claimed_present sound ordered (by rw [consumer]; rfl)
        simp only [EventRing.consume, consumer, if_neg present] at moved
        cases moved
        rfl
    | idle => simp [EventRing.consume, consumer] at moved
    | peek | copy | snapshot =>
        simp only [EventRing.consume, consumer] at moved
        split at moved <;> cases moved <;> rfl
    | _ =>
        simp only [EventRing.consume, consumer] at moved
        cases moved
        rfl
  refine ⟨fun cut => ?_, fun none => ?_⟩
  · change ∃ calls, ring.out.snapshot.toLatest = _
    have before : loop.unrestored ≠ 0 := restoring ▸ cut
    rw [snapshot before]
    exact latches.shadow before
  · have same : (loop.served ring).foreseen = loop.foreseen := by
      simp only [foreseen, restoring]
      split
      · exact congrArg (List.foldl deliver _) claimed
      next cut =>
        change List.foldl deliver ring.out.snapshot.bank (ring.history.unread.drop _) = _
        rw [snapshot cut]
        exact congrArg (List.foldl deliver _) claimed
    rw [same]
    change _ = (bankOf (ring.history.log.map EventRing.Entry.call)).withoutIntreq
    rw [kept.log]
    exact latches.bank ((served_known moved).2 ▸ none)

theorem cut_latches {head : UInt32} (sound : Sound loop) (unrefused : Unrefused loop)
    (consumer : loop.ring.consumer = .discard head)
    (moved : EventRing.consume loop.ring = some ring) :
    Latches loop.ring.history.log.length (loop.served ring) := by
  obtain ⟨finished, -, out, history⟩ := EventRing.consume_discard consumer moved
  have recovered := sound.recovered (by rw [consumer]; rfl)
  have one : (loop.served ring).unrestored = 1 := by
    simp [unrestored, served, recovered, finished]
  have holds := sound.ring.consumer
  have exclusive := sound.ring.exclusive
  rw [consumer] at holds exclusive
  have settled : loop.ring.producer.shadowed = [] := by
    cases producer : loop.ring.producer <;>
      first | rfl | (rw [producer] at exclusive; exact absurd ⟨rfl, rfl⟩ exclusive)
  have shadow : ring.out.snapshot.toLatest =
      .ofCalls (loop.ring.history.log.map EventRing.Entry.call) := by
    rw [out, holds.2.1, sound.ring.shadow, settled, List.append_nil, unrefused.locked]
  refine ⟨fun _ => ⟨_, shadow⟩, fun _ => ?_⟩
  have none : ring.history.unread = [] := by
    rw [history]
    exact sound.ring.history.unread_cut
  simp only [foreseen, one]
  change (List.foldl deliver ring.out.snapshot.bank (ring.history.unread.drop _)).withoutIntreq =
    (bankOf (ring.history.log.map EventRing.Entry.call)).withoutIntreq
  rw [none, List.drop_nil, (EventRing.consume_kept moved).log]
  change ring.out.snapshot.toLatest.bank.withoutIntreq = _
  rw [shadow, Latest.bank_ofCalls]

end Captures

/-- A step between two operations that does not cut. -/
theorem noted_of_uncut (operation : EventRing.Consumer)
    (ring : next.ring = { loop.ring with consumer := operation })
    (begins : ∀ head, operation ≠ .discard head) (restored : next.unrestored = 0)
    (last : next.lastDrop = UInt32.ofNat (loop.known marked) ∨ loop.Full burst) :
    Noted marked burst next := by
  refine ⟨fun _ _ => ?_, fun head here => ?_, fun cut => absurd restored cut⟩
  · simpa only [known, Full, ring] using last
  · rw [ring] at here
    exact absurd here (begins head)

/-- After the test for a long backlog the burst starts again. -/
theorem Noted.calm (noted : Noted marked burst loop) (notFull : ¬ loop.Full burst)
    (away : loop.position ≠ .recovered) : Noted marked 0 loop where
  last entered restored := .inl ((noted.last entered restored).resolve_right notFull)
  sampled := noted.sampled
  cut cut := absurd (unrestored_elsewhere away) cut

theorem Latches.moved (operation : EventRing.Consumer) (latches : Latches marked loop)
    (idle : loop.ring.consumer = .idle)
    (ring : next.ring = { loop.ring with consumer := operation })
    (claimed : claims operation = 0) (before : loop.unrestored = 0) (after : next.unrestored = 0)
    (bank : next.replay.live.core.bank.withoutIntreq =
      loop.replay.live.core.bank.withoutIntreq) : Latches marked next := by
  refine ⟨fun cut => absurd after cut, fun none => ?_⟩
  have lost : next.lost marked = loop.lost marked := by simp only [Loop.lost, ring]
  have completed := latches.bank (lost ▸ none)
  have unclaimed : claims loop.ring.consumer = 0 := by rw [idle]; rfl
  simp only [foreseen, if_pos before, unclaimed, List.drop_zero] at completed
  simp only [foreseen, if_pos after, ring, claimed, List.drop_zero]
  exact (foldl_deliver_withoutIntreq bank _).trans completed

/-- The drop counter is loaded for the first time. -/
theorem enter_known (sound : Sound loop) (unrefused : Unrefused loop)
    (room : Room marked burst loop) (here : loop.position = .enter) :
    loop.ring.shared.dropped = UInt32.ofNat (loop.known marked) ∨ loop.Full burst := by
  rcases (room.fresh here).1 with none | full
  · refine .inl ?_
    have counted : loop.ring.producer.undropped = 0 := by
      cases producer : loop.ring.producer with
      | refuse call => exact absurd producer (unrefused.producer call)
      | overflow call =>
          have some := room.overflow call producer
          rw [none] at some
          cases some
      | _ => rfl
    have dropped := sound.ring.dropped
    rwa [counted, UInt32.add_zero, refusals_eq marked, none, Nat.add_zero] at dropped
  · exact .inr full

/-- The event at the front is applied. -/
theorem apply_latches [Floating D] {processed : Nat} (sound : Sound loop) (unrefused : Unrefused loop)
    (latches : Latches marked loop) (idle : loop.ring.consumer = .idle)
    (here : loop.position = .peeked processed) (found : loop.ring.out.found = true) :
    Latches marked (loop.apply port processed) := by
  have before : loop.unrestored = 0 :=
    unrestored_elsewhere fun other => by cases here.symm.trans other
  have after : (loop.apply port processed).unrestored = 0 :=
    unrestored_elsewhere fun other => by cases other
  have looked := sound.looked (by rw [here]; rfl)
  rw [idle, Looked, if_pos found] at looked
  obtain ⟨rest, unread⟩ := List.head?_eq_some_iff.mp (sound.ring.history.peeked _ looked.2)
  obtain ⟨call, wellFormed, ticks, event⟩ := enqueued_call sound unrefused
    (List.mem_of_mem_drop (unread ▸ List.mem_cons_self :
      loop.ring.out.event ∈ loop.ring.history.unread))
  have bank : (applyLiveEvent port loop.ring.out.event loop.replay).live.core.bank =
      deliver loop.replay.live.core.bank loop.ring.out.event :=
    congrArg Latched.bank (applyLiveEvent_latched
      (event ▸ deliverable_event wellFormed ticks : Deliverable loop.ring.out.event) loop.replay)
  refine ⟨fun cut => absurd after cut, fun none => ?_⟩
  have completed := latches.bank none
  have unclaimed : claims loop.ring.consumer = 0 := by rw [idle]; rfl
  simp only [foreseen, if_pos before, unclaimed, List.drop_zero, unread] at completed
  simp only [foreseen, if_pos after]
  change (List.foldl deliver (applyLiveEvent port loop.ring.out.event loop.replay).live.core.bank
    (loop.ring.history.unread.drop 1)).withoutIntreq = _
  rw [unread, bank]
  exact completed

variable [Floating F] [Floating D]

theorem Move.noted (sound : Sound loop) (unrefused : Unrefused loop)
    (room : Room marked burst loop) (noted : Noted marked burst loop)
    (idle : loop.ring.consumer = .idle) (move : Move port timing loop next) :
    Noted marked burst next := by
  have last (entered : loop.position ≠ .enter) (away : loop.position ≠ .recovered) :=
    noted.last entered (unrestored_elsewhere away)
  have resting : ∀ head, loop.ring.consumer ≠ .discard head := fun head here => by
    cases idle.symm.trans here
  cases move with
  | early | full => exact noted
  | enter here =>
      exact noted_of_uncut loop.ring.consumer rfl resting
        (unrestored_elsewhere fun here => by cases here) (enter_known sound unrefused room here)
  | restore _ here taken =>
      have one : loop.unrestored ≠ 0 := by simp [unrestored, here, idle, taken]
      exact noted_of_uncut loop.ring.consumer rfl resting
        (unrestored_elsewhere fun here => by cases here) (.inl (noted.cut one).2)
  | retry here refused =>
      have none : loop.unrestored = 0 := by simp [unrestored, here, idle, refused]
      exact noted_of_uncut loop.ring.consumer rfl resting
        (unrestored_elsewhere fun here => by cases here)
        (noted.last (fun enter => by cases here.symm.trans enter) none)
  | lost _ here | behind _ here =>
      exact noted_of_uncut _ rfl (fun _ discard => by cases discard) rfl
        (last (fun other => by cases here.symm.trans other)
          fun other => by cases here.symm.trans other)
  | look _ here | enough _ here | drained _ here | apply _ here =>
      exact noted_of_uncut _ rfl (fun _ discard => by cases discard)
        (unrestored_elsewhere fun here => by cases here)
        (last (fun other => by cases here.symm.trans other)
          fun other => by cases here.symm.trans other)
  | start _ here | adopt _ here | intact _ here | pass _ here | paced here | decide here
  | emit _ _ _ _ here | stall _ _ _ _ here | left _ _ _ _ here | right _ _ _ here
  | advance _ here =>
      exact noted_of_uncut loop.ring.consumer rfl resting
        (unrestored_elsewhere fun here => by cases here)
        (last (fun other => by cases here.symm.trans other)
          fun other => by cases here.symm.trans other)

theorem Move.latches (sound : Sound loop) (unrefused : Unrefused loop)
    (latches : Latches marked loop) (idle : loop.ring.consumer = .idle)
    (move : Move port timing loop next) : Latches marked next := by
  have unclaimed : claims loop.ring.consumer = 0 := by rw [idle]; rfl
  cases move with
  | early | full => exact latches
  | apply processed here found => exact apply_latches sound unrefused latches idle here found
  | restore _ here taken =>
      have one : loop.unrestored = 1 := by simp [unrestored, here, idle, taken]
      have cut : loop.unrestored ≠ 0 := one ▸ Nat.one_ne_zero
      obtain ⟨calls, shadow⟩ := latches.shadow cut
      have wf : loop.ring.out.snapshot.Wf := shadow ▸ Latest.ofCalls_wf calls
      have bank := congrArg Latched.bank
        (restoreLiveState_latched port loop.ring.out.snapshot wf loop.replay)
      refine ⟨fun other => absurd rfl other, fun none => ?_⟩
      have completed := latches.bank none
      simp only [foreseen, if_neg cut] at completed
      change (List.foldl deliver
        (restoreLiveState port loop.ring.out.snapshot loop.replay).live.core.bank _).withoutIntreq = _
      rw [show (restoreLiveState port loop.ring.out.snapshot loop.replay).live.core.bank =
        loop.ring.out.snapshot.bank from bank]
      exact completed
  | retry here refused kept =>
      have none : loop.unrestored = 0 := by simp [unrestored, here, idle, refused]
      exact latches.moved loop.ring.consumer idle rfl unclaimed none rfl kept.bank
  | lost _ here _ kept | behind _ here kept =>
      exact latches.moved _ idle rfl rfl
        (unrestored_elsewhere fun other => by cases here.symm.trans other) rfl kept.bank
  | look _ here | enough _ here | drained _ here =>
      exact latches.moved _ idle rfl rfl
        (unrestored_elsewhere fun other => by cases here.symm.trans other) rfl rfl
  | adopt _ here kept | emit _ _ _ _ here kept | stall _ _ _ _ here kept | advance _ here kept =>
      exact latches.moved loop.ring.consumer idle rfl unclaimed
        (unrestored_elsewhere fun other => by cases here.symm.trans other) rfl kept.bank
  | enter here | start _ here | intact _ here | pass _ here | paced here | decide here
  | left _ _ _ _ here | right _ _ _ here =>
      exact latches.moved loop.ring.consumer idle rfl unclaimed
        (unrestored_elsewhere fun other => by cases here.symm.trans other) rfl rfl

end Loop

end Paulastorm.Poc
