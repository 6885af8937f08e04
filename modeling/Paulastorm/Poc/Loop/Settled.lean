import Paulastorm.Poc.Loop.Loss

namespace Paulastorm.Poc

/-! Once the captures have stopped, the loop recovers from every drop: over any run whose
captures never find the lock held, a loop that has tested the drop counter since, with no
recovery pending and no event left, holds the fold of every call.  A capture that finds the
lock held by a snapshot is counted in it, and lost.
-/

open Paulastorm.Core Mirror Probe
open Library (Machine)

namespace Loop

variable {F D σ : Type} {port : Port σ} {timing : Timing}

/-- What holds in every state of a run without contention. -/
structure Tracked (marked burst : Nat) (loop : Loop F D σ) : Prop where
  sound : Sound loop
  ordered : Ordered loop
  bounded : Bounded loop
  unrefused : Unrefused loop
  room : Room marked burst loop
  noted : Noted marked burst loop
  latches : Latches marked loop

/-- A loop that has tested the drop counter since it had done so `since` times, without
captures, has lost nothing, or is about to recover. -/
def Settled (since marked burst : Nat) (loop : Loop F D σ) : Prop :=
  since < loop.record.checks →
    loop.lost marked = 0 ∨ (loop.recoveryPending = true ∧ loop.unrestored = 0) ∨
      ((∃ now, loop.position = .pending now) ∧ loop.Full burst)

/-- CPU0 captures nothing. -/
def settling (label : Label port) (_ : Loop F D σ) : Prop :=
  match label with
  | .capture _ | .produce _ => False
  | _ => True

instance settling.decidable (label : Label port) (loop : Loop F D σ) :
    Decidable (settling label loop) :=
  match label with
  | .capture _ | .produce _ => inferInstanceAs (Decidable False)
  | .host _ | .cpu1 _ => inferInstanceAs (Decidable True)

/-- The audio register writes that a run passes to `paula_mirror_capture`. -/
def writes (labels : List (Label port)) : List Mirror.Call :=
  labels.flatMap fun label =>
    match label with
    | .capture call => if call.accepted then [call.masked] else []
    | _ => []

variable {since marked burst : Nat} {loop next : Loop F D σ} {label : Label port}

/-- What CPU0 does to the cache and the mailbox is no part of it. -/
theorem Tracked.host (tracked : Tracked marked burst loop) (host : σ) :
    Tracked marked burst { loop with replay.host := host } where
  sound := ⟨tracked.sound.ring, tracked.sound.staged, tracked.sound.looked, tracked.sound.pending⟩
  ordered := tracked.ordered.same rfl rfl rfl (.inl rfl)
  bounded := tracked.bounded.same rfl rfl tracked.bounded.paced
  unrefused :=
    ⟨tracked.unrefused.wellFormed, tracked.unrefused.locked, tracked.unrefused.producer⟩
  room := ⟨tracked.room.inside, tracked.room.paced, tracked.room.few, tracked.room.overflow,
    tracked.room.stale, tracked.room.fresh⟩
  noted := ⟨tracked.noted.last, tracked.noted.sampled, tracked.noted.cut⟩
  latches := ⟨tracked.latches.shadow, tracked.latches.bank⟩

theorem served_tracked {ring : EventRing.State} (tracked : Tracked marked burst loop)
    (settled : Settled since marked burst loop)
    (moved : EventRing.consume loop.ring = some ring) :
    ∃ marked burst, Tracked marked burst (loop.served ring) ∧
      Settled since marked burst (loop.served ring) := by
  obtain ⟨sound, ordered, bounded, unrefused, room, noted, latches⟩ := tracked
  have sound' := served_sound sound moved
  have ordered' := served_ordered sound ordered moved
  have bounded' : Bounded (loop.served ring) := bounded.same rfl rfl bounded.paced
  have unrefused' := served_unrefused unrefused moved
  by_cases pops : ∃ seen, loop.ring.consumer = .advance seen
  · obtain ⟨seen, consumer⟩ := pops
    have cuts : ∀ head, loop.ring.consumer ≠ .discard head := fun head here => by
      cases consumer.symm.trans here
    refine ⟨marked, burst + 1, ⟨sound', ordered', bounded', unrefused',
      pop_room sound room consumer moved, pop_noted sound noted consumer moved,
      served_latches sound ordered latches moved cuts⟩, fun later => ?_⟩
    rw [(served_known moved).2, (served_uncut sound moved cuts).1]
    refine (settled later).imp_right (Or.imp_right fun pending => ?_)
    obtain ⟨⟨now, here⟩, _⟩ := pending
    obtain ⟨processed, position⟩ := sound.drain (by rw [consumer]; rfl)
    cases position.symm.trans here
  · by_cases cut : ∃ head, loop.ring.consumer = .discard head
    · obtain ⟨head, consumer⟩ := cut
      refine ⟨_, 0, ⟨sound', ordered', bounded', unrefused', cut_room sound consumer moved,
        cut_noted sound noted consumer moved, cut_latches sound unrefused consumer moved⟩,
        fun _ => .inl ?_⟩
      simp [lost, served, (EventRing.consume_kept moved).log]
    · have others : (∀ seen, loop.ring.consumer ≠ .advance seen) ∧
          ∀ head, loop.ring.consumer ≠ .discard head :=
        ⟨fun seen here => pops ⟨seen, here⟩, fun head here => cut ⟨head, here⟩⟩
      refine ⟨marked, burst, ⟨sound', ordered', bounded', unrefused',
        other_room sound ordered room moved others.1 others.2,
        other_noted sound unrefused noted moved others.1 others.2,
        served_latches sound ordered latches moved others.2⟩, fun later => ?_⟩
      rw [(served_known moved).2, (served_uncut sound moved others.2).1]
      refine (settled later).imp_right (Or.imp_right (And.imp_right fun full => ?_))
      change 8192 ≤ ring.history.unread.length + burst
      rw [EventRing.History.unread, (EventRing.consume_kept moved).enqueued,
        (EventRing.consume_retired moved others.1 others.2).1]
      exact full

/-- What the test for a drop tells. -/
theorem Tracked.unnoticed (tracked : Tracked marked burst loop) {now : UInt64}
    (here : loop.position = .dropped now) (same : loop.ring.shared.dropped = loop.lastDrop) :
    loop.lost marked = 0 ∨ loop.Full burst ∨ loop.ring.producer.undropped ≠ 0 := by
  by_cases counted : loop.ring.producer.undropped = 0
  · have entered : loop.position ≠ .enter := fun other => by cases here.symm.trans other
    have away : loop.position ≠ .recovered := fun other => by cases here.symm.trans other
    exact (lost_of_unnoticed tracked.sound tracked.room tracked.noted entered
      (unrestored_elsewhere away) same counted).imp_right .inl
  · exact .inr (.inr counted)

/-- A settled loop with no recovery pending and no event left holds every call. -/
theorem Settled.bank (settled : Settled since marked burst loop)
    (tracked : Tracked marked burst loop) (resting : loop.ring.producer = .idle)
    (checked : since < loop.record.checks) (clear : loop.recoveryPending = false)
    (empty : loop.ring.shared.eventTail = loop.ring.shared.eventHead) :
    loop.replay.live.core.bank.withoutIntreq =
      (bankOf loop.ring.history.accepted).withoutIntreq := by
  have none : loop.ring.history.unread = [] :=
    tracked.sound.ring.ring.head_eq_tail_iff.mp empty.symm
  have lost : loop.lost marked = 0 := by
    rcases settled checked with lost | ⟨recovering, _⟩ | ⟨⟨now, here⟩, full⟩
    · exact lost
    · rw [clear] at recovering
      cases recovering
    · -- The burst of a frame cannot have emptied a full ring.
      have paced := tracked.room.paced
      rw [here] at paced
      simp only [Full, none, List.length_nil] at full
      simp only [Position.limit] at paced
      omega
  have restored : loop.unrestored = 0 := by
    refine unrestored_elsewhere fun here => ?_
    have recovering := tracked.sound.pending true (by rw [here]; rfl)
    rw [clear] at recovering
    cases recovering
  have accepted := tracked.sound.ring.accepted
  rw [resting] at accepted
  have completed := tracked.latches.bank lost
  simp only [foreseen, if_pos restored, none, List.drop_nil, List.foldl_nil] at completed
  rw [completed, accepted]
  exact congrArg (fun calls => (bankOf calls).withoutIntreq) (List.append_nil _).symm

variable [Floating F] [Floating D]

theorem Move.settled (tracked : Tracked marked burst loop)
    (settled : Settled since marked burst loop) (idle : loop.ring.consumer = .idle)
    (resting : loop.ring.producer = .idle) (move : Move port timing loop next) :
    Settled since marked burst next := by
  have same (elsewhere : ∀ now, loop.position ≠ .pending now)
      (away : loop.unrestored = 0) (lost : next.lost marked = loop.lost marked)
      (checks : next.record.checks = loop.record.checks)
      (pending : next.recoveryPending = loop.recoveryPending)
      (restored : next.unrestored = 0) : Settled since marked burst next := by
    intro later
    rw [checks] at later
    rw [lost, pending]
    rcases settled later with none | ⟨recovering, _⟩ | ⟨⟨now, here⟩, _⟩
    · exact .inl none
    · exact .inr (.inl ⟨recovering, restored⟩)
    · exact absurd here (elsewhere now)
  cases move with
  | early | full => exact settled
  | lost | behind => exact fun _ => .inr (.inl ⟨rfl, rfl⟩)
  | intact now here unchanged =>
      intro _
      rcases tracked.unnoticed here unchanged with none | full | counting
      · exact .inl none
      · exact .inr (.inr ⟨⟨now, rfl⟩, full⟩)
      · rw [resting] at counting
        exact absurd rfl counting
  | pass now here clear few =>
      intro later
      rcases settled later with none | ⟨recovering, _⟩ | ⟨_, full⟩
      · exact .inl none
      · rw [clear] at recovering
        cases recovering
      · exact absurd full (pass_room tracked.sound tracked.room idle here few).1
  | restore _ here taken =>
      intro later
      have one : loop.unrestored = 1 := by simp [unrestored, here, idle, taken]
      rcases settled later with none | ⟨_, restored⟩ | ⟨⟨now, other⟩, _⟩
      · exact .inl none
      · rw [one] at restored
        cases restored
      · cases here.symm.trans other
  | retry here refused =>
      refine same (fun now other => by cases here.symm.trans other) ?_ rfl rfl rfl rfl
      simp [unrestored, here, idle, refused]
  | enter here | start _ here | adopt _ here | paced here | look _ here | enough _ here
  | drained _ here | decide here | emit _ _ _ _ here | stall _ _ _ _ here | left _ _ _ _ here
  | right _ _ _ here | advance _ here | apply _ here =>
      exact same (fun now other => by cases here.symm.trans other)
        (unrestored_elsewhere fun other => by cases here.symm.trans other) rfl rfl rfl rfl

theorem Move.tracked (since : Nat) (tracked : Tracked marked burst loop) (idle : loop.ring.consumer = .idle)
    (move : Move port timing loop next) :
    ∃ after, Tracked marked after next ∧
      (Settled since marked burst next → Settled since marked after next) := by
  obtain ⟨sound, ordered, bounded, unrefused, room, noted, latches⟩ := tracked
  have noted' := move.noted sound unrefused room noted idle
  have unrefused' : Unrefused next := by
    obtain ⟨operation, ring⟩ := move.ring
    exact ⟨by rw [ring]; exact unrefused.wellFormed, by rw [ring]; exact unrefused.locked,
      by rw [ring]; exact unrefused.producer⟩
  have restored : loop.position = .recovered → loop.ring.out.taken = true → burst = 0 :=
    fun here taken => (noted.cut (by simp [unrestored, here, idle, taken])).1
  rcases move.room sound bounded room (fun now here same => Tracked.unnoticed
    ⟨sound, ordered, bounded, unrefused, room, noted, latches⟩ here same) restored idle with
    room' | ⟨wait, notFull, room'⟩
  · exact ⟨burst, ⟨move.sound sound idle, move.ordered sound ordered idle, move.bounded bounded,
      unrefused', room', noted', move.latches sound unrefused latches idle⟩, id⟩
  · refine ⟨0, ⟨move.sound sound idle, move.ordered sound ordered idle, move.bounded bounded,
      unrefused', room', noted'.calm notFull (fun here => by cases wait.symm.trans here),
      move.latches sound unrefused latches idle⟩, fun settled later => ?_⟩
    refine (settled later).imp_right (Or.imp_right fun pending => ?_)
    obtain ⟨⟨now, here⟩, _⟩ := pending
    cases wait.symm.trans here

theorem Turn.tracked (tracked : Tracked marked burst loop)
    (permitted : uncontended label loop) (turn : Turn port timing loop label next) :
    ∃ marked burst, Tracked marked burst next := by
  have sound := turn.sound tracked.sound
  have ordered := turn.ordered tracked.sound tracked.ordered
  have bounded := turn.bounded tracked.bounded
  cases turn with
  | captured entered =>
      exact ⟨marked, burst, sound, ordered, bounded,
        capture_unrefused tracked.unrefused permitted entered, capture_room tracked.room entered,
        capture_noted tracked.room tracked.noted entered, capture_latches tracked.latches entered⟩
  | produced moved =>
      exact ⟨marked, burst, sound, ordered, bounded,
        produce_unrefused tracked.unrefused permitted moved,
        produce_room tracked.sound tracked.unrefused permitted tracked.room moved,
        produce_noted tracked.sound permitted tracked.room tracked.noted moved,
        produce_latches tracked.sound tracked.ordered tracked.unrefused permitted tracked.room
          tracked.latches moved⟩
  | host => exact ⟨marked, burst, tracked.host _⟩
  | served _ moved =>
      have settled : Settled loop.record.checks marked burst loop :=
        fun later => absurd later (Nat.lt_irrefl _)
      obtain ⟨marked, burst, tracked, _⟩ := served_tracked tracked settled moved
      exact ⟨marked, burst, tracked⟩
  | moved _ idle move =>
      obtain ⟨after, tracked, _⟩ := move.tracked 0 tracked idle
      exact ⟨marked, after, tracked⟩

/-- A step of the loop while CPU0 captures nothing. -/
theorem Turn.settled (tracked : Tracked marked burst loop)
    (settled : Settled since marked burst loop) (resting : loop.ring.producer = .idle)
    (permitted : settling label loop) (turn : Turn port timing loop label next) :
    next.ring.producer = .idle ∧ next.ring.history.accepted = loop.ring.history.accepted ∧
      ∃ marked burst, Tracked marked burst next ∧ Settled since marked burst next := by
  cases turn with
  | captured | produced => exact permitted.elim
  | host => exact ⟨resting, rfl, marked, burst, tracked.host _, settled⟩
  | served _ moved =>
      have kept := EventRing.consume_kept moved
      exact ⟨kept.producer.trans resting, kept.accepted, served_tracked tracked settled moved⟩
  | moved _ idle move =>
      obtain ⟨operation, ring⟩ := move.ring
      obtain ⟨after, still, weaker⟩ := move.tracked since tracked idle
      refine ⟨by rw [ring]; exact resting, by rw [ring], marked, after, still, ?_⟩
      exact weaker (move.settled tracked settled idle resting)

theorem start_tracked (port : Port σ) (events : Nat → Event) (metrics : Metrics)
    (out : EventRing.Out) (host : σ) :
    Tracked 0 0 (start port events metrics out host : Loop F D σ) where
  sound := start_sound port events metrics out host
  ordered := start_ordered port events metrics out host
  bounded := start_bounded port events metrics out host
  unrefused := ⟨fun call member => (by cases member), rfl, fun call here => by cases here⟩
  room := by
    refine ⟨Nat.zero_le _, Nat.le_refl _, .inl (Nat.zero_le _), fun call here => (by cases here),
      fun call seen here => (by cases here), fun _ => ⟨.inl rfl, fun call seen here => ?_⟩⟩
    cases here
  noted := ⟨fun entered => absurd rfl entered, fun head here => (by cases here),
    fun cut => absurd rfl cut⟩
  latches := ⟨fun cut => absurd rfl cut, fun _ => rfl⟩

variable [Arith F D] {truncate : F → Int32} {labels more : List (Label port)}
  {last : Loop F D σ}

theorem run_tracked
    (run : (machine port timing truncate).Runs uncontended loop labels next)
    (tracked : Tracked marked burst loop) : ∃ marked burst, Tracked marked burst next := by
  refine run.invariant (motive := fun loop => ∃ marked burst, Tracked marked burst loop) ?_
    ⟨marked, burst, tracked⟩
  rintro label before after permitted stepped ⟨marked, burst, tracked⟩
  exact (step_turn stepped).tracked tracked permitted

theorem run_settled
    (run : (machine port timing truncate).Runs settling loop labels next)
    (tracked : Tracked marked burst loop) (resting : loop.ring.producer = .idle) :
    next.ring.producer = .idle ∧ next.ring.history.accepted = loop.ring.history.accepted ∧
      ∃ marked burst, Tracked marked burst next ∧
        Settled loop.record.checks marked burst next := by
  refine run.invariant (motive := fun next => next.ring.producer = .idle ∧
    next.ring.history.accepted = loop.ring.history.accepted ∧ ∃ marked burst,
      Tracked marked burst next ∧ Settled loop.record.checks marked burst next) ?_
    ⟨resting, rfl, marked, burst, tracked, fun later => absurd later (Nat.lt_irrefl _)⟩
  rintro label before after permitted stepped ⟨resting, accepted, marked, burst, tracked, settled⟩
  obtain ⟨still, same, more⟩ := (step_turn stepped).settled tracked settled resting permitted
  exact ⟨still, same.trans accepted, more⟩

/-- While the mirror is enabled every audio register write is accepted. -/
theorem run_accepted {allowed : Label port → Loop F D σ → Prop}
    (run : (machine port timing truncate).Runs allowed loop labels next)
    (enabled : loop.ring.shared.enabled = true) :
    next.ring.history.accepted = loop.ring.history.accepted ++ writes labels := by
  induction run with
  | refl => exact (List.append_nil _).symm
  | @step before middle after label rest _ stepped _ ih =>
      have first : middle.ring.history.accepted = before.ring.history.accepted ++ writes [label] ∧
          middle.ring.shared.enabled = true := by
        have unchanged : ∀ calls : List Mirror.Call, calls = calls ++ [] :=
          fun calls => (List.append_nil calls).symm
        cases step_turn stepped with
        | captured entered =>
            obtain ⟨accepted, enabled⟩ := EventRing.capture_accepted entered enabled
            exact ⟨accepted.trans (by simp [writes]), enabled⟩
        | produced moved =>
            obtain ⟨accepted, same⟩ := EventRing.produce_accepted moved
            exact ⟨accepted.trans (unchanged _), same.trans enabled⟩
        | host => exact ⟨unchanged _, enabled⟩
        | served _ moved =>
            exact ⟨(EventRing.consume_kept moved).accepted.trans (unchanged _),
              (EventRing.consume_enabled moved).trans enabled⟩
        | moved _ _ move =>
            obtain ⟨operation, ring⟩ := move.ring
            rw [ring]
            exact ⟨unchanged _, enabled⟩
      rw [ih first.2, first.1, List.append_assoc]
      simp only [writes, ← List.flatMap_append, List.singleton_append]

/-- However the captures of a run interleave with the loop, as long as none finds the lock
held: when they have stopped and the loop has looked for drops since, what it has latched
is the fold of every call, dropped or not. -/
theorem writes_recovered {events : Nat → Event} {metrics : Metrics} {out : EventRing.Out}
    {host : σ} (run : (machine port timing truncate).Runs uncontended
      (start port events metrics out host) labels loop)
    (resting : loop.ring.producer = .idle)
    (settles : (machine port timing truncate).Runs settling loop more last)
    (checked : loop.record.checks < last.record.checks)
    (clear : last.recoveryPending = false)
    (empty : last.ring.shared.eventTail = last.ring.shared.eventHead) :
    last.replay.live.core.bank.withoutIntreq = (bankOf (writes labels)).withoutIntreq := by
  have calls : loop.ring.history.accepted = writes labels := run_accepted run rfl
  obtain ⟨marked, burst, tracked⟩ := run_tracked run (start_tracked port events metrics out host)
  obtain ⟨still, accepted, marked, burst, tracked, settled⟩ := run_settled settles tracked resting
  rw [← calls, ← accepted]
  exact settled.bank tracked still checked clear empty

/-- A volume, captured before the loop is entered. -/
def oneVolume : List (Label samplePort) :=
  .capture ⟨0xdff0a8, 64, 2⟩ :: List.replicate 14 (.produce 60000000)

/-- The loop with the volume captured, and when it has applied it and looked for drops. -/
def informed : Loop ℚ ℚ Metrics :=
  (sampleMachine.run uncontended oneVolume sampleLoop).getD sampleLoop

def caughtUp : Loop ℚ ℚ Metrics :=
  (sampleMachine.run settling (turns 30 70000000) informed).getD informed

set_option maxRecDepth 20000 in
theorem informed_runs : sampleMachine.Runs uncontended sampleLoop oneVolume informed :=
  Machine.runs_getD _ _ rfl

set_option maxRecDepth 20000 in
theorem caughtUp_runs : sampleMachine.Runs settling informed (turns 30 70000000) caughtUp :=
  Machine.runs_getD _ _ rfl

set_option maxRecDepth 20000 in
theorem writes_recovered_of_oneVolume :
    caughtUp.replay.live.core.bank.withoutIntreq = (bankOf (writes oneVolume)).withoutIntreq :=
  writes_recovered informed_runs rfl caughtUp_runs (by decide) rfl rfl

/-- The loop is late in its first frame, and the volume is captured while the snapshot of
the recovery holds the lock. -/
def contended : List (Label samplePort) :=
  turns 2 60000000 ++ turns 4 140000000 ++
    [.capture ⟨0xdff0a8, 64, 2⟩, .produce 140000000, .produce 140000000]

/-- The loop after the refused capture, and when it has looked for drops again. -/
def ignorant : Loop ℚ ℚ Metrics :=
  (sampleMachine.run Machine.anyStep contended sampleLoop).getD sampleLoop

def satisfied : Loop ℚ ℚ Metrics :=
  (sampleMachine.run settling (turns 20 140000000) ignorant).getD ignorant

set_option maxRecDepth 20000 in
theorem ignorant_runs : sampleMachine.Runs Machine.anyStep sampleLoop contended ignorant :=
  Machine.runs_getD _ _ rfl

set_option maxRecDepth 20000 in
theorem satisfied_runs : sampleMachine.Runs settling ignorant (turns 20 140000000) satisfied :=
  Machine.runs_getD _ _ rfl

set_option maxRecDepth 20000 in
/-- The drop counter that the snapshot samples includes the refused capture, which its
shadow does not. -/
theorem contended_write_lost :
    sampleMachine.Runs Machine.anyStep sampleLoop contended ignorant ∧
    ignorant.ring.producer = .idle ∧
    sampleMachine.Runs settling ignorant (turns 20 140000000) satisfied ∧
    ignorant.record.checks < satisfied.record.checks ∧ satisfied.recoveryPending = false ∧
    satisfied.ring.shared.eventTail = satisfied.ring.shared.eventHead ∧
    satisfied.replay.live.core.bank.vol 0 = 0 ∧ (bankOf (writes contended)).vol 0 = 64 :=
  ⟨ignorant_runs, rfl, satisfied_runs, by decide, rfl, rfl, by decide +kernel, by decide +kernel⟩

end Loop

end Paulastorm.Poc
