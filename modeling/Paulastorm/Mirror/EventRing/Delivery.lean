import Paulastorm.Mirror.EventRing.Invariant

namespace Paulastorm.Mirror.EventRing

/-! Exactly-once delivery and consistent snapshot cuts, over every run. -/

open Library

/-- Every event is accounted for, by its capture number. -/
structure ExactlyOnce (state : State) : Prop where
  /-- The counters never drift apart by more than the capacity. -/
  bounded : (state.shared.eventHead - state.shared.eventTail).toNat ≤ 8192
  /-- Every event is either retired or still counted between the counters. -/
  partition : state.history.retired.length +
    (state.shared.eventHead - state.shared.eventTail).toNat = state.history.enqueued.length
  /-- No unread slot is overwritten. -/
  held : ∀ index, state.history.retired.length ≤ index →
    ∀ inside : index < state.history.enqueued.length,
      state.shared.events (Ring.slot capacity
        (state.shared.eventTail + UInt32.ofNat (index - state.history.retired.length))) =
        state.history.enqueued[index]
  /-- An event carries the arguments of its call. -/
  unchanged : ∀ entry ∈ state.history.log, ∀ event, entry.fate = .enqueued event →
    ∃ ticks, event = entry.call.event ticks
  /-- A popped event was delivered as it was enqueued. -/
  delivered : ∀ (index : Nat) event,
    state.history.retired[index]? = some (.popped (some event)) →
      state.history.enqueued[index]? = some event
  /-- A skipped event was discarded by the one snapshot whose range holds it. -/
  discarded : ∀ (index number : Nat),
    state.history.retired[index]? = some (.skipped number) ↔
      ∃ cut, state.history.cuts[number]? = some cut ∧ cut.first ≤ index ∧ index < cut.last
  /-- A snapshot holds the shadow of the calls that got the lock before it. -/
  registers : ∀ cut ∈ state.history.cuts, cut.snapshot.toLatest =
    .ofCalls ((state.history.log.take cut.calls).filterMap Entry.locked?)
  /-- A snapshot's range ends with the last event enqueued before it. -/
  boundary : ∀ cut ∈ state.history.cuts,
    cut.last = ((state.history.log.take cut.calls).filterMap Entry.event?).length
  skipped : ∀ cut ∈ state.history.cuts,
    cut.snapshot.skipped = UInt32.ofNat (cut.last - cut.first)
  /-- Captures and snapshots never overlap. -/
  exclusive : ¬ (state.producer.locked = true ∧ state.consumer.locked = true)
  balance : state.producer = .idle → state.consumer = .idle →
    state.shared.captured - UInt32.ofNat state.history.retired.length =
      state.shared.eventHead - state.shared.eventTail
  /-- Between calls, every accepted call has one fate, and each counter has
  counted the calls of its own fate. -/
  counted : state.producer = .idle → state.history.log.map Entry.call = state.history.accepted ∧
    state.shared.captured =
      UInt32.ofNat (state.history.log.countP fun entry => !entry.refused) ∧
    state.shared.dropped = UInt32.ofNat (state.history.log.countP Entry.refused)

theorem History.enqueued_length (history : History) :
    history.enqueued.length = history.log.countP fun entry => !entry.refused := by
  rw [enqueued, List.length_filterMap_eq_countP]
  exact List.countP_congr fun entry _ => by simp [Entry.refused]

variable {state next : State}

theorem Invariant.exactlyOnce (inv : Invariant state) : ExactlyOnce state := by
  have total := inv.history.unread_length
  have pending := inv.ring.pending
  refine {
    bounded := pending ▸ inv.ring.bounded
    partition := by rw [pending, total]
    held := ?_
    unchanged := inv.history.events
    delivered := inv.history.popped
    discarded := inv.history.skipped
    registers := inv.history.cutShadow
    boundary := inv.history.cutLast
    skipped := fun cut member => (inv.history.cutSkipped cut member).2
    exclusive := inv.exclusive
    balance := ?_
    counted := ?_ }
  · intro index lower inside
    have unread : index - state.history.retired.length < state.history.unread.length := by omega
    have shifted : state.history.retired.length + (index - state.history.retired.length) = index :=
      Nat.add_sub_of_le lower
    rw [inv.ring.holds _ unread]
    simp only [History.unread, List.getElem_drop, shifted]
  · intro idle _
    have captured := inv.captured
    simp only [idle, Producer.uncounted, UInt32.add_zero] at captured
    rw [captured, ← total, UInt32.ofNat_add, UInt32.add_comm, UInt32.add_sub_cancel, ← pending,
      UInt32.ofNat_toNat]
  · intro idle
    have accepted := inv.accepted
    have captured := inv.captured
    have dropped := inv.dropped
    simp only [idle, Producer.undecided, Producer.uncounted, Producer.undropped,
      List.append_nil, UInt32.add_zero] at accepted captured dropped
    exact ⟨accepted.symm, by rw [captured, History.enqueued_length], dropped⟩

/-- A pop is about to start on an event that no peek returned. -/
def popsUnpeeked (state : State) : Label → Bool
  | .begin .pop => state.history.peeked.isNone
  | _ => false

/-- The consumer pops only what it has peeked since the last retirement. -/
def pairedPops (label : Label) (state : State) : Prop := popsUnpeeked state label = false

instance (label : Label) (state : State) : Decidable (pairedPops label state) :=
  inferInstanceAs (Decidable (_ = _))

/-- No pop has retired an event it did not look at, and none is about to. -/
def Paired (state : State) : Prop :=
  (∀ index : Nat, state.history.retired[index]? ≠ some (.popped none)) ∧
    match state.consumer with
    | .pop | .advance _ => state.history.peeked ≠ none
    | _ => True

theorem step_paired {label : Label} (permitted : pairedPops label state) (paired : Paired state)
    (stepped : step label state = some next) : Paired next := by
  obtain ⟨shared, producer, consumer, out, history⟩ := state
  obtain ⟨retired, current⟩ := paired
  cases label with
  | capture call =>
      cases producer <;> simp only [step, capture, reduceCtorEq] at stepped
      split at stepped <;> cases stepped <;> exact ⟨retired, current⟩
  | produce ticks =>
      cases producer <;> simp only [step, produce, reduceCtorEq] at stepped
      all_goals first
        | (split at stepped <;> cases stepped <;> exact ⟨retired, current⟩)
        | (cases stepped; exact ⟨retired, current⟩)
  | begin operation =>
      cases consumer <;> cases operation <;> cases stepped
      · exact ⟨retired, trivial⟩
      · exact ⟨retired, Option.isNone_eq_false_iff.mp permitted |> Option.isSome_iff_ne_none.mp⟩
      · exact ⟨retired, trivial⟩
  | consume =>
      cases consumer with
      | advance tail =>
          cases stepped
          refine ⟨fun index found => ?_, trivial⟩
          simp only [History.pop, List.getElem?_append] at found
          split at found
          · exact retired index found
          · rw [List.getElem?_singleton] at found
            split at found
            · simp only [Option.some.injEq, Retirement.popped.injEq] at found
              exact current found
            · cases found
      | discard head =>
          cases stepped
          refine ⟨fun index found => ?_, trivial⟩
          simp only [History.cut, List.getElem?_append, List.getElem?_replicate] at found
          split at found
          · exact retired index found
          · split at found <;> cases found
      | idle => cases stepped
      | peek | copy | pop | snapshot =>
          simp only [step, consume] at stepped
          split at stepped <;> cases stepped <;> first | exact ⟨retired, current⟩ | exact ⟨retired, trivial⟩
      | _ => cases stepped; exact ⟨retired, trivial⟩

/-- Over every run of any length, every enqueued event is delivered by one pop
or discarded by one snapshot, in capture order, and every snapshot is the
shadow of the calls before it.  Where the consumer pops only what it has
peeked, every popped event was delivered. -/
theorem events_exactly_once {events : Nat → Event} {metrics : Probe.Metrics} {out : Out}
    {labels : List Label} {state : State}
    (run : machine.Runs Machine.anyStep (start events metrics out) labels state) :
    ExactlyOnce state ∧
      (machine.Runs pairedPops (start events metrics out) labels state →
        ∀ index : Nat, state.history.retired[index]? ≠ some (.popped none)) := by
  constructor
  · have inv : Invariant state := run.invariant
      (fun label before after _ stepped inv => step_invariant inv stepped)
      (start_invariant events metrics out)
    exact inv.exactlyOnce
  · intro pairedRun
    have paired : Paired state := pairedRun.invariant
      (fun label before after permitted stepped paired => step_paired permitted paired stepped)
      ⟨by simp [start, History.empty], trivial⟩
    exact paired.1

/-- One write is captured, peeked, popped, and a snapshot is taken. -/
def oneWrite : List Label :=
  .capture ⟨0xdff096, 0x8201, 2⟩ :: List.replicate 14 (.produce 7) ++
    .begin .peek :: List.replicate 7 .consume ++ .begin .pop :: List.replicate 4 .consume ++
    .begin .snapshot :: List.replicate 8 .consume

def blankEvent : Event := ⟨0, 0, 0, 0, 0⟩

/-- The start of the sample runs. -/
def sampleStart : State :=
  start (fun _ => blankEvent) Probe.init
    ⟨blankEvent, false, { Latest.empty with ticks := 0, skipped := 0, dropped := 0 }, false⟩

theorem events_exactly_once_of_oneWrite : ∃ state,
    machine.Runs pairedPops sampleStart oneWrite state ∧
    (state.history.retired, state.history.cuts.length) =
      ([.popped (some ⟨7, 0xdff096, 0x8201, 2, 0⟩)], 1) ∧
    ExactlyOnce state ∧ ∀ index : Nat, state.history.retired[index]? ≠ some (.popped none) := by
  have executed : (machine.run pairedPops oneWrite sampleStart).map
      (fun state => (state.history.retired, state.history.cuts.length)) =
      some ([.popped (some ⟨7, 0xdff096, 0x8201, 2, 0⟩)], 1) := rfl
  obtain ⟨state, run, retired⟩ := Machine.runs_of_observed executed
  have accounted := events_exactly_once (run.weaken fun _ _ _ => trivial)
  exact ⟨state, run, retired, accounted.1, accounted.2 run⟩

end Paulastorm.Mirror.EventRing
