import Paulastorm.Library.Ring
import Paulastorm.Library.Transition
import Paulastorm.Mirror.Shadow
import Paulastorm.Probe

namespace Paulastorm.Mirror.EventRing

/-! The event ring of `paula_mirror.c` as a machine of atomic steps.

CPU0 is the producer: it runs one `paula_mirror_capture` at a time.  CPU1 is the
consumer: it runs `paula_mirror_peek`, `paula_mirror_pop` and
`paula_mirror_snapshot_take`.  A step is one access to a shared word; accesses
to diagnostic words that only one side writes are folded into the step before
them.  An event is stored and copied one field at a time, since nothing but the
two counters protects a slot.

`History` is not read by the code.  It records what the code did, for the
statements about whole runs.
-/

open Library Probe

/-- `PAULA_MIRROR_EVENT_CAPACITY`. -/
def capacity : Capacity := ⟨8192, 13, Capacity.power_13⟩

/-- Store one field of an event. -/
def storeField (field : Nat) (source target : Event) : Event :=
  match field with
  | 0 => { target with ticks := source.ticks }
  | 1 => { target with address := source.address }
  | 2 => { target with value := source.value }
  | 3 => { target with width := source.width }
  | _ => { target with reserved := source.reserved }

/-- The words both processors can see. -/
structure Shared where
  events : Nat → Event
  eventHead : UInt32
  eventTail : UInt32
  eventLock : Bool
  enabled : Bool
  captured : UInt32
  dropped : UInt32
  latest : Snapshot
  metrics : Metrics

/-- Where `paula_mirror_capture` is. -/
inductive Producer where
  | idle
  | exchange (call : Call)
  | refuse (call : Call)
  | shadow (call : Call)
  | stamp (call : Call)
  | loadTail (call : Call)
  | test (call : Call) (tail : UInt32)
  | overflow (call : Call)
  | fill (call : Call) (tail : UInt32) (event : Event) (field : Nat)
  | count (call : Call) (tail : UInt32) (event : Event)
  | gauge (pending : UInt32)
  | release

/-- Where the consumer's operation is. -/
inductive Consumer where
  | idle
  | peek
  | copy (field : Nat)
  | pop
  | advance (tail : UInt32)
  | popPending (tail : UInt32)
  | popGauge (pending : UInt32)
  | snapshot
  | loadHead
  | loadTail (head : UInt32)
  | copyLatest (head tail : UInt32)
  | loadDropped (head : UInt32)
  | discard (head : UInt32)
  | snapshotGauge
  | release

/-- The consumer's out parameters and return values. -/
structure Out where
  event : Event
  found : Bool
  snapshot : Snapshot
  taken : Bool

/-- What became of an accepted call. -/
inductive Fate where
  | enqueued (event : Event)
  | full
  | contended

structure Entry where
  call : Call
  fate : Fate

/-- How an event left the ring: popped, with the copy a peek took of it since
the last retirement, or discarded by the snapshot of the given number. -/
inductive Retirement where
  | popped (copy : Option Event)
  | skipped (cut : Nat)
deriving DecidableEq

/-- One successful snapshot: its contents, the calls logged before it, and the
range of events it discarded. -/
structure Cut where
  snapshot : Snapshot
  calls : Nat
  first : Nat
  last : Nat

/-- The accepted calls, the fate of each, how every event left the ring, the
successful snapshots, and the last copy of the front event. -/
structure History where
  accepted : List Call
  log : List Entry
  retired : List Retirement
  cuts : List Cut
  peeked : Option Event

structure State where
  shared : Shared
  producer : Producer
  consumer : Consumer
  out : Out
  history : History

def Entry.event? (entry : Entry) : Option Event :=
  match entry.fate with
  | .enqueued event => some event
  | _ => none

/-- The call, if it got the lock. -/
def Entry.locked? (entry : Entry) : Option Call :=
  match entry.fate with
  | .contended => none
  | _ => some entry.call

def Entry.refused (entry : Entry) : Bool := entry.event?.isNone

namespace History

def empty : History := ⟨[], [], [], [], none⟩

/-- The events ever enqueued, in capture order. -/
def enqueued (history : History) : List Event := history.log.filterMap Entry.event?

/-- The calls that got the lock, in order. -/
def locked (history : History) : List Call := history.log.filterMap Entry.locked?

/-- The number of calls that the code dropped, for either reason. -/
def refusals (history : History) : Nat := history.log.countP Entry.refused

/-- The events enqueued and not yet retired. -/
def unread (history : History) : List Event := history.enqueued.drop history.retired.length

def append (history : History) (call : Call) (fate : Fate) : History :=
  { history with log := history.log ++ [⟨call, fate⟩] }

/-- The front event leaves by `paula_mirror_pop`. -/
def pop (history : History) : History :=
  { history with
    retired := history.retired ++ [.popped history.peeked]
    peeked := none }

/-- Every unread event leaves by a snapshot. -/
def cut (history : History) (snapshot : Snapshot) : History :=
  { history with
    retired := history.retired ++ List.replicate history.unread.length (.skipped history.cuts.length)
    cuts := history.cuts ++
      [⟨snapshot, history.log.length, history.retired.length, history.enqueued.length⟩]
    peeked := none }

end History

/-- `paula_mirror_enable`: everything but the slots and the diagnostic bank is cleared. -/
def enable (events : Nat → Event) (metrics : Metrics) : Shared where
  events := events
  eventHead := 0
  eventTail := 0
  eventLock := false
  enabled := true
  captured := 0
  dropped := 0
  latest := { Latest.empty with ticks := 0, skipped := 0, dropped := 0 }
  metrics := Probe.flag metrics ppFlagArmed true

/-- Both processors outside the ring, just after `paula_mirror_enable`. -/
def start (events : Nat → Event) (metrics : Metrics) (out : Out) : State where
  shared := enable events metrics
  producer := .idle
  consumer := .idle
  out := out
  history := .empty

/-- The diagnostic words that describe the last enqueued event. -/
def noteCaptured (metrics : Metrics) (call : Call) (event : Event) : Metrics :=
  let metrics := add metrics ppCaptured 1
  let metrics := set metrics ppLastAddr call.address
  let metrics := set metrics ppLastValue
    (call.value.toUInt16.toUInt32 ||| ((call.width &&& 255) <<< 16))
  let metrics := set metrics ppLastTicksLo event.ticks.toUInt32
  set metrics ppLastTicksHi (event.ticks >>> 32).toUInt32

/-- `paula_mirror_capture` is entered.  A rejected call touches nothing. -/
def capture (call : Call) (state : State) : Option State :=
  match state.producer with
  | .idle =>
      if call.accepted && state.shared.enabled then
        some { state with
          producer := .exchange call.masked
          history.accepted := state.history.accepted ++ [call.masked] }
      else some state
  | _ => none

/-- The next step of `paula_mirror_capture`; `ticks` is the counter if it is read. -/
def produce (ticks : UInt64) (state : State) : Option State :=
  match state.producer with
  | .idle => none
  | .exchange call =>
      if state.shared.eventLock then
        some { state with
          producer := .refuse call
          history := state.history.append call .contended }
      else some { state with shared.eventLock := true, producer := .shadow call }
  | .refuse _ =>
      some { state with
        shared.dropped := state.shared.dropped + 1
        shared.metrics := add (add state.shared.metrics ppDropped 1) ppCaptureLockDrops 1
        producer := .idle }
  | .shadow call =>
      some { state with
        shared.latest.toLatest := state.shared.latest.shadowWord call.address call.word
        producer := .stamp call }
  | .stamp call => some { state with shared.latest.ticks := ticks, producer := .loadTail call }
  | .loadTail call => some { state with producer := .test call state.shared.eventTail }
  | .test call tail =>
      if state.shared.eventHead - tail ≥ capacity.value then
        some { state with producer := .overflow call, history := state.history.append call .full }
      else some { state with producer := .fill call tail (call.event ticks) 0 }
  | .overflow _ =>
      some { state with
        shared.dropped := state.shared.dropped + 1
        shared.metrics := add (add state.shared.metrics ppDropped 1) ppCaptureFullDrops 1
        producer := .release }
  | .fill call tail event field =>
      if field < 5 then
        let slot := Ring.slot capacity state.shared.eventHead
        some { state with
          shared.events := Function.update state.shared.events slot
            (storeField field event (state.shared.events slot))
          producer := .fill call tail event (field + 1) }
      else
        some { state with
          shared.eventHead := state.shared.eventHead + 1
          producer := .count call tail event
          history := state.history.append call (.enqueued event) }
  | .count call tail event =>
      some { state with
        shared.captured := state.shared.captured + 1
        shared.metrics := noteCaptured state.shared.metrics call event
        producer := .gauge (state.shared.eventHead - tail) }
  | .gauge pending =>
      some { state with
        shared.metrics := set state.shared.metrics ppPending pending
        producer := .release }
  | .release => some { state with shared.eventLock := false, producer := .idle }

/-- The consumer starts an operation: `.peek`, `.pop` or `.snapshot`. -/
def begin (operation : Consumer) (state : State) : Option State :=
  match state.consumer, operation with
  | .idle, .peek | .idle, .pop | .idle, .snapshot => some { state with consumer := operation }
  | _, _ => none

/-- The next step of the consumer's operation. -/
def consume (state : State) : Option State :=
  match state.consumer with
  | .idle => none
  | .peek =>
      if state.shared.eventTail = state.shared.eventHead then
        some { state with consumer := .idle, out.found := false }
      else some { state with consumer := .copy 0 }
  | .copy field =>
      if field < 5 then
        let source := state.shared.events (Ring.slot capacity state.shared.eventTail)
        some { state with
          consumer := .copy (field + 1)
          out.event := storeField field source state.out.event }
      else
        some { state with
          consumer := .idle
          out.found := true
          history.peeked := some state.out.event }
  | .pop =>
      if state.shared.eventTail = state.shared.eventHead then some { state with consumer := .idle }
      else some { state with consumer := .advance state.shared.eventTail }
  | .advance tail =>
      some { state with
        shared.eventTail := tail + 1
        shared.metrics := add state.shared.metrics ppConsumed 1
        consumer := .popPending tail
        history := state.history.pop }
  | .popPending tail =>
      some { state with consumer := .popGauge (state.shared.eventHead - (tail + 1)) }
  | .popGauge pending =>
      some { state with
        shared.metrics := set state.shared.metrics ppPending pending
        consumer := .idle }
  | .snapshot =>
      if !state.shared.enabled || state.shared.eventLock then
        some { state with consumer := .idle, out.taken := false }
      else some { state with shared.eventLock := true, consumer := .loadHead }
  | .loadHead => some { state with consumer := .loadTail state.shared.eventHead }
  | .loadTail head => some { state with consumer := .copyLatest head state.shared.eventTail }
  | .copyLatest head tail =>
      some { state with
        out.snapshot := { state.shared.latest with skipped := head - tail }
        consumer := .loadDropped head }
  | .loadDropped head =>
      some { state with
        out.snapshot.dropped := state.shared.dropped
        consumer := .discard head }
  | .discard head =>
      some { state with
        shared.eventTail := head
        shared.metrics := add state.shared.metrics ppConsumed state.out.snapshot.skipped
        consumer := .snapshotGauge
        history := state.history.cut state.out.snapshot }
  | .snapshotGauge =>
      some { state with
        shared.metrics := set state.shared.metrics ppPending 0
        consumer := .release }
  | .release =>
      some { state with shared.eventLock := false, consumer := .idle, out.taken := true }

inductive Label where
  | capture (call : Call)
  | produce (ticks : UInt64)
  | begin (operation : Consumer)
  | consume

def step : Label → State → Option State
  | .capture call => capture call
  | .produce ticks => produce ticks
  | .begin operation => begin operation
  | .consume => consume

def machine : Machine State Label := ⟨step⟩

end Paulastorm.Mirror.EventRing
