import Paulastorm.Hdmi.Iec958
import Paulastorm.Mirror.EventRing
import Paulastorm.Poc.Clock
import Paulastorm.Poc.Recovery

namespace Paulastorm.Poc

/-! The replay loop of CPU1 (`hdmi_audio_poc_run` of `hdmi_audio_poc.c`, from its
first load of the drop counter on), next to the captures of CPU0.

A step of CPU1 is one step of its operation on the event ring or, between two
operations, the code up to the next access that CPU0 can tell from another
order.  The diagnostic bank is kept in two parts: the words of the event ring in
the ring's state, the others in the host.
-/

open Paulastorm.Core Mirror Probe
open Library (Machine)

/-- What CPU1 reads in a step: the counter and the control word of the output. -/
structure Reading where
  ticks : UInt64
  control : UInt32

/-- `MAI_CTL_FULL`. -/
def maiCtlFull : UInt32 := 0x800

/-- The frequency of the counter. -/
structure Timing where
  frequency : UInt64

namespace Timing

/-- 50 ms. -/
def latency (timing : Timing) : UInt64 := timing.frequency / 20

/-- 250 ms: the lag that calls for a recovery, and the patience with a full FIFO. -/
def maxLag (timing : Timing) : UInt64 := timing.frequency / 4

end Timing

inductive Side where
  | left
  | right
deriving DecidableEq

/-- Where the loop is, outside the operations on the ring. -/
inductive Position where
  | enter
  | started
  | top
  | dropped (now : UInt64)
  | pending (now : UInt64)
  | recovered
  | wait
  | drain (processed : Nat)
  | peeked (processed : Nat)
  | checked
  | output (backlog : Bool)
  | fifo (side : Side) (left right : Int32) (start : UInt64)
  | written
  | stalled

/-- One event handed to `poc_apply_live_event` by the drain loop: its capture
number, and the clock and the number of frames before it. -/
structure Applied where
  number : Nat
  event : Event
  tick : UInt64
  frame : Nat

/-- One frame: its tick, whether it was silent, whether a recovery was pending,
what the last peek before it could see, and its samples. -/
structure Frame where
  tick : UInt64
  silent : Bool
  recovering : Bool
  visible : List Event
  samples : Int32 × Int32

/-- What the loop did, and how often it loaded the drop counter; the code does not read it. -/
structure Record where
  applied : List Applied
  frames : List Frame
  visible : List Event
  checks : Nat
  words : List UInt32

/-- The variables of `hdmi_audio_poc_run`, the ring it shares with CPU0, and its record. -/
structure Loop (F D σ : Type) where
  ring : EventRing.State
  replay : Replay F D σ
  clock : ReplayClock
  lastDrop : UInt32
  recoveryPending : Bool
  lastReport : UInt64
  frame : UInt32
  framesWritten : UInt32
  position : Position
  record : Record

/-- What CPU0 may do to the sample cache and to the mailbox in one go. -/
structure Guest {σ : Type} (port : Port σ) where
  act : σ → σ
  own : ∀ host word, word ∉ sharedWords →
    get (port.metrics (act host)) word = get (port.metrics host) word

/-- `poc_float_to_s24`; `truncate` is the conversion to an integer. -/
def floatToS24 {F : Type} [Floating F] (truncate : F → Int32) (sample : F) : Int32 :=
  let sample := if Floating.lt (ofRat 1) sample then ofRat 1 else sample
  let sample := if Floating.lt sample (ofRat (-1)) then ofRat (-1) else sample
  truncate (sample * ofRat 8388607)

/-- The magnitude of a sample. -/
def magnitude (sample : Int32) : UInt32 := (if sample < 0 then -sample else sample).toUInt32

/-- The diagnostic words of one pair of samples. -/
def meter (left right : Int32) (metrics : Metrics) : Metrics :=
  let metrics := if left ≠ 0 ∨ right ≠ 0 then add metrics ppNonzeroFrames 1 else metrics
  let metrics :=
    if magnitude left > get metrics ppPeakLeft then set metrics ppPeakLeft (magnitude left)
    else metrics
  if magnitude right > get metrics ppPeakRight then set metrics ppPeakRight (magnitude right)
  else metrics

/-- The diagnostic words of an output that stays full. -/
def fail (metrics : Metrics) : Metrics :=
  flag (flag (set metrics ppMaiError 2) ppFlagMaiFailed true) ppFlagRendering false

namespace Loop

variable {F D σ : Type} (port : Port σ) (timing : Timing)

/-- Start an operation on the ring. -/
def call (operation : EventRing.Consumer) (loop : Loop F D σ) : Loop F D σ :=
  { loop with ring.consumer := operation }

/-- Update the diagnostic words. -/
def probe (change : Metrics → Metrics) (loop : Loop F D σ) : Loop F D σ :=
  { loop with replay.host := port.probe change loop.replay.host }

/-- The branch on `recovery_pending`, after the test for a lost event, a long
backlog or a late clock. -/
def tested (recover : Bool) (loop : Loop F D σ) : Loop F D σ :=
  if loop.recoveryPending || recover then
    let loop := { loop with recoveryPending := true, position := .recovered }
    (loop.probe port (flag · ppFlagCaptureFailed true)).call .snapshot
  else { loop with position := .wait }

/-- The audio interface's own counts, once a second. -/
def report (reading : Reading) (loop : Loop F D σ) : Loop F D σ :=
  if timing.frequency ≤ reading.ticks - loop.lastReport then
    let target := loop.clock.tick + timing.latency
    let lag := if ReplayClock.due reading.ticks target then reading.ticks - target else 0
    let loop := { loop with lastReport := reading.ticks }
    let loop := loop.probe port (set · ppReplayLagUs ((lag * 1000000) / timing.frequency).toUInt32)
    loop.probe port (set · ppMaiCtl reading.control)
  else loop

variable [Floating F] [Floating D] [Arith F D] (truncate : F → Int32)

/-- The event of the last peek is applied, and its pop starts. -/
def apply (processed : Nat) (loop : Loop F D σ) : Loop F D σ :=
  let entry : Applied :=
    ⟨loop.ring.history.retired.length, loop.ring.out.event, loop.clock.tick,
      loop.record.frames.length⟩
  let loop := { loop with
    replay := applyLiveEvent port loop.ring.out.event loop.replay
    position := .drain (processed + 1)
    record.applied := loop.record.applied ++ [entry] }
  loop.call .pop

/-- The samples of one frame, silent or rendered. -/
def sample (silent : Bool) (replay : Replay F D σ) : (F × F) × Replay F D σ :=
  if silent then
    ((ofRat 0, ofRat 0),
      { replay with host := port.probe (add · ppReplaySilentFrames 1) replay.host })
  else
    let (out, live, host) := replay.live.render port 1 replay.host
    (out.headD (ofRat 0, ofRat 0), { replay with live := live, host := host })

/-- One frame is made and its output starts. -/
def emit (backlog : Bool) (reading : Reading) (loop : Loop F D σ) : Loop F D σ :=
  let silent := loop.recoveryPending || backlog
  let (out, replay) := sample port silent loop.replay
  let left := floatToS24 truncate out.1
  let right := floatToS24 truncate out.2
  let frame : Frame :=
    ⟨loop.clock.tick, silent, loop.recoveryPending, loop.record.visible, (left, right)⟩
  let loop := { loop with
    replay := replay
    position := .fifo .left left right reading.ticks
    record.frames := loop.record.frames ++ [frame] }
  loop.probe port (meter left right)

/-- One poll of `poc_wait_fifo`, and the write that follows it. -/
def push (side : Side) (left right : Int32) (start : UInt64) (reading : Reading)
    (loop : Loop F D σ) : Loop F D σ :=
  if reading.control &&& maiCtlFull ≠ 0 then
    if timing.maxLag ≤ reading.ticks - start then
      { loop.probe port fail with position := .stalled }
    else loop
  else
    match side with
    | .left => { loop with
        position := .fifo .right left right reading.ticks
        record.words := loop.record.words ++ [Hdmi.iec958Word left loop.frame] }
    | .right => { loop with
        position := .written
        record.words := loop.record.words ++ [Hdmi.iec958Word right loop.frame] }

/-- The counts after a frame. -/
def advance (reading : Reading) (loop : Loop F D σ) : Loop F D σ :=
  let loop := { loop with
    frame := Hdmi.nextFrame loop.frame
    framesWritten := loop.framesWritten + 1
    clock := loop.clock.advance
    position := .top }
  (loop.probe port (set · ppPcmFrames loop.framesWritten)).report port timing reading

/-- The next step of CPU1 between two operations on the ring. -/
def control (reading : Reading) (loop : Loop F D σ) : Option (Loop F D σ) :=
  match loop.position with
  | .enter => some { loop with lastDrop := loop.ring.shared.dropped, position := .started }
  | .started => some { loop with
      lastReport := reading.ticks
      clock := .start reading.ticks timing.frequency.toUInt32 timing.latency
      position := .top }
  | .top =>
      let (live, host) := loop.replay.live.mixerApply port loop.replay.host
      some { loop with
        replay.live := live
        replay.host := host
        position := .dropped reading.ticks }
  | .dropped now =>
      let loop := { loop with record.checks := loop.record.checks + 1 }
      if loop.ring.shared.dropped ≠ loop.lastDrop then some (loop.tested port true)
      else some { loop with position := .pending now }
  | .pending now =>
      some (loop.tested port
        (decide (6144 ≤ loop.ring.shared.eventHead - loop.ring.shared.eventTail) ||
          loop.clock.late now timing.latency timing.maxLag))
  | .recovered =>
      if loop.ring.out.taken then
        some { loop with
          replay := restoreLiveState port loop.ring.out.snapshot loop.replay
          lastDrop := loop.ring.out.snapshot.dropped
          clock := .start reading.ticks timing.frequency.toUInt32 timing.latency
          recoveryPending := false
          position := .wait }
      else some { loop.probe port (add · ppSnapshotRetries 1) with position := .output false }
  | .wait =>
      if ReplayClock.due reading.ticks (loop.clock.tick + timing.latency) then
        some { loop with position := .drain 0 }
      else some loop
  | .drain processed =>
      if processed < 128 then some { loop.call .peek with position := .peeked processed }
      else some { loop.call .peek with position := .checked }
  | .peeked processed =>
      if loop.ring.out.found && ReplayClock.due loop.clock.tick loop.ring.out.event.ticks then
        some (loop.apply port processed)
      else some { loop.call .peek with position := .checked }
  | .checked => some { loop with
      position := .output
        (loop.ring.out.found && ReplayClock.due loop.clock.tick loop.ring.out.event.ticks) }
  | .output backlog => some (loop.emit port truncate backlog reading)
  | .fifo side left right start => some (loop.push port timing side left right start reading)
  | .written => some (loop.advance port timing reading)
  | .stalled => none

/-- One step of the operation on the ring; the head load of a peek fixes what it can see. -/
def served (loop : Loop F D σ) (ring : EventRing.State) : Loop F D σ :=
  { loop with
    ring := ring
    record.visible :=
      match loop.ring.consumer with
      | .peek => loop.ring.history.unread
      | _ => loop.record.visible }

/-- The next step of CPU1. -/
def cpu1 (reading : Reading) (loop : Loop F D σ) : Option (Loop F D σ) :=
  match loop.ring.consumer with
  | .idle => loop.control port timing truncate reading
  | _ => (EventRing.consume loop.ring).map loop.served

/-- CPU0 captures, serves the cache and the mailbox; CPU1 runs the loop. -/
inductive Label (port : Port σ) where
  | capture (call : Mirror.Call)
  | produce (ticks : UInt64)
  | host (guest : Guest port)
  | cpu1 (reading : Reading)

def step (label : Label port) (loop : Loop F D σ) : Option (Loop F D σ) :=
  match label with
  | .capture call => (EventRing.capture call loop.ring).map ({ loop with ring := · })
  | .produce ticks => (EventRing.produce ticks loop.ring).map ({ loop with ring := · })
  | .host guest => some { loop with replay.host := guest.act loop.replay.host }
  | .cpu1 reading => loop.cpu1 port timing truncate reading

def machine : Machine (Loop F D σ) (Label port) := ⟨step port timing truncate⟩

/-- The loop is entered, some time after `paula_mirror_enable`; `out` is what its
uninitialised variables hold. -/
def start (events : Nat → Event) (metrics : Metrics) (out : EventRing.Out) (host : σ) :
    Loop F D σ where
  ring := EventRing.start events metrics out
  replay := .initial port host
  clock := ⟨0, 0, 0⟩
  lastDrop := 0
  recoveryPending := false
  lastReport := 0
  frame := 0
  framesWritten := 0
  position := .enter
  record := ⟨[], [], [], 0, []⟩

end Loop

end Paulastorm.Poc
