import Paulastorm.Poc.Loop.Sound

namespace Paulastorm.Poc

/-! The counters of the replay loop in the diagnostic bank say what it did. -/

open Paulastorm.Core Mirror Probe
open Library (Machine)

namespace Loop

variable {F D σ : Type} {port : Port σ} {timing : Timing}

/-- A snapshot was refused, and the frame without it is still to come. -/
def retrying (loop : Loop F D σ) : Nat :=
  match loop.position with
  | .output _ => if loop.recoveryPending then 1 else 0
  | _ => 0

/-- A snapshot was taken, and the restore from it is still to come. -/
def unrestored (loop : Loop F D σ) : Nat :=
  match loop.position, loop.ring.consumer with
  | .recovered, .snapshotGauge | .recovered, .release => 1
  | .recovered, .idle => if loop.ring.out.taken then 1 else 0
  | _, _ => 0

def counter (port : Port σ) (loop : Loop F D σ) (word : Nat) : UInt32 :=
  get (port.metrics loop.replay.host) word

/-- What the counters have counted since they read `base`. -/
structure Counted (port : Port σ) (base : Nat → UInt32) (loop : Loop F D σ) : Prop where
  silent : loop.counter port ppReplaySilentFrames =
    base ppReplaySilentFrames + UInt32.ofNat (loop.record.frames.countP (·.silent))
  rendered : loop.counter port ppRenderFrames =
    base ppRenderFrames + UInt32.ofNat (loop.record.frames.countP (!·.silent))
  retries : loop.counter port ppSnapshotRetries = base ppSnapshotRetries +
    UInt32.ofNat (loop.record.frames.countP (·.recovering) + loop.retrying)
  resyncs : loop.counter port ppResyncs + UInt32.ofNat loop.unrestored =
    base ppResyncs + UInt32.ofNat loop.ring.history.cuts.length

variable {base : Nat → UInt32} {loop next : Loop F D σ} {label : Label port}

/-- A step that makes no frame, and after which as many frames and restores are to come. -/
theorem Counted.same (counted : Counted port base loop)
    (counters : ∀ word ∈ loopCounters, next.counter port word = loop.counter port word)
    (frames : next.record.frames = loop.record.frames) (retrying : next.retrying = loop.retrying)
    (unrestored : next.unrestored = loop.unrestored)
    (cuts : next.ring.history.cuts = loop.ring.history.cuts) : Counted port base next where
  silent := by rw [counters _ (by decide), frames, counted.silent]
  rendered := by rw [counters _ (by decide), frames, counted.rendered]
  retries := by rw [counters _ (by decide), frames, retrying, counted.retries]
  resyncs := by rw [counters _ (by decide), unrestored, cuts, counted.resyncs]

theorem Counted.kept (owns : port.Owns fun word => word ∉ sharedWords)
    (counted : Counted port base loop) (kept : loop.replay.Kept port [] next.replay)
    (frames : next.record.frames = loop.record.frames) (retrying : next.retrying = loop.retrying)
    (unrestored : next.unrestored = loop.unrestored)
    (cuts : next.ring.history.cuts = loop.ring.history.cuts) : Counted port base next :=
  counted.same (fun word counter =>
    (kept.counters owns word counter).trans (UInt32.add_zero _)) frames retrying unrestored cuts

theorem unrestored_elsewhere (other : loop.position ≠ .recovered) : loop.unrestored = 0 := by
  unfold unrestored
  cases position : loop.position <;> first | rfl | exact absurd position other

/-- A step of the operation on the ring: what a cut leaves to restore. -/
theorem served_unrestored {ring : EventRing.State} (sound : Sound loop)
    (moved : EventRing.consume loop.ring = some ring) :
    (loop.served ring).unrestored + loop.ring.history.cuts.length =
      loop.unrestored + ring.history.cuts.length := by
  by_cases recovered : loop.position = .recovered
  · have staged : loop.ring.consumer = .idle ∨ loop.ring.consumer.operation = .snapshot := by
      have staged := sound.staged
      rwa [recovered] at staged
    cases consumer : loop.ring.consumer <;> rw [consumer] at staged <;>
      simp only [EventRing.consume, consumer, reduceCtorEq] at moved
    case snapshot =>
      split at moved <;> cases moved <;>
        simp [unrestored, served, recovered, consumer]
    case loadHead | loadTail | copyLatest | loadDropped | snapshotGauge | release =>
      cases moved
      simp [unrestored, served, recovered, consumer]
    case discard =>
      cases moved
      simp [unrestored, served, recovered, consumer, EventRing.History.cut, Nat.add_comm]
    all_goals
      rcases staged with idle | other
      · cases idle
      · cases other
  · have other : loop.ring.consumer.operation ≠ .snapshot := by
      intro snapshot
      rcases sound.staged with idle | staged
      · simp [EventRing.consume, idle] at moved
      · rw [snapshot] at staged
        cases position : loop.position <;> rw [position] at staged <;>
          first | exact recovered position | cases staged
    have before := unrestored_elsewhere recovered
    have after : (loop.served ring).unrestored = 0 := unrestored_elsewhere recovered
    rw [before, after, EventRing.consume_cuts moved other]

theorem served_counted {ring : EventRing.State} (sound : Sound loop)
    (counted : Counted port base loop) (moved : EventRing.consume loop.ring = some ring) :
    Counted port base (loop.served ring) := by
  refine ⟨counted.silent, counted.rendered, counted.retries, ?_⟩
  have cut := congrArg UInt32.ofNat (served_unrestored sound moved)
  simp only [UInt32.ofNat_add] at cut
  have before := counted.resyncs
  change loop.counter port ppResyncs + _ = _ + UInt32.ofNat ring.history.cuts.length
  grind

/-- CPU0 restores nothing. -/
theorem unrestored_kept {ring : EventRing.State} (kept : EventRing.ConsumerKept loop.ring ring) :
    ({ loop with ring := ring } : Loop F D σ).unrestored = loop.unrestored := by
  simp only [unrestored, kept.consumer, kept.out]

variable [Floating F] [Floating D]

theorem Move.counted (owns : port.Owns fun word => word ∉ sharedWords) (sound : Sound loop)
    (counted : Counted port base loop) (idle : loop.ring.consumer = .idle)
    (move : Move port timing loop next) : Counted port base next := by
  cases move with
  | adopt _ here kept =>
      refine counted.kept owns kept rfl ?_ ?_ rfl <;> simp [retrying, unrestored, here]
  | lost _ here _ kept | behind _ here kept =>
      refine counted.kept owns kept rfl ?_ ?_ rfl <;> simp [retrying, unrestored, here]
  | restore _ here taken =>
      have cut : loop.unrestored = 1 := by simp [unrestored, here, idle, taken]
      have counters := fun word (counter : word ∈ loopCounters) =>
        restore_counters owns loop.ring.out.snapshot loop.replay counter
      have resyncs := counted.resyncs
      rw [cut] at resyncs
      refine ⟨?_, ?_, ?_, ?_⟩
      · exact (counters _ (by decide)).trans ((UInt32.add_zero _).trans counted.silent)
      · exact (counters _ (by decide)).trans ((UInt32.add_zero _).trans counted.rendered)
      · have retries := counted.retries
        simp only [retrying, here] at retries
        exact (counters _ (by decide)).trans ((UInt32.add_zero _).trans retries)
      · exact (UInt32.add_zero _).trans ((counters _ (by decide)).trans resyncs)
  | retry here refused kept =>
      have cut : loop.unrestored = 0 := by simp [unrestored, here, idle, refused]
      have pending := sound.pending true (by rw [here]; rfl)
      have counters := kept.counters owns
      refine ⟨?_, ?_, ?_, ?_⟩
      · exact (counters _ (by decide)).trans ((UInt32.add_zero _).trans counted.silent)
      · exact (counters _ (by decide)).trans ((UInt32.add_zero _).trans counted.rendered)
      · have retries := counted.retries
        simp only [retrying, here, Nat.add_zero] at retries
        refine (counters _ (by decide)).trans ?_
        simp only [retrying, pending, if_true, UInt32.ofNat_add]
        rw [← UInt32.add_assoc, ← retries]
        rfl
      · have resyncs := counted.resyncs
        rw [cut] at resyncs
        refine Eq.trans ?_ resyncs
        refine congrArg (· + UInt32.ofNat 0) ?_
        exact (counters _ (by decide)).trans (UInt32.add_zero _)
  | emit backlog left right _ here kept =>
      have none : loop.unrestored = 0 := by simp [unrestored, here]
      have counters := kept.counters owns
      have one : ∀ mark : Bool, UInt32.ofNat (if mark then 1 else 0) = if mark then 1 else 0 :=
        fun mark => by cases mark <;> rfl
      have resyncs := counted.resyncs
      rw [none] at resyncs
      refine ⟨?_, ?_, ?_, ?_⟩
      · refine (counters _ (by decide)).trans ?_
        rw [List.countP_append, List.countP_singleton, UInt32.ofNat_add, ← UInt32.add_assoc,
          ← counted.silent, one]
        cases loop.recoveryPending || backlog <;> rfl
      · refine (counters _ (by decide)).trans ?_
        rw [List.countP_append, List.countP_singleton, UInt32.ofNat_add, ← UInt32.add_assoc,
          ← counted.rendered, one]
        cases loop.recoveryPending || backlog <;> rfl
      · have retries := counted.retries
        simp only [retrying, here] at retries
        have other : ∀ silent : Bool, ppSnapshotRetries ∉
            [if silent then ppReplaySilentFrames else ppRenderFrames] := by decide
        refine (counters _ (by decide)).trans ?_
        rw [if_neg (other _), UInt32.add_zero, List.countP_append, List.countP_singleton]
        exact retries
      · refine Eq.trans ?_ resyncs
        have other : ∀ silent : Bool, ppResyncs ∉
            [if silent then ppReplaySilentFrames else ppRenderFrames] := by decide
        refine congrArg (· + UInt32.ofNat 0) ((counters _ (by decide)).trans ?_)
        rw [if_neg (other _), UInt32.add_zero]
        rfl
  | stall _ _ _ _ here kept | advance _ here kept =>
      refine counted.kept owns kept rfl ?_ ?_ rfl <;> simp [retrying, unrestored, here]
  | early | full => exact counted
  | decide here =>
      have clear := sound.pending false (by rw [here]; rfl)
      refine counted.kept owns (.refl port _) rfl ?_ ?_ rfl <;>
        simp [retrying, unrestored, here, clear]
  | enter here | start _ here | intact _ here | pass _ here | paced here | look _ here
  | enough _ here | drained _ here | left _ _ _ _ here | right _ _ _ here =>
      refine counted.kept owns (.refl port _) rfl ?_ ?_ rfl <;> simp [retrying, unrestored, here]
  | apply processed here =>
      have counters := fun word (counter : word ∈ loopCounters) => applyLiveEvent_get
        (spared_of_counter counter) owns loop.ring.out.event loop.replay
      refine counted.same counters rfl ?_ ?_ rfl <;>
        simp [retrying, unrestored, here, Loop.apply, call]

theorem Turn.counted (owns : port.Owns fun word => word ∉ sharedWords) (sound : Sound loop)
    (counted : Counted port base loop) (turn : Turn port timing loop label next) :
    Counted port base next := by
  cases turn with
  | captured entered =>
      obtain ⟨kept, _⟩ := EventRing.capture_kept entered
      exact counted.same (fun _ _ => rfl) rfl rfl (unrestored_kept kept) kept.cuts
  | produced moved =>
      have kept := EventRing.produce_kept moved
      exact counted.same (fun _ _ => rfl) rfl rfl (unrestored_kept kept) kept.cuts
  | host guest =>
      refine counted.same (fun word counter => ?_) rfl rfl rfl rfl
      exact guest.own _ word (spared_of_counter counter).shared
  | served _ moved => exact served_counted sound counted moved
  | moved _ idle move => exact move.counted owns sound counted idle

theorem start_counted (port : Port σ) (events : Nat → Event) (metrics : Metrics)
    (out : EventRing.Out) (host : σ) :
    Counted port ((start port events metrics out host : Loop F D σ).counter port)
      (start port events metrics out host : Loop F D σ) := by
  refine ⟨?_, ?_, ?_, rfl⟩ <;> exact (UInt32.add_zero _).symm

variable [Arith F D] {truncate : F → Int32}

theorem run_counted (owns : port.Owns fun word => word ∉ sharedWords)
    {allowed : Label port → Loop F D σ → Prop} {labels : List (Label port)}
    (run : (machine port timing truncate).Runs allowed loop labels next) (sound : Sound loop)
    (counted : Counted port base loop) : Counted port base next := by
  have both : Sound next ∧ Counted port base next := by
    refine run.invariant (motive := fun loop => Sound loop ∧ Counted port base loop) ?_
      ⟨sound, counted⟩
    intro label before after _ stepped both
    have turn := step_turn stepped
    exact ⟨turn.sound both.1, turn.counted owns both.1 both.2⟩
  exact both.2

/-- Over every run: silent and rendered frames, the frames without a snapshot, and the
snapshots that were restored. -/
theorem counters_truthful (owns : port.Owns fun word => word ∉ sharedWords)
    {events : Nat → Event} {metrics : Metrics} {out : EventRing.Out} {host : σ}
    {labels : List (Label port)}
    (run : (machine port timing truncate).Runs Machine.anyStep
      (start port events metrics out host) labels loop) :
    Counted port ((start port events metrics out host : Loop F D σ).counter port) loop :=
  run_counted owns run (start_sound port events metrics out host)
    (start_counted port events metrics out host)

/-- Truncation towards zero. -/
def truncateRat (value : ℚ) : Int32 := .ofInt (value.num.tdiv value.den)

theorem idealPort_owns_shared (chip : Nat → UInt8) :
    (Live.idealPort chip).Owns fun word => word ∉ sharedWords where
  metrics_probe _ _ := rfl
  missed_probe _ _ := rfl
  readByte _ _ _ _ := rfl
  prefetch _ _ _ _ _ := rfl
  renderBegin _ _ _ := rfl

abbrev samplePort : Port Metrics := Live.idealPort fun _ => 0

/-- A loop on a bank that is just initialised, and a counter of 54 MHz. -/
def sampleLoop : Loop ℚ ℚ Metrics :=
  start samplePort (fun _ => EventRing.blankEvent) Probe.init
    ⟨EventRing.blankEvent, false, { Latest.empty with ticks := 0, skipped := 0, dropped := 0 }, false⟩
    Probe.init

def sampleMachine : Machine (Loop ℚ ℚ Metrics) (Label samplePort) :=
  machine samplePort ⟨54000000⟩ truncateRat

/-- CPU1 runs while the counter stands still and the output has room. -/
def turns (count : Nat) (ticks : UInt64) : List (Label samplePort) :=
  List.replicate count (.cpu1 ⟨ticks, 0⟩)

set_option maxRecDepth 20000 in
/-- The first frame finds nothing to apply and is rendered. -/
theorem counters_truthful_of_oneFrame : ∃ loop,
    sampleMachine.Runs Machine.anyStep sampleLoop (turns 14 60000000) loop ∧
    loop.record.frames.length = 1 ∧ Counted samplePort (sampleLoop.counter samplePort) loop := by
  have executed : (sampleMachine.run Machine.anyStep (turns 14 60000000) sampleLoop).map
      (fun loop => loop.record.frames.length) = some 1 := rfl
  obtain ⟨loop, run, frames⟩ := Machine.runs_of_observed executed
  exact ⟨loop, run, frames, counters_truthful (idealPort_owns_shared fun _ => 0) run⟩

end Loop

end Paulastorm.Poc
