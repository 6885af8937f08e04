import Paulastorm.Poc.Agreement
import Paulastorm.Poc.Loop.Loss

namespace Paulastorm.Poc

/-! The replay loop performs operations on the registers, one after the other: the drain
loop applies the events that it pops, a recovery restores what a snapshot has cut, and a
frame that is not silent renders.  The copies of the registers agree after any of them, and
hold what the operations have written.
-/

open Paulastorm.Core Mirror Probe
open Library (Machine)
open Live (Shown Shows)

def Operation.event? : Operation → Option Event
  | .apply event => some event
  | _ => none

def Operation.snapshot? : Operation → Option Snapshot
  | .restore snapshot => some snapshot
  | _ => none

def Operation.renders : Operation → Bool
  | .render _ => true
  | _ => false

section Words

variable {F D σ : Type} [Floating F] [Floating D] {port : Port σ} {programmed : Programmed}
  {registers : Copies} {replay : Replay F D σ}

omit [Floating F] [Floating D] in
/-- Words that show no register are nothing to the copies. -/
theorem Together.congr {host : σ} (together : Together port programmed registers replay)
    (shown : Shown.of (port.metrics host) = .of (port.metrics replay.host)) :
    Together port programmed registers { replay with host := host } := by
  have same : ({ replay with host := host } : Replay F D σ).copies port = replay.copies port :=
    Copies.ext rfl shown
  exact ⟨same ▸ together.agree, together.restarts, same ▸ together.registers⟩

omit [Floating F] [Floating D] in
theorem Together.probe (owns : port.Owns fun word => word ∉ sharedWords)
    (together : Together port programmed registers replay) {change : Metrics → Metrics}
    (hidden : ∀ metrics, Shown.of (change metrics) = .of metrics) :
    Together port programmed registers { replay with host := port.probe change replay.host } :=
  together.congr (by rw [owns.metrics_probe, hidden])

end Words

theorem meter_shown (left right : Int32) (metrics : Metrics) :
    Shown.of (meter left right metrics) = .of metrics := by
  have frames : ¬ Shows ppNonzeroFrames := by decide
  have leftPeak : ¬ Shows ppPeakLeft := by decide
  have rightPeak : ¬ Shows ppPeakRight := by decide
  simp only [meter]
  split <;> split <;> split <;>
    simp only [Shown.of_set rightPeak, Shown.of_set leftPeak, Shown.of_add frames]

theorem fail_shown (metrics : Metrics) : Shown.of (fail metrics) = .of metrics := by
  rw [fail, Shown.of_flag, Shown.of_flag, Shown.of_set (by decide)]

namespace Loop

variable {F D σ : Type} {port : Port σ} {timing : Timing}

/-- The snapshot that is cut and not restored yet. -/
def cutting (loop : Loop F D σ) : List Snapshot :=
  if loop.unrestored = 0 then [] else [loop.ring.out.snapshot]

/-- What the loop has done to the registers, and how the copies stand after it. -/
structure Copied (port : Port σ) (operations : List Operation) (loop : Loop F D σ) :
    Prop where
  applied : operations.filterMap Operation.event? = loop.record.applied.map Applied.event
  restored : operations.filterMap Operation.snapshot? ++ loop.cutting =
    loop.ring.history.cuts.map EventRing.Cut.snapshot
  rendered : operations.countP Operation.renders = loop.record.frames.countP (!·.silent)
  together : Together port (programmed operations) (registers operations) loop.replay

variable {operations : List Operation} {loop next : Loop F D σ} {label : Label port}
  {reading : Reading}

/-- A step that is no operation on the registers. -/
theorem Copied.same (copied : Copied port operations loop)
    (applied : next.record.applied = loop.record.applied)
    (frames : next.record.frames.countP (!·.silent) = loop.record.frames.countP (!·.silent))
    (cuts : next.ring.history.cuts = loop.ring.history.cuts) (cutting : next.cutting = loop.cutting)
    (together : Together port (programmed operations) (registers operations) next.replay) :
    Copied port operations next where
  applied := applied ▸ copied.applied
  restored := by rw [cutting, cuts, copied.restored]
  rendered := copied.rendered.trans frames.symm
  together := together

/-- One more operation. -/
theorem programmed_append (operations : List Operation) (operation : Operation) :
    programmed (operations ++ [operation]) = operation.programs (programmed operations) :=
  List.foldl_append

theorem registers_append (operations : List Operation) (operation : Operation) :
    registers (operations ++ [operation]) = operation.registers (registers operations) :=
  List.foldl_append

theorem cutting_elsewhere (away : loop.position ≠ .recovered) : loop.cutting = [] :=
  if_pos (unrestored_elsewhere away)

theorem served_copied {ring : EventRing.State} (sound : Sound loop)
    (copied : Copied port operations loop) (moved : EventRing.consume loop.ring = some ring) :
    Copied port operations (loop.served ring) := by
  by_cases cut : ∃ head, loop.ring.consumer = .discard head
  · obtain ⟨head, consumer⟩ := cut
    obtain ⟨done, -, out, history⟩ := EventRing.consume_discard consumer moved
    have here : loop.position = .recovered := sound.recovered (by rw [consumer]; rfl)
    have before : loop.cutting = [] := by simp [cutting, unrestored, here, consumer]
    have after : (loop.served ring).cutting = [loop.ring.out.snapshot] := by
      simp [cutting, unrestored, served, here, done, out]
    refine ⟨copied.applied, ?_, copied.rendered, copied.together⟩
    have restored := copied.restored
    rw [before, List.append_nil] at restored
    rw [after, restored]
    change _ = List.map _ ring.history.cuts
    simp [history, EventRing.History.cut]
  · have cuts : ∀ head, loop.ring.consumer ≠ .discard head := fun head here => cut ⟨head, here⟩
    obtain ⟨unrestored, snapshot⟩ := served_uncut sound moved cuts
    have same : ring.history.cuts = loop.ring.history.cuts := by
      have balance := served_unrestored sound moved
      by_cases pops : ∃ seen, loop.ring.consumer = .advance seen
      · obtain ⟨seen, consumer⟩ := pops
        rw [(EventRing.consume_advance consumer moved).2.2]
        rfl
      · exact (EventRing.consume_retired moved (fun seen here => pops ⟨seen, here⟩) cuts).2
    refine copied.same rfl rfl same ?_ copied.together
    simp only [cutting, unrestored]
    split
    · rfl
    next cut => exact congrArg (fun snapshot => [snapshot]) (snapshot cut)

theorem tested_copied (owns : port.Owns fun word => word ∉ sharedWords)
    (copied : Copied port operations loop) (away : loop.position ≠ .recovered) (recover : Bool) :
    Copied port operations (loop.tested port recover) := by
  have before := cutting_elsewhere away
  unfold tested
  split
  · refine copied.same rfl rfl rfl (Eq.trans (if_pos rfl) before.symm) ?_
    exact copied.together.probe owns fun metrics => Shown.of_flag _ _
  · exact copied.same rfl rfl rfl (Eq.trans (if_pos rfl) before.symm) copied.together

theorem report_copied (owns : port.Owns fun word => word ∉ sharedWords)
    (copied : Copied port operations loop) (away : loop.position ≠ .recovered) :
    Copied port operations (loop.report port timing reading) := by
  have before := cutting_elsewhere away
  unfold report
  split
  · refine copied.same rfl rfl rfl (Eq.trans (cutting_elsewhere away) before.symm) ?_
    have lag : ¬ Shows ppReplayLagUs := by decide
    have control : ¬ Shows ppMaiCtl := by decide
    exact (copied.together.probe owns fun metrics => Shown.of_set lag _).probe owns
      fun metrics => Shown.of_set control _
  · exact copied

variable [Floating F] [Floating D] [Arith F D] {truncate : F → Int32}

/-- A frame, which is silent or renders. -/
theorem emit_copied (owns : port.Owns fun word => word ∉ sharedWords)
    (copied : Copied port operations loop) (away : loop.position ≠ .recovered) (backlog : Bool) :
    ∃ more, Copied port (operations ++ more) (loop.emit port truncate backlog reading) := by
  have before := cutting_elsewhere away
  have after : (loop.emit port truncate backlog reading).cutting = [] := if_pos rfl
  have frames : (loop.emit port truncate backlog reading).record.frames.countP (!·.silent) =
      loop.record.frames.countP (!·.silent) +
        if (loop.recoveryPending || backlog) = true then 0 else 1 := by
    change List.countP _ (loop.record.frames ++ [_]) = _
    rw [List.countP_append, List.countP_singleton]
    cases loop.recoveryPending || backlog <;> rfl
  cases silent : loop.recoveryPending || backlog with
  | true =>
      rw [silent, if_pos rfl] at frames
      rw [Nat.add_zero] at frames
      refine ⟨[], (List.append_nil operations).symm ▸
        copied.same rfl frames rfl (after.trans before.symm) ?_⟩
      have hidden : ¬ Shows ppReplaySilentFrames := by decide
      have counted := copied.together.probe owns
        fun metrics => @Shown.of_add metrics _ hidden 1
      simp only [emit, probe, silent, sample, if_true]
      exact counted.probe owns (meter_shown _ _)
  | false =>
      rw [silent, if_neg Bool.false_ne_true] at frames
      refine ⟨[.render 1], ?_, ?_, ?_, ?_⟩
      · rw [List.filterMap_append]
        exact (List.append_nil _).trans copied.applied
      · rw [List.filterMap_append, after, ← before]
        exact (congrArg (· ++ loop.cutting) (List.append_nil _)).trans copied.restored
      · rw [List.countP_append, frames, copied.rendered]
        rfl
      · rw [programmed_append, registers_append]
        simp only [emit, probe, silent, sample, Bool.false_eq_true, if_false]
        exact (copied.together.perform owns (.render 1)).probe owns (meter_shown _ _)

theorem control_copied (owns : port.Owns fun word => word ∉ sharedWords)
    (copied : Copied port operations loop) (idle : loop.ring.consumer = .idle)
    (moved : loop.control port timing truncate reading = some next) :
    ∃ more, Copied port (operations ++ more) next := by
  have none {after : Loop F D σ} (unmoved : Copied port operations after) :
      ∃ more, Copied port (operations ++ more) after :=
    ⟨[], (List.append_nil operations).symm ▸ unmoved⟩
  have stay {after : Loop F D σ} (away : loop.position ≠ .recovered)
      (arrives : after.position ≠ .recovered) (record : after.record.applied = loop.record.applied ∧
        after.record.frames = loop.record.frames)
      (cuts : after.ring.history.cuts = loop.ring.history.cuts)
      (together : Together port (programmed operations) (registers operations) after.replay) :
      ∃ more, Copied port (operations ++ more) after :=
    none (copied.same record.1 (by rw [record.2]) cuts
      ((cutting_elsewhere arrives).trans (cutting_elsewhere away).symm) together)
  cases here : loop.position with
  | enter | started | checked =>
      simp only [control, here] at moved
      cases moved
      exact stay (by simp [here]) Position.noConfusion ⟨rfl, rfl⟩ rfl copied.together
  | top =>
      simp only [control, here] at moved
      cases moved
      refine stay (by simp [here]) Position.noConfusion ⟨rfl, rfl⟩ rfl ?_
      exact copied.together.mixerApply owns
  | dropped now =>
      have checked : Copied port operations { loop with record.checks := loop.record.checks + 1 } :=
        copied.same rfl rfl rfl rfl copied.together
      simp only [control, here] at moved
      split at moved <;> cases moved
      · exact none (tested_copied owns checked (by simp [here]) true)
      · exact stay (by simp [here]) Position.noConfusion ⟨rfl, rfl⟩ rfl copied.together
  | pending now =>
      simp only [control, here] at moved
      cases moved
      exact none (tested_copied owns copied (by simp [here]) _)
  | recovered =>
      simp only [control, here] at moved
      split at moved <;> cases moved
      next taken =>
        have cut : loop.cutting = [loop.ring.out.snapshot] := by
          simp [cutting, unrestored, here, idle, taken]
        have restored := copied.restored
        refine ⟨[.restore loop.ring.out.snapshot], ?_, ?_, ?_, ?_⟩
        · rw [List.filterMap_append]
          exact (List.append_nil _).trans copied.applied
        · rw [cut] at restored
          rw [List.filterMap_append]
          exact (List.append_nil _).trans restored
        · rw [List.countP_append]
          exact copied.rendered
        · rw [programmed_append, registers_append]
          exact copied.together.perform owns (.restore loop.ring.out.snapshot)
      next refused =>
        have uncut : loop.cutting = [] := by simp [cutting, unrestored, here, idle, refused]
        have hidden : ¬ Shows ppSnapshotRetries := by decide
        refine none (copied.same rfl rfl rfl (Eq.trans (if_pos rfl) uncut.symm) ?_)
        exact copied.together.probe owns fun metrics => Shown.of_add hidden 1
  | wait | drain =>
      simp only [control, here] at moved
      split at moved <;> cases moved
      · exact stay (by simp [here]) Position.noConfusion ⟨rfl, rfl⟩ rfl copied.together
      · first
          | exact none copied
          | exact stay (by simp [here]) Position.noConfusion ⟨rfl, rfl⟩ rfl copied.together
  | peeked processed =>
      simp only [control, here] at moved
      split at moved <;> cases moved
      · have before : loop.cutting = [] := cutting_elsewhere (by simp [here])
        have after : (loop.apply port processed).cutting = [] := if_pos rfl
        refine ⟨[.apply loop.ring.out.event], ?_, ?_, ?_, ?_⟩
        · rw [List.filterMap_append, copied.applied]
          simp [Loop.apply, call, Operation.event?]
        · rw [List.filterMap_append, after, ← before]
          exact (congrArg (· ++ loop.cutting) (List.append_nil _)).trans copied.restored
        · rw [List.countP_append]
          exact copied.rendered
        · rw [programmed_append, registers_append]
          exact copied.together.perform owns (.apply loop.ring.out.event)
      · exact stay (by simp [here]) Position.noConfusion ⟨rfl, rfl⟩ rfl copied.together
  | output backlog =>
      simp only [control, here] at moved
      cases moved
      exact emit_copied owns copied (by simp [here]) backlog
  | fifo side left right since =>
      simp only [control, here] at moved
      cases moved
      unfold push
      split
      · split
        · refine stay (by simp [here]) Position.noConfusion ⟨rfl, rfl⟩ rfl ?_
          exact copied.together.probe owns fail_shown
        · exact none copied
      · cases side <;>
          exact stay (by simp [here]) Position.noConfusion ⟨rfl, rfl⟩ rfl copied.together
  | written =>
      simp only [control, here] at moved
      cases moved
      have hidden : ¬ Shows ppPcmFrames := by decide
      refine none (report_copied owns ?_ Position.noConfusion)
      refine copied.same rfl rfl rfl (Eq.trans (if_pos rfl)
        (cutting_elsewhere (by simp [here])).symm) ?_
      exact copied.together.probe owns fun metrics => Shown.of_set hidden _
  | stalled =>
      simp only [control, here] at moved
      cases moved

theorem step_copied (owns : port.Owns fun word => word ∉ sharedWords) (sound : Sound loop)
    (copied : Copied port operations loop)
    (stepped : step port timing truncate label loop = some next) :
    ∃ more, Copied port (operations ++ more) next := by
  have none {after : Loop F D σ} (unmoved : Copied port operations after) :
      ∃ more, Copied port (operations ++ more) after :=
    ⟨[], (List.append_nil operations).symm ▸ unmoved⟩
  have ring {ring : EventRing.State} (kept : EventRing.ConsumerKept loop.ring ring) :
      Copied port operations { loop with ring := ring } := by
    refine copied.same rfl rfl kept.cuts ?_ copied.together
    simp only [cutting, unrestored_kept kept, kept.out]
  cases label with
  | capture call =>
      obtain ⟨ring', entered, rfl⟩ := Option.map_eq_some_iff.mp stepped
      exact none (ring (EventRing.capture_kept entered).1)
  | produce ticks =>
      obtain ⟨ring', moved, rfl⟩ := Option.map_eq_some_iff.mp stepped
      exact none (ring (EventRing.produce_kept moved))
  | host guest =>
      cases stepped
      refine none (copied.same rfl rfl rfl rfl (copied.together.congr ?_))
      exact Shown.of_congr fun word shows => guest.own _ word shows.own
  | cpu1 reading =>
      simp only [step, cpu1] at stepped
      split at stepped
      next idle => exact control_copied owns copied idle stepped
      next =>
        obtain ⟨ring', moved, rfl⟩ := Option.map_eq_some_iff.mp stepped
        exact none (served_copied sound copied moved)

/-- Over every run the loop performs the events it has applied and the snapshots it has cut,
each once and in order, and a rendering for every frame that is not silent; whatever CPU0
does in between, the copies of the registers agree, and hold what these operations make of
registers after a reset, but for the audio requests. -/
theorem loop_performs_operations (owns : port.Owns fun word => word ∉ sharedWords)
    {events : Nat → Event} {metrics : Metrics} {out : EventRing.Out} {host : σ}
    (blank : port.metrics host = Probe.init) {labels : List (Label port)}
    (run : (machine port timing truncate).Runs Machine.anyStep
      (start port events metrics out host : Loop F D σ) labels loop) :
    ∃ operations,
      operations.filterMap Operation.event? = loop.record.applied.map Applied.event ∧
      operations.filterMap Operation.snapshot? ++ loop.cutting =
        loop.ring.history.cuts.map EventRing.Cut.snapshot ∧
      operations.countP Operation.renders = loop.record.frames.countP (!·.silent) ∧
      (loop.replay.copies port).withoutAudio = (registers operations).withoutAudio ∧
      (loop.replay.copies port).Agree (programmed operations) ∧
      ∀ ch, (loop.replay.live.core.channels ch).dmaWantsRestart = false ↔
        dmaOn loop.replay.live.core.dmaCon ch = true := by
  have first : Copied port [] (start port events metrics out host : Loop F D σ) :=
    ⟨rfl, rfl, rfl, initial_together owns blank⟩
  have both : Sound loop ∧ ∃ operations, Copied port operations loop := by
    refine run.invariant (motive := fun loop => Sound loop ∧ ∃ operations,
      Copied port operations loop) ?_ ⟨start_sound port events metrics out host, [], first⟩
    rintro label before after _ stepped ⟨sound, operations, copied⟩
    obtain ⟨more, copied'⟩ := step_copied owns sound copied stepped
    exact ⟨(step_turn stepped).sound sound, operations ++ more, copied'⟩
  obtain ⟨-, operations, applied, restored, rendered, together⟩ := both
  refine ⟨operations, applied, restored, rendered, together.registers, together.agree,
    fun ch => ?_⟩
  rw [together.restarts ch, Bool.not_eq_false']

set_option maxRecDepth 20000 in
/-- Two volumes are applied and a frame is rendered; the copies hold both volumes. -/
theorem loop_performs_operations_of_twoDue : ∃ operations,
    (operations.filterMap Operation.event?).map (fun event => event.value) = [64, 32] ∧
    operations.countP Operation.renders = 1 ∧
    (unloaded.replay.copies samplePort).withoutAudio = (registers operations).withoutAudio ∧
    (unloaded.replay.copies samplePort).Agree (programmed operations) ∧
    (unloaded.replay.live.core.bank.vol 0, unloaded.replay.live.core.bank.vol 1) = (64, 32) := by
  have run := (loaded_runs.weaken fun _ _ _ => trivial).append
    (unloaded_runs.weaken fun _ _ _ => trivial)
  obtain ⟨operations, applied, -, rendered, registers, agree, -⟩ :=
    loop_performs_operations (idealPort_owns_shared fun _ => 0) rfl run
  refine ⟨operations, ?_, rendered.trans rfl, registers, agree, by decide +kernel⟩
  rw [applied]
  rfl

end Loop

end Paulastorm.Poc
