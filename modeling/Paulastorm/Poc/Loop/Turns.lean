import Paulastorm.Mirror.EventRing.Steps
import Paulastorm.Poc.Words

namespace Paulastorm.Poc

/-! What a step of the replay loop can do, and what holds of the ring and of the
last peek after any of them. -/

open Paulastorm.Core Mirror Probe
open Library (Machine)

namespace Loop

variable {F D σ : Type} {port : Port σ} {timing : Timing}

/-- The steps of CPU1 between two operations on the ring, by position. -/
inductive Move (port : Port σ) (timing : Timing) [Floating F] [Floating D] (loop : Loop F D σ) :
    Loop F D σ → Prop
  | enter : loop.position = .enter →
      Move port timing loop { loop with
        lastDrop := loop.ring.shared.dropped
        position := .started }
  | start (now : UInt64) : loop.position = .started →
      Move port timing loop { loop with
        lastReport := now
        clock := .start now timing.frequency.toUInt32 timing.latency
        position := .top }
  | adopt {replay : Replay F D σ} (now : UInt64) : loop.position = .top →
      loop.replay.Kept port [] replay →
      Move port timing loop { loop with replay := replay, position := .dropped now }
  | lost {replay : Replay F D σ} (now : UInt64) : loop.position = .dropped now →
      loop.ring.shared.dropped ≠ loop.lastDrop → loop.replay.Kept port [] replay →
      Move port timing loop { loop with
        ring.consumer := .snapshot
        replay := replay
        recoveryPending := true
        position := .recovered
        record.checks := loop.record.checks + 1 }
  | intact (now : UInt64) : loop.position = .dropped now →
      loop.ring.shared.dropped = loop.lastDrop →
      Move port timing loop { loop with
        position := .pending now
        record.checks := loop.record.checks + 1 }
  | behind {replay : Replay F D σ} (now : UInt64) : loop.position = .pending now →
      loop.replay.Kept port [] replay →
      Move port timing loop { loop with
        ring.consumer := .snapshot
        replay := replay
        recoveryPending := true
        position := .recovered }
  | pass (now : UInt64) : loop.position = .pending now → loop.recoveryPending = false →
      ¬ 6144 ≤ loop.ring.shared.eventHead - loop.ring.shared.eventTail →
      Move port timing loop { loop with position := .wait }
  | restore (now : UInt64) : loop.position = .recovered → loop.ring.out.taken = true →
      Move port timing loop { loop with
        replay := restoreLiveState port loop.ring.out.snapshot loop.replay
        lastDrop := loop.ring.out.snapshot.dropped
        clock := .start now timing.frequency.toUInt32 timing.latency
        recoveryPending := false
        position := .wait }
  | retry {replay : Replay F D σ} : loop.position = .recovered → loop.ring.out.taken = false →
      loop.replay.Kept port [ppSnapshotRetries] replay →
      Move port timing loop { loop with replay := replay, position := .output false }
  | early : loop.position = .wait → Move port timing loop loop
  | paced : loop.position = .wait → Move port timing loop { loop with position := .drain 0 }
  | look (processed : Nat) : loop.position = .drain processed → processed < 128 →
      Move port timing loop { loop with
        ring.consumer := .peek
        position := .peeked processed }
  | enough (processed : Nat) : loop.position = .drain processed → ¬ processed < 128 →
      Move port timing loop { loop with ring.consumer := .peek, position := .checked }
  | apply (processed : Nat) : loop.position = .peeked processed →
      loop.ring.out.found = true →
      ReplayClock.due loop.clock.tick loop.ring.out.event.ticks = true →
      Move port timing loop (loop.apply port processed)
  | drained (processed : Nat) : loop.position = .peeked processed →
      ¬ (loop.ring.out.found = true ∧
        ReplayClock.due loop.clock.tick loop.ring.out.event.ticks = true) →
      Move port timing loop { loop with ring.consumer := .peek, position := .checked }
  | decide : loop.position = .checked →
      Move port timing loop { loop with
        position := .output
          (loop.ring.out.found && ReplayClock.due loop.clock.tick loop.ring.out.event.ticks) }
  | emit {replay : Replay F D σ} (backlog : Bool) (left right : Int32) (now : UInt64) :
      loop.position = .output backlog →
      loop.replay.Kept port
        [if loop.recoveryPending || backlog then ppReplaySilentFrames else ppRenderFrames]
        replay →
      Move port timing loop { loop with
        replay := replay
        position := .fifo .left left right now
        record.frames := loop.record.frames ++
          [⟨loop.clock.tick, loop.recoveryPending || backlog, loop.recoveryPending,
            loop.record.visible, (left, right)⟩] }
  | full (side : Side) (left right : Int32) (since : UInt64) :
      loop.position = .fifo side left right since → Move port timing loop loop
  | stall {replay : Replay F D σ} (side : Side) (left right : Int32) (since : UInt64) :
      loop.position = .fifo side left right since → loop.replay.Kept port [] replay →
      Move port timing loop { loop with replay := replay, position := .stalled }
  | left (left right : Int32) (since now : UInt64) : loop.position = .fifo .left left right since →
      Move port timing loop { loop with
        position := .fifo .right left right now
        record.words := loop.record.words ++ [Hdmi.iec958Word left loop.frame] }
  | right (left right : Int32) (since : UInt64) : loop.position = .fifo .right left right since →
      Move port timing loop { loop with
        position := .written
        record.words := loop.record.words ++ [Hdmi.iec958Word right loop.frame] }
  | advance {replay : Replay F D σ} (date : UInt64) : loop.position = .written →
      loop.replay.Kept port [] replay →
      Move port timing loop { loop with
        replay := replay
        lastReport := date
        frame := Hdmi.nextFrame loop.frame
        framesWritten := loop.framesWritten + 1
        clock := loop.clock.advance
        position := .top }

variable {loop next : Loop F D σ} {reading : Reading}

/-- Between two operations CPU1 does nothing to the ring but start the next one. -/
theorem Move.ring [Floating F] [Floating D] (move : Move port timing loop next) :
    ∃ operation, next.ring = { loop.ring with consumer := operation } := by
  cases move <;> exact ⟨_, rfl⟩

/-- An update of the bank that moves no counter of the loop. -/
theorem kept_probe (replay : Replay F D σ) {change : Metrics → Metrics}
    (same : ∀ metrics, ∀ word ∈ loopCounters, get (change metrics) word = get metrics word) :
    replay.Kept port [] { replay with host := port.probe change replay.host } :=
  (Replay.Kept.refl port replay).andProbe same

/-- The report changes diagnostic words and its own date. -/
theorem report_eq (port : Port σ) (timing : Timing) (reading : Reading) (loop : Loop F D σ) :
    ∃ replay date, loop.replay.Kept port [] replay ∧
      loop.report port timing reading = { loop with replay := replay, lastReport := date } := by
  unfold report
  split
  · refine ⟨_, _, ?_, rfl⟩
    exact (kept_probe loop.replay (set_counters (by decide) · _)).andProbe
      (set_counters (by decide) · _)
  · exact ⟨loop.replay, loop.lastReport, .refl port _, rfl⟩

variable [Floating F] [Floating D] [Arith F D] {truncate : F → Int32}

theorem control_move (moved : loop.control port timing truncate reading = some next) :
    Move port timing loop next := by
  cases here : loop.position with
  | enter =>
      simp only [control, here] at moved
      cases moved
      exact .enter here
  | started =>
      simp only [control, here] at moved
      cases moved
      exact .start reading.ticks here
  | top =>
      simp only [control, here] at moved
      cases moved
      exact .adopt reading.ticks here (Replay.mixerApply_kept port loop.replay)
  | dropped now =>
      simp only [control, here] at moved
      split at moved
      next lost =>
        cases moved
        simp only [tested, Bool.or_true, if_true]
        exact .lost now here lost (kept_probe loop.replay (flag_counters _ _))
      next intact =>
        cases moved
        exact .intact now here (not_not.mp intact)
  | pending now =>
      simp only [control, here] at moved
      cases moved
      simp only [tested]
      split
      · exact .behind now here (kept_probe loop.replay (flag_counters _ _))
      next clear =>
        simp only [Bool.or_eq_true, decide_eq_true_eq, not_or, Bool.not_eq_true] at clear
        exact .pass now here clear.1 clear.2.1
  | recovered =>
      simp only [control, here] at moved
      split at moved
      next taken =>
        cases moved
        exact .restore reading.ticks here taken
      next refused =>
        cases moved
        refine .retry here (Bool.not_eq_true _ ▸ refused) (.probe port loop.replay ?_)
        intro metrics word counter
        rw [get_add (by decide)]
        simp only [List.mem_singleton]
  | wait =>
      simp only [control, here] at moved
      split at moved <;> cases moved
      · exact .paced here
      · exact .early here
  | drain processed =>
      simp only [control, here] at moved
      split at moved
      next less =>
        cases moved
        exact .look processed here less
      next enough =>
        cases moved
        exact .enough processed here enough
  | peeked processed =>
      simp only [control, here, Bool.and_eq_true] at moved
      split at moved
      next both =>
        cases moved
        exact .apply processed here both.1 both.2
      next drained =>
        cases moved
        exact .drained processed here drained
  | checked =>
      simp only [control, here] at moved
      cases moved
      exact .decide here
  | output backlog =>
      simp only [control, here] at moved
      cases moved
      have sampled := Replay.sample_kept port (loop.recoveryPending || backlog) loop.replay
      exact .emit backlog _ _ reading.ticks here (sampled.andProbe (meter_counters _ _))
  | fifo side left right since =>
      simp only [control, here] at moved
      cases moved
      unfold push
      split
      · split
        · exact .stall side left right since here (kept_probe loop.replay fail_counters)
        · exact .full side left right since here
      · cases side
        · exact .left left right since reading.ticks here
        · exact .right left right since here
  | written =>
      simp only [control, here] at moved
      cases moved
      simp only [Loop.advance]
      let counted : Loop F D σ := { loop with
        frame := Hdmi.nextFrame loop.frame
        framesWritten := loop.framesWritten + 1
        clock := loop.clock.advance
        position := .top }
      obtain ⟨replay, date, kept, reported⟩ := report_eq port timing reading
        (counted.probe port (set · ppPcmFrames counted.framesWritten))
      have stored := @kept_probe _ _ _ port loop.replay (set · ppPcmFrames counted.framesWritten)
        (set_counters (by decide) · _)
      rw [reported]
      exact .advance date here (stored.trans kept)
  | stalled =>
      simp only [control, here] at moved
      cases moved

/-- The steps of the loop and of CPU0 next to it. -/
inductive Turn (port : Port σ) (timing : Timing) (loop : Loop F D σ) :
    Label port → Loop F D σ → Prop
  | captured {call : Mirror.Call} {ring : EventRing.State} :
      EventRing.capture call loop.ring = some ring →
      Turn port timing loop (.capture call) { loop with ring := ring }
  | produced {ticks : UInt64} {ring : EventRing.State} :
      EventRing.produce ticks loop.ring = some ring →
      Turn port timing loop (.produce ticks) { loop with ring := ring }
  | host (guest : Guest port) :
      Turn port timing loop (.host guest)
        { loop with replay.host := guest.act loop.replay.host }
  | served (reading : Reading) {ring : EventRing.State} :
      EventRing.consume loop.ring = some ring →
      Turn port timing loop (.cpu1 reading) (loop.served ring)
  | moved (reading : Reading) {next : Loop F D σ} : loop.ring.consumer = .idle →
      Move port timing loop next → Turn port timing loop (.cpu1 reading) next

theorem step_turn {label : Label port}
    (stepped : step port timing truncate label loop = some next) :
    Turn port timing loop label next := by
  cases label with
  | capture call =>
      obtain ⟨ring, entered, rfl⟩ := Option.map_eq_some_iff.mp stepped
      exact .captured entered
  | produce ticks =>
      obtain ⟨ring, moved, rfl⟩ := Option.map_eq_some_iff.mp stepped
      exact .produced moved
  | host guest =>
      cases stepped
      exact .host guest
  | cpu1 reading =>
      simp only [step, cpu1] at stepped
      split at stepped
      next idle => exact .moved reading idle (control_move stepped)
      next =>
        obtain ⟨ring, moved, rfl⟩ := Option.map_eq_some_iff.mp stepped
        exact .served reading moved

end Loop

end Paulastorm.Poc
