import Paulastorm.Poc.Loop.Counters

namespace Paulastorm.Poc

/-! What the replay loop writes to the output: the IEC958 stream of its frames. -/

open Paulastorm.Core Mirror Probe
open Library (Machine)

/-- The samples of the frames. -/
def Record.samples (record : Record) : List (Int32 × Int32) := record.frames.map Frame.samples

namespace Loop

variable {F D σ : Type} {port : Port σ} {timing : Timing}

/-- The words of a frame are written left and right; between two frames all are written. -/
def Streamed (loop : Loop F D σ) : Prop :=
  match loop.position with
  | .fifo .left left right _ => ∃ earlier,
      loop.record.samples = earlier ++ [(left, right)] ∧
      loop.frame = Hdmi.nextFrame^[earlier.length] 0 ∧
      loop.record.words = Hdmi.output 0 earlier
  | .fifo .right left right _ => ∃ earlier,
      loop.record.samples = earlier ++ [(left, right)] ∧
      loop.frame = Hdmi.nextFrame^[earlier.length] 0 ∧
      loop.record.words = Hdmi.output 0 earlier ++ [Hdmi.iec958Word left loop.frame]
  | .written =>
      Hdmi.nextFrame loop.frame = Hdmi.nextFrame^[loop.record.samples.length] 0 ∧
      loop.record.words = Hdmi.output 0 loop.record.samples
  | .stalled =>
      loop.record.words <+: Hdmi.output 0 loop.record.samples ∧
      (Hdmi.output 0 loop.record.samples).length ≤ loop.record.words.length + 2
  | _ =>
      loop.frame = Hdmi.nextFrame^[loop.record.samples.length] 0 ∧
      loop.record.words = Hdmi.output 0 loop.record.samples

variable {loop next : Loop F D σ} {label : Label port}

/-- Whatever has been written is the beginning of the stream, and at most one frame of it
is to be written yet. -/
theorem Streamed.begins (streamed : Streamed loop) :
    loop.record.words <+: Hdmi.output 0 loop.record.samples ∧
      (Hdmi.output 0 loop.record.samples).length ≤ loop.record.words.length + 2 := by
  have whole (written : loop.record.words = Hdmi.output 0 loop.record.samples) :
      loop.record.words <+: Hdmi.output 0 loop.record.samples ∧
        (Hdmi.output 0 loop.record.samples).length ≤ loop.record.words.length + 2 := by
    rw [written]
    exact ⟨List.prefix_rfl, Nat.le_add_right _ _⟩
  unfold Streamed at streamed
  split at streamed
  next left right _ _ =>
    obtain ⟨earlier, made, _, written⟩ := streamed
    rw [made, written, Hdmi.output_append]
    exact ⟨List.prefix_append _ _, Nat.le_of_eq List.length_append⟩
  next left right _ _ =>
    obtain ⟨earlier, made, frame, written⟩ := streamed
    rw [made, written, Hdmi.output_append, ← frame]
    refine ⟨(List.prefix_append_right_inj _).mpr ⟨[Hdmi.iec958Word right loop.frame], rfl⟩, ?_⟩
    simp only [List.length_append, Hdmi.output, List.length_cons, List.length_nil]
    omega
  next => exact whole streamed.2
  next => exact streamed
  next => exact whole streamed.2

variable [Floating F] [Floating D]

theorem Move.streamed (streamed : Streamed loop) (move : Move port timing loop next) :
    Streamed next := by
  have begins := streamed.begins
  cases move with
  | emit backlog left right _ here =>
      rw [Streamed, here] at streamed
      refine ⟨loop.record.samples, ?_, streamed⟩
      exact List.map_append
  | left left right _ _ here =>
      rw [Streamed, here] at streamed
      obtain ⟨earlier, made, frame, written⟩ := streamed
      exact ⟨earlier, made, frame, congrArg (· ++ _) written⟩
  | right left right _ here =>
      rw [Streamed, here] at streamed
      obtain ⟨earlier, made, frame, written⟩ := streamed
      refine ⟨?_, ?_⟩
      · change _ = Hdmi.nextFrame^[loop.record.samples.length] 0
        rw [made, List.length_append, List.length_singleton, Function.iterate_succ_apply', ← frame]
      · change loop.record.words ++ [_] = Hdmi.output 0 loop.record.samples
        rw [made, written, Hdmi.output_append, ← frame, List.append_assoc]
        rfl
  | stall => exact begins
  | early | full => exact streamed
  | enter here | start _ here | adopt _ here | lost _ here | intact _ here | behind _ here
  | pass _ here | restore _ here | retry here | paced here | look _ here | enough _ here
  | apply _ here | drained _ here | decide here | advance _ here =>
      rw [Streamed, here] at streamed
      exact streamed

theorem Turn.streamed (streamed : Streamed loop) (turn : Turn port timing loop label next) :
    Streamed next := by
  cases turn with
  | moved _ _ move => exact move.streamed streamed
  | _ => exact streamed

variable [Arith F D] {truncate : F → Int32}

/-- Every frame is rendered or silent, from the state that the replay had then. -/
def Sampled (port : Port σ) (truncate : F → Int32) (loop : Loop F D σ) : Prop :=
  ∀ frame ∈ loop.record.frames, ∃ replay : Replay F D σ,
    frame.samples = (floatToS24 truncate (sample port frame.silent replay).1.1,
      floatToS24 truncate (sample port frame.silent replay).1.2)

theorem step_sampled (stepped : step port timing truncate label loop = some next)
    (sampled : Sampled port truncate loop) : Sampled port truncate next := by
  cases label with
  | cpu1 reading =>
      simp only [step, cpu1] at stepped
      split at stepped
      next idle =>
        cases here : loop.position with
        | output backlog =>
            simp only [control, here] at stepped
            cases stepped
            intro frame member
            rcases List.mem_append.mp member with earlier | last
            · exact sampled frame earlier
            · rw [List.mem_singleton] at last
              rw [last]
              exact ⟨loop.replay, rfl⟩
        | _ =>
            have kept : next.record.frames = loop.record.frames := by
              have move := control_move stepped
              cases move <;> first | rfl | simp_all
            intro frame member
            exact sampled frame (kept ▸ member)
      next =>
        obtain ⟨ring, moved, rfl⟩ := Option.map_eq_some_iff.mp stepped
        exact sampled
  | capture | produce =>
      obtain ⟨ring, moved, rfl⟩ := Option.map_eq_some_iff.mp stepped
      exact sampled
  | host guest =>
      cases stepped
      exact sampled

/-- Over every run the words on the output are the IEC958 stream of the frames made so far,
but for the last frame; a sink reads the samples back, and silence from the silent frames, whose
samples are zero if that is what 0.0 becomes. -/
theorem words_carry_frames (fits : ∀ sample, Hdmi.InRange24 (floatToS24 truncate sample))
    {events : Nat → Event} {metrics : Metrics} {out : EventRing.Out} {host : σ}
    {labels : List (Label port)}
    (run : (machine port timing truncate).Runs Machine.anyStep
      (start port events metrics out host : Loop F D σ) labels loop) :
    loop.record.words <+: Hdmi.output 0 loop.record.samples ∧
      2 * loop.record.frames.length ≤ loop.record.words.length + 2 ∧
      loop.record.words.map Hdmi.audioSample <+:
        (loop.record.samples.flatMap fun pair => [pair.1, pair.2]) ∧
      (∀ frame ∈ loop.record.frames, frame.silent = true →
        frame.samples = (floatToS24 truncate (ofRat 0), floatToS24 truncate (ofRat 0))) ∧
      (floatToS24 truncate (ofRat 0) = 0 →
        ∀ frame ∈ loop.record.frames, frame.silent = true → frame.samples = (0, 0)) := by
  have first : Streamed (start port events metrics out host : Loop F D σ) := ⟨rfl, rfl⟩
  have streamed := run.invariant (motive := Streamed)
    (fun _ _ _ _ stepped streamed => (step_turn stepped).streamed streamed) first
  have sampled := run.invariant (motive := Sampled port truncate)
    (fun _ _ _ _ stepped sampled => step_sampled stepped sampled) (fun _ none => by cases none)
  have fitted : ∀ pair ∈ loop.record.samples, Hdmi.InRange24 pair.1 ∧ Hdmi.InRange24 pair.2 := by
    intro pair member
    obtain ⟨frame, made, rfl⟩ := List.mem_map.mp member
    obtain ⟨replay, samples⟩ := sampled frame made
    rw [samples]
    exact ⟨fits _, fits _⟩
  obtain ⟨begins, behind⟩ := streamed.begins
  rw [Hdmi.length_output, Record.samples, List.length_map] at behind
  have silence : ∀ frame ∈ loop.record.frames, frame.silent = true →
      frame.samples = (floatToS24 truncate (ofRat 0), floatToS24 truncate (ofRat 0)) := by
    intro frame made silent
    obtain ⟨replay, samples⟩ := sampled frame made
    rw [samples, silent]
    rfl
  refine ⟨begins, behind, ?_, silence, fun zero frame made silent => ?_⟩
  · rw [← Hdmi.map_audioSample_output fitted 0]
    exact begins.map Hdmi.audioSample
  · rw [silence frame made silent, zero]

theorem truncateRat_bounds {value : ℚ} {bound : ℕ} (small : bound < 2 ^ 31)
    (lower : -bound ≤ value) (upper : value ≤ bound) :
    -(bound : Int) ≤ (truncateRat value).toInt ∧ (truncateRat value).toInt ≤ bound := by
  have positive : (0 : Int) < value.den := Int.natCast_pos.mpr value.den_pos
  have above : value.num ≤ bound * value.den := by
    simpa using (Rat.le_iff value bound).mp upper
  have below : -bound * (value.den : Int) ≤ value.num := by
    simpa using (Rat.le_iff (-bound) value).mp lower
  have most := Int.tdiv_le_tdiv positive above
  have least := Int.tdiv_le_tdiv positive below
  rw [Int.mul_tdiv_cancel _ positive.ne'] at most least
  rw [truncateRat, Int32.toInt_ofInt_of_le (by omega) (by omega)]
  exact ⟨least, most⟩

theorem floatToS24_fits (sample : ℚ) : Hdmi.InRange24 (floatToS24 truncateRat sample) := by
  have clamped : ∃ value : ℚ, -1 ≤ value ∧ value ≤ 1 ∧
      floatToS24 truncateRat sample = truncateRat (value * 8388607) := by
    simp only [floatToS24, Floating.lt, ofRat, decide_eq_true_eq]
    by_cases high : 1 < sample
    · exact ⟨1, by norm_num, by norm_num, by rw [if_pos high, if_neg (by norm_num)]⟩
    · rw [if_neg high]
      by_cases low : sample < -1
      · exact ⟨-1, by norm_num, by norm_num, by rw [if_pos low]⟩
      · exact ⟨sample, not_lt.mp low, not_lt.mp high, by rw [if_neg low]⟩
  obtain ⟨value, lower, upper, converted⟩ := clamped
  obtain ⟨least, most⟩ := @truncateRat_bounds (value * 8388607) 8388607 (by decide)
    (by push_cast; linarith) (by push_cast; linarith)
  rw [converted]
  constructor <;> omega

/-- The loop is late, and a capture holds the lock against the snapshot of the recovery. -/
def refusedOnce : List (Label samplePort) :=
  turns 2 60000000 ++ [.capture ⟨0xdff0a8, 64, 2⟩, .produce 60000000] ++ turns 10 140000000

set_option maxRecDepth 20000 in
/-- Both words of the silent frame are written. -/
theorem words_carry_frames_of_refusedOnce : ∃ loop,
    sampleMachine.Runs Machine.anyStep sampleLoop refusedOnce loop ∧
    (loop.record.words.length, loop.record.frames.map Frame.silent) = (2, [true]) ∧
    loop.record.words <+: Hdmi.output 0 loop.record.samples ∧
    loop.record.words.map Hdmi.audioSample <+:
      (loop.record.samples.flatMap fun pair => [pair.1, pair.2]) ∧
    ∀ frame ∈ loop.record.frames, frame.silent = true → frame.samples = (0, 0) := by
  have executed : (sampleMachine.run Machine.anyStep refusedOnce sampleLoop).map
      (fun loop => (loop.record.words.length, loop.record.frames.map Frame.silent)) =
        some (2, [true]) := rfl
  obtain ⟨loop, run, words⟩ := Machine.runs_of_observed executed
  obtain ⟨begins, _, carried, _, silence⟩ := words_carry_frames floatToS24_fits run
  exact ⟨loop, run, words, begins, carried, silence (by decide +kernel)⟩

end Loop

end Paulastorm.Poc
