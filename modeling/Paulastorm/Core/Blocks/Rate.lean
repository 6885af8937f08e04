import Paulastorm.Core.Blocks.Played
import Mathlib.Tactic.Positivity

namespace Paulastorm.Core

open Library

/-! Whole frames in exact arithmetic: rendering is a run of the steps of `Blocks`, and the
source samples that it advances are those whose time has come. -/

namespace Paula

variable {F D σ : Type} [Floating F] [Floating D] [Arith F D]

/-- The core after a channel's turn does not depend on the mix. -/
theorem mixChannel_core (callbacks : Callbacks σ) (toSame toOpp : F) (samplesPerOutFrame : D)
    (frame : ((F × F) × Paula F D) × σ) (ch : Fin 4) :
    (mixChannel callbacks toSame toOpp samplesPerOutFrame frame ch).1.2 =
      (catchUp callbacks ch
        (Arith.rounds F ((frame.1.2.addStep ch samplesPerOutFrame).channels ch).phase)
        (frame.1.2.addStep ch samplesPerOutFrame, frame.2)).1.mixed ch := by
  simp only [mixChannel, serviceChannel, mixed, pan]
  split <;> rfl

end Paula

namespace Blocks

open Paula

variable {σ : Type} (callbacks : Callbacks σ) {ch : Fin 4}

/-- The source samples that pass in one frame: the clock over the period, for its time. -/
def sourceStep (p : Paula ℚ ℚ) (ch : Fin 4) (secondsPerOutFrame : ℚ) : ℚ :=
  p.clockHz / (if (p.channels ch).period ≠ 0 then (p.channels ch).period else 1).toNat *
    secondsPerOutFrame

/-- The core between frames, with the source samples that have passed since the start. -/
structure Playing (σ : Type) where
  core : Paula ℚ ℚ
  host : σ
  elapsed : ℚ

inductive PlayingLabel where
  | frame (outSr : ℚ)
  | write (addr : UInt32) (value : UInt16)
  | setLoop (channel : Fin 4) (loc : UInt32) (lenWords : UInt16)

/-- `Paula::render` does nothing at a rate that is not positive. -/
def playingStep (ch : Fin 4) (label : PlayingLabel) (state : Playing σ) : Playing σ :=
  match label with
  | .frame outSr =>
      if outSr ≤ 0 then state
      else
        let rendered := state.core.renderAt callbacks (1 / outSr) state.host
        { core := rendered.1.2
          host := rendered.2
          elapsed := state.elapsed + sourceStep state.core ch (1 / outSr) }
  | .write addr value => { state with core := state.core.writeRegister16 addr value }
  | .setLoop other loc lenWords => { state with core := state.core.setLoop other loc lenWords }

def frames (ch : Fin 4) : Machine (Playing σ) PlayingLabel where
  step label state := some (playingStep callbacks ch label state)

def PlayingKeepsOn (ch : Fin 4) (label : PlayingLabel) (state : Playing σ) : Prop :=
  match label with
  | .write addr value => dmaOn (state.core.writeRegister16 addr value).dmaCon ch = true
  | _ => True

section Samples

variable {F D : Type}

theorem advance_phase (p : Paula F D) (other : Fin 4) (host : σ) (ch : Fin 4) :
    ((p.advanceOneSourceSample callbacks other host).1.channels ch).phase =
      (p.channels ch).phase := by
  by_cases own : ch = other
  · subst own
    simp only [advanceOneSourceSample, reload, fetchWord]
    split_ifs <;> simp [Channel.silence, Channel.loadWord, Channel.reloaded, Channel.secondByte,
      raise]
  · rw [advance_other callbacks p (Ne.symm own)]

theorem advance_clockHz (p : Paula F D) (other : Fin 4) (host : σ) :
    (p.advanceOneSourceSample callbacks other host).1.clockHz = p.clockHz := by
  simp only [advanceOneSourceSample, reload]
  split_ifs <;> rfl

/-- Recording the calls changes nothing. -/
theorem step_advance [Floating F] [Floating D] [Arith F D] (ch other : Fin 4)
    (state : State F D σ) :
    ((step callbacks ch (.advance other) state).core,
        (step callbacks ch (.advance other) state).host) =
      state.core.takeSample callbacks other state.host := by
  have plain : Agrees (fun _ => False) (fun (recorded : σ × List Call) host => recorded.1 = host)
      ((state.core.lowered other).advanceOneSourceSample callbacks.recording other
        (state.host, state.calls))
      ((state.core.lowered other).advanceOneSourceSample callbacks other state.host) :=
    advance_agrees (recording_follows callbacks) _ other rfl
  rcases plain with absurdity | ⟨core, host⟩
  · exact absurdity.elim
  · simp only [step, takeSample]
    split
    · exact Prod.ext core host
    · exact Prod.ext core host

end Samples

/-- What is not in the DMA state of a channel: its clock and its period. -/
structure SameRate (p q : Paula ℚ ℚ) : Prop where
  clockHz : q.clockHz = p.clockHz
  keeps : KeepsRegisters p q

theorem SameRate.refl (p : Paula ℚ ℚ) : SameRate p p := ⟨rfl, .refl p⟩

theorem SameRate.trans {p q r : Paula ℚ ℚ} (first : SameRate p q) (second : SameRate q r) :
    SameRate p r :=
  ⟨second.clockHz.trans first.clockHz, first.keeps.trans second.keeps⟩

theorem SameRate.sourceStep {p q : Paula ℚ ℚ} (same : SameRate p q) (ch : Fin 4) (seconds : ℚ) :
    sourceStep q ch seconds = sourceStep p ch seconds := by
  have period : (q.channels ch).period = (p.channels ch).period :=
    congrFun (congrArg Bank.per same.keeps.bank) ch
  rw [Blocks.sourceStep, Blocks.sourceStep, same.clockHz, period]

/-- The phase is what has passed and was not yet played. -/
structure Timed (ch : Fin 4) (state : State ℚ ℚ σ) (elapsed : ℚ) : Prop where
  phase : (state.core.channels ch).phase = elapsed - state.advanced
  below : (state.core.channels ch).phase < 1
  sign : 0 ≤ state.core.clockHz ∧ 0 ≤ (state.core.channels ch).phase ∨
    state.core.clockHz ≤ 0 ∧ state.advanced = 0 ∧ elapsed ≤ 0

/-- As many source samples as have passed in full. -/
theorem Timed.advanced {state : State ℚ ℚ σ} {elapsed : ℚ} (timed : Timed ch state elapsed) :
    state.advanced = ⌊elapsed⌋.toNat := by
  have phase := timed.phase
  have below := timed.below
  rcases timed.sign with ⟨-, positive⟩ | ⟨-, none, negative⟩
  · have floor : ⌊elapsed⌋ = (state.advanced : ℤ) := by
      rw [Int.floor_eq_iff]
      push_cast
      constructor <;> linarith
    rw [floor, Int.toNat_natCast]
  · have floor : ⌊elapsed⌋ ≤ 0 := by
      have whole := Int.floor_le elapsed
      have bound : (⌊elapsed⌋ : ℚ) ≤ 0 := whole.trans negative
      exact_mod_cast bound
    rw [none, Int.toNat_of_nonpos floor]

theorem Timed.pass {state after : State ℚ ℚ σ} {elapsed passed : ℚ} (timed : Timed ch state elapsed)
    (clockHz : after.core.clockHz = state.core.clockHz)
    (forward : 0 ≤ state.core.clockHz → 0 ≤ passed)
    (backward : state.core.clockHz ≤ 0 → passed ≤ 0)
    (advanced : after.advanced =
      state.advanced + ⌊(state.core.channels ch).phase + passed⌋.toNat)
    (phase : (after.core.channels ch).phase = (state.core.channels ch).phase + passed -
      (⌊(state.core.channels ch).phase + passed⌋.toNat : Nat)) :
    Timed ch after (elapsed + passed) := by
  have start := timed.phase
  have exact : (after.core.channels ch).phase = elapsed + passed - after.advanced := by
    rw [phase, advanced, start]
    push_cast
    ring
  rcases timed.sign with ⟨ticking, positive⟩ | ⟨stopped, none, negative⟩
  · have later := forward ticking
    have floor : 0 ≤ ⌊(state.core.channels ch).phase + passed⌋ :=
      Int.floor_nonneg.mpr (add_nonneg positive later)
    have whole : ((⌊(state.core.channels ch).phase + passed⌋.toNat : Nat) : ℚ) =
        ⌊(state.core.channels ch).phase + passed⌋ := by
      exact_mod_cast Int.toNat_of_nonneg floor
    have lower := Int.floor_le ((state.core.channels ch).phase + passed)
    have upper := Int.lt_floor_add_one ((state.core.channels ch).phase + passed)
    refine ⟨exact, ?_, .inl ⟨clockHz ▸ ticking, ?_⟩⟩
    · rw [phase, whole]
      linarith
    · rw [phase, whole]
      linarith
  · have earlier := backward stopped
    rw [none] at start
    have floor : ⌊(state.core.channels ch).phase + passed⌋ ≤ 0 := by
      have whole := Int.floor_le ((state.core.channels ch).phase + passed)
      have bound : (⌊(state.core.channels ch).phase + passed⌋ : ℚ) ≤ 0 := by
        push_cast at start
        linarith
      exact_mod_cast bound
    rw [Int.toNat_of_nonpos floor] at advanced phase
    refine ⟨exact, ?_, .inr ⟨clockHz ▸ stopped, by omega, by linarith⟩⟩
    rw [phase, start]
    push_cast
    linarith

theorem Timed.write {state : State ℚ ℚ σ} {elapsed : ℚ} (timed : Timed ch state elapsed)
    (running : (state.core.channels ch).dmaWantsRestart = false) {addr : UInt32} {value : UInt16}
    (enabled : dmaOn (state.core.writeRegister16 addr value).dmaCon ch = true) :
    Timed ch { state with core := state.core.writeRegister16 addr value } elapsed := by
  have clockHz : (state.core.writeRegister16 addr value).clockHz = state.core.clockHz := by
    rw [writeRegister16_eq]
    cases decode (addr &&& 0xfff).toNat with
    | none => rfl
    | some reg =>
        cases reg with
        | channel written reg => cases reg <;> rfl
        | _ => rfl
  obtain ⟨loc, len, period, volume, channel⟩ := write_channel running addr value enabled
  have phase : ((state.core.writeRegister16 addr value).channels ch).phase =
      (state.core.channels ch).phase := by
    rw [channel]
  refine ⟨?_, ?_, ?_⟩
  · exact phase.trans timed.phase
  · exact phase ▸ timed.below
  · have sign := timed.sign
    rw [← clockHz, ← phase] at sign
    exact sign

theorem Timed.setLoop {state : State ℚ ℚ σ} {elapsed : ℚ} (timed : Timed ch state elapsed)
    (other : Fin 4) (loc : UInt32) (lenWords : UInt16) :
    Timed ch { state with core := state.core.setLoop other loc lenWords } elapsed := by
  have phase : ((state.core.setLoop other loc lenWords).channels ch).phase =
      (state.core.channels ch).phase := by
    by_cases own : ch = other
    · subst own
      simp only [Paula.setLoop, updateChannel_self]
    · simp only [Paula.setLoop, updateChannel_of_ne _ own]
  refine ⟨?_, ?_, ?_⟩
  · exact phase.trans timed.phase
  · exact phase ▸ timed.below
  · have sign := timed.sign
    rw [← phase] at sign
    exact sign

/-- One turn of the loop of `serviceChannel_`. -/
theorem takeSample_timed (p : Paula ℚ ℚ) (other : Fin 4) (host : σ) :
    SameRate p (p.takeSample callbacks other host).1 ∧
      ∀ c, ((p.takeSample callbacks other host).1.channels c).phase =
        (p.channels c).phase - if c = other then 1 else 0 := by
  constructor
  · refine ⟨advance_clockHz callbacks _ other host, .trans ?_ (advance_keeps callbacks _ other host)⟩
    exact updateChannel_keeps p other ⟨rfl, rfl, rfl, rfl, rfl⟩
  · intro c
    rw [takeSample, advance_phase, lowered]
    by_cases own : c = other
    · subst own
      rw [updateChannel_self, if_pos rfl]
      rfl
    · rw [updateChannel_of_ne p own, if_neg own, sub_zero]

/-- The loop of `serviceChannel_`, one source sample at a time. -/
theorem catchUp_runs (ch other : Fin 4) (rounds : Nat) (state : State ℚ ℚ σ)
    (enough : rounds ≤ ⌊(state.core.channels other).phase⌋.toNat) :
    ∃ after, (machine callbacks ch).Runs (KeepsOn ch) state
        (List.replicate rounds (.advance other)) after ∧
      catchUp callbacks other rounds (state.core, state.host) = (after.core, after.host) ∧
      SameRate state.core after.core ∧
      after.advanced = state.advanced + (if ch = other then rounds else 0) ∧
      (after.core.channels ch).phase =
        (state.core.channels ch).phase - (if ch = other then rounds else 0 : Nat) := by
  induction rounds generalizing state with
  | zero => exact ⟨state, .refl _, rfl, .refl _, by simp, by simp⟩
  | succ rounds ih =>
      have whole : (1 : ℚ) ≤ (state.core.channels other).phase := by
        have floor : 1 ≤ ⌊(state.core.channels other).phase⌋ := by omega
        exact_mod_cast Int.le_floor.mp floor
      obtain ⟨core, host⟩ := Prod.ext_iff.mp (step_advance callbacks ch other state)
      obtain ⟨rate, phase⟩ := takeSample_timed callbacks state.core other state.host
      dsimp only at core host
      rw [← core] at rate phase
      have left : rounds ≤
          ⌊((step callbacks ch (.advance other) state).core.channels other).phase⌋.toNat := by
        rw [phase other, if_pos rfl, Int.floor_sub_one]
        omega
      obtain ⟨after, run, caughtUp, same, advanced, settled⟩ :=
        ih (step callbacks ch (.advance other) state) left
      refine ⟨after, .step trivial rfl run, ?_, rate.trans same, ?_, ?_⟩
      · rw [catchUp]
        have due : Floating.le (ofRat 1) (state.core.channels other).phase = true :=
          decide_eq_true whole
        rw [if_pos due, ← caughtUp, core, host]
        rfl
      · rw [advanced]
        by_cases own : ch = other
        · simp only [step, if_pos own.symm, if_pos own]
          omega
        · simp only [step, if_neg (Ne.symm own), if_neg own]
      · rw [settled, phase]
        by_cases own : ch = other
        · simp only [if_pos own]
          push_cast
          ring
        · simp only [if_neg own]
          simp

theorem mixed_clockHz (p : Paula ℚ ℚ) (other : Fin 4) : (p.mixed other).clockHz = p.clockHz := by
  simp only [mixed, pan]
  split <;> rfl

theorem mixed_phase (p : Paula ℚ ℚ) (other c : Fin 4) :
    ((p.mixed other).channels c).phase = (p.channels c).phase := by
  have channels : (p.mixed other).channels = (p.mixOut other).2.channels := by
    simp only [mixed, pan]
    split <;> rfl
  rw [channels]
  by_cases own : c = other
  · subst own
    simp [mixOut]
  · simp only [mixOut, updateChannel_of_ne _ own]

/-- One channel's turn in a frame. -/
theorem mixChannel_runs (toSame toOpp : ℚ) {seconds : ℚ} (positive : 0 < seconds) (other : Fin 4)
    {state : State ℚ ℚ σ} {frame : ((ℚ × ℚ) × Paula ℚ ℚ) × σ}
    (core : frame.1.2 = state.core) (host : frame.2 = state.host) :
    ∃ labels after, (machine callbacks ch).Runs (KeepsOn ch) state labels after ∧
      (mixChannel callbacks toSame toOpp seconds frame other).1.2 = after.core ∧
      (mixChannel callbacks toSame toOpp seconds frame other).2 = after.host ∧
      SameRate state.core after.core ∧
      ∀ elapsed, Timed ch state elapsed → Timed ch after
        (elapsed + if ch = other then sourceStep state.core ch seconds else 0) := by
  obtain ⟨⟨mix, p⟩, host'⟩ := frame
  cases core
  cases host
  let begun := step callbacks ch (.elapse other seconds) state
  have stepped : SameRate state.core begun.core :=
    ⟨rfl, updateChannel_keeps _ other ⟨rfl, rfl, rfl, rfl, rfl⟩⟩
  have phase : (begun.core.channels ch).phase = (state.core.channels ch).phase +
      if ch = other then sourceStep state.core ch seconds else 0 := by
    change ((state.core.addStep other seconds).channels ch).phase = _
    rw [addStep]
    by_cases own : ch = other
    · subst own
      rw [updateChannel_self, if_pos rfl]
      rfl
    · rw [updateChannel_of_ne _ own, if_neg own, add_zero]
  obtain ⟨settled, run, caughtUp, same, advanced, left⟩ :=
    catchUp_runs callbacks ch other _ begun le_rfl
  let after := step callbacks ch (.mix other) settled
  have glided : (after.core.channels ch).phase = (settled.core.channels ch).phase := by
    change ((settled.core.mixed other).channels ch).phase = _
    rw [mixed_phase]
  have rate : SameRate state.core after.core :=
    (stepped.trans same).trans ⟨mixed_clockHz _ other, mixed_keeps _ other⟩
  have walked : (machine callbacks ch).Runs (KeepsOn ch) state
      (.elapse other seconds :: List.replicate _ (.advance other)) settled :=
    .step trivial rfl run
  have glide : (machine callbacks ch).Runs (KeepsOn ch) settled [.mix other] after :=
    .step trivial rfl (.refl _)
  refine ⟨_, after, walked.append glide, ?_, ?_, rate, ?_⟩
  · rw [mixChannel_core]
    exact congrArg (fun walk => (Prod.fst walk).mixed other) caughtUp
  · exact congrArg Prod.snd caughtUp
  · intro elapsed timed
    by_cases own : ch = other
    · subst own
      simp only [if_pos] at phase advanced left ⊢
      rw [phase] at advanced left
      apply timed.pass rate.clockHz
      · intro ticking
        unfold sourceStep
        positivity
      · intro stopped
        unfold sourceStep
        apply mul_nonpos_of_nonpos_of_nonneg _ positive.le
        apply div_nonpos_of_nonpos_of_nonneg stopped
        positivity
      · exact advanced
      · exact glided.trans left
    · simp only [if_neg own, add_zero] at phase advanced left ⊢
      have kept : (after.core.channels ch).phase = (state.core.channels ch).phase := by
        rw [glided, left, phase]
        simp
      have count : after.advanced = state.advanced := advanced
      refine ⟨?_, ?_, ?_⟩
      · rw [kept, count]
        exact timed.phase
      · rw [kept]
        exact timed.below
      · rw [kept, count, rate.clockHz]
        exact timed.sign

theorem mixChannels_runs (ch : Fin 4) (toSame toOpp : ℚ) {seconds : ℚ} (positive : 0 < seconds)
    (channels : List (Fin 4)) {state : State ℚ ℚ σ} {frame : ((ℚ × ℚ) × Paula ℚ ℚ) × σ}
    (core : frame.1.2 = state.core) (host : frame.2 = state.host) :
    ∃ labels after, (machine callbacks ch).Runs (KeepsOn ch) state labels after ∧
      (channels.foldl (mixChannel callbacks toSame toOpp seconds) frame).1.2 = after.core ∧
      (channels.foldl (mixChannel callbacks toSame toOpp seconds) frame).2 = after.host ∧
      SameRate state.core after.core ∧
      ∀ elapsed, Timed ch state elapsed → Timed ch after (elapsed + (channels.map fun other =>
        if ch = other then sourceStep state.core ch seconds else 0).sum) := by
  induction channels generalizing state frame with
  | nil =>
      refine ⟨[], state, .refl _, core, host, .refl _, ?_⟩
      intro elapsed timed
      rw [List.map_nil, List.sum_nil, add_zero]
      exact timed
  | cons other rest ih =>
      obtain ⟨first, middle, served, core, host, rate, timed⟩ :=
        mixChannel_runs callbacks toSame toOpp positive other core host
      obtain ⟨second, after, others, core, host, rate', timed'⟩ := ih core host
      refine ⟨first ++ second, after, served.append others, core, host, rate.trans rate', ?_⟩
      intro elapsed start
      have done := timed' _ (timed elapsed start)
      rw [rate.sourceStep] at done
      rw [List.map_cons, List.sum_cons, ← add_assoc]
      exact done

/-- One frame. -/
theorem renderAt_runs (ch : Fin 4) {seconds : ℚ} (positive : 0 < seconds) (state : State ℚ ℚ σ) :
    ∃ labels after, (machine callbacks ch).Runs (KeepsOn ch) state labels after ∧
      (state.core.renderAt callbacks seconds state.host).1.2 = after.core ∧
      (state.core.renderAt callbacks seconds state.host).2 = after.host ∧
      ∀ elapsed, Timed ch state elapsed →
        Timed ch after (elapsed + sourceStep state.core ch seconds) := by
  have begun : ∀ elapsed, Timed ch state elapsed →
      Timed ch (step callbacks ch .beginFrame state) elapsed :=
    fun _ timed => ⟨timed.phase, timed.below, timed.sign⟩
  have channels : ∀ frame : ((ℚ × ℚ) × Paula ℚ ℚ) × σ,
      frame.1.2 = (step callbacks ch .beginFrame state).core →
      frame.2 = (step callbacks ch .beginFrame state).host → _ :=
    fun _ => mixChannels_runs callbacks ch
      (ofRat 1 - (ofRat 1 - state.core.beginFrame.stereoCurrent) * ofRat (1 / 2))
      ((ofRat 1 - state.core.beginFrame.stereoCurrent) * ofRat (1 / 2)) positive (List.finRange 4)
  obtain ⟨labels, after, run, core, host, -, timed⟩ :=
    channels (((ofRat 0, ofRat 0), state.core.beginFrame), state.host) rfl rfl
  refine ⟨.beginFrame :: labels, after, .step trivial rfl run, core, host, ?_⟩
  intro elapsed start
  have once : ∀ (passed : ℚ) (ch : Fin 4),
      ((List.finRange 4).map fun other => if ch = other then passed else 0).sum = passed := by
    intro passed ch
    fin_cases ch <;> simp [List.finRange]
  have done := timed elapsed (begun elapsed start)
  rw [once] at done
  exact done

/-- Frames and writes between them are a run of the steps of `Blocks`. -/
theorem frames_runs {labels : List PlayingLabel} {before after : Playing σ}
    (run : (frames callbacks ch).Runs (PlayingKeepsOn ch) before labels after)
    {state : State ℚ ℚ σ} (core : state.core = before.core) (host : state.host = before.host)
    (walking : Walking ch state) (timed : Timed ch state before.elapsed) :
    ∃ labels' state', (machine callbacks ch).Runs (KeepsOn ch) state labels' state' ∧
      state'.core = after.core ∧ state'.host = after.host ∧ Timed ch state' after.elapsed := by
  induction run generalizing state with
  | refl => exact ⟨[], state, .refl _, core, host, timed⟩
  | @step before middle after label rest allowed stepped _ ih =>
      have taken : ∃ labels' next, (machine callbacks ch).Runs (KeepsOn ch) state labels' next ∧
          next.core = middle.core ∧ next.host = middle.host ∧ Timed ch next middle.elapsed := by
        cases stepped
        cases label with
        | frame outSr =>
            simp only [playingStep]
            split
            next => exact ⟨[], state, .refl _, core, host, timed⟩
            next positive =>
              have seconds : 0 < 1 / outSr := one_div_pos.mpr (not_le.mp positive)
              obtain ⟨labels', next, run, rendered, called, passed⟩ :=
                renderAt_runs callbacks ch seconds state
              rw [core, host] at rendered called
              rw [core] at passed
              exact ⟨labels', next, run, rendered.symm, called.symm, passed _ timed⟩
        | write addr value =>
            have enabled : KeepsOn ch (.write addr value) state := by
              change dmaOn (state.core.writeRegister16 addr value).dmaCon ch = true
              rw [core]
              exact allowed
            refine ⟨[.write addr value], step callbacks ch (.write addr value) state,
              .step enabled rfl (.refl _), ?_, host, ?_⟩
            · exact congrArg (fun p : Paula ℚ ℚ => p.writeRegister16 addr value) core
            · exact timed.write walking.running enabled
        | setLoop other loc lenWords =>
            refine ⟨[.setLoop other loc lenWords],
              step callbacks ch (.setLoop other loc lenWords) state,
              .step trivial rfl (.refl _), ?_, host, ?_⟩
            · exact congrArg (fun p : Paula ℚ ℚ => p.setLoop other loc lenWords) core
            · exact timed.setLoop other loc lenWords
      obtain ⟨first, next, run, core, host, timed⟩ := taken
      obtain ⟨second, state', later, rest⟩ :=
        ih core host (runs_walking callbacks run walking) timed
      exact ⟨first ++ second, state', run.append later, rest⟩

/-- The address of `AUDxLEN`. -/
def lengthRegister (ch : Fin 4) : UInt32 := 0xdff0a4 + 16 * UInt32.ofNat ch.val

/-- From the write that turns a channel on, whatever the interleaving of source samples
with writes that leave the DMA on, the channel plays block after block; a length written
as zero is 65536 words; and frames of any rate advance as many source samples as their
steps add up to, in whole numbers. -/
theorem dma_walk (callbacks : Callbacks σ) (ch : Fin 4) :
    (∀ {F D : Type} [Floating D] (p : Paula F D) (value : UInt16),
      (p.writeRegister16 (lengthRegister ch) value).latched ch =
        ⟨(p.channels ch).locPtrLatched, if value = 0 then 65536 else value.toNat⟩) ∧
    (∀ {F D : Type} [Floating F] [Floating D] [Arith F D] {p : Paula F D} {addr : UInt32}
      {value : UInt16} {host : σ} {labels : List (Label D)} {state : State F D σ},
      TurnsOn p ch addr value →
      (machine callbacks ch).Runs (KeepsOn ch) (start ch (p.writeRegister16 addr value) host)
        labels state →
      Played callbacks ch state) ∧
    (∀ {p : Paula ℚ ℚ} {addr : UInt32} {value : UInt16} {host : σ} {labels : List PlayingLabel}
      {after : Playing σ},
      TurnsOn p ch addr value →
      (frames callbacks ch).Runs (PlayingKeepsOn ch) ⟨p.writeRegister16 addr value, host, 0⟩
        labels after →
      ∃ labels' state, (machine callbacks ch).Runs (KeepsOn ch)
          (start ch (p.writeRegister16 addr value) host) labels' state ∧
        state.core = after.core ∧ state.host = after.host ∧
        state.advanced = ⌊after.elapsed⌋.toNat) := by
  refine ⟨?_, ?_, ?_⟩
  · intro F D _ p value
    have offset : ∀ ch : Fin 4, (lengthRegister ch &&& 0xfff).toNat = (Reg.channel ch .len).offset := by
      decide
    have bank := bank_writeRegister16 p (lengthRegister ch) value
    rw [offset, Bank.writeOffset, decode_offset] at bank
    have loc := congrFun (congrArg Bank.loc bank) ch
    have len := congrFun (congrArg Bank.len bank) ch
    simp only [Bank.write, Function.update_self] at loc len
    rw [← Bank.lengthWords_toNat, ← len]
    exact congrArg (Block.mk · _) loc
  · intro F D _ _ _ p addr value host labels state turnsOn run
    exact (runs_walking callbacks run (turnsOn.walking host)).played callbacks
  · intro p addr value host labels after turnsOn run
    have phase : ((p.writeRegister16 addr value).channels ch).phase = 0 := by
      rw [turnsOn.primed]
      rfl
    have timed : Timed ch (start ch (p.writeRegister16 addr value) host) 0 := by
      refine ⟨?_, ?_, ?_⟩
      all_goals simp only [start, phase]
      · simp
      · norm_num
      · rcases le_total 0 (p.writeRegister16 addr value).clockHz with ticking | stopped
        · exact .inl ⟨ticking, le_rfl⟩
        · exact .inr ⟨stopped, trivial, le_rfl⟩
    obtain ⟨labels', state, walked, core, host, settled⟩ :=
      frames_runs callbacks run rfl rfl (turnsOn.walking host) timed
    exact ⟨labels', state, walked, core, host, settled.advanced⟩

/-- Channel 0 with one word at 0x1000, at a PAL clock. -/
def oneWord : Paula ℚ ℚ :=
  let p : Paula ℚ ℚ := { Paula.new 3546895 with read := true, onInterrupt := true }
  ((p.writeRegister16 0xdff0a2 0x1000).writeRegister16 0xdff0a4 1).writeRegister16 0xdff0a6 64

theorem oneWord_turnsOn : TurnsOn oneWord 0 0xdff096 0x8201 := by
  refine ⟨rfl, ?_, by decide, by decide, by decide⟩
  intro ch
  revert ch
  decide

/-- Memory whose bytes are their addresses. -/
def ownAddresses : Callbacks Unit := ⟨fun address host => (address.toUInt8, host), fun _ host => host⟩

/-- Three source samples play the word and begin it again; one frame advances one. -/
theorem dma_walk_of_oneWord :
    (∃ state, (machine ownAddresses 0).Runs (KeepsOn 0)
        (start 0 (oneWord.writeRegister16 0xdff096 0x8201) ())
        [.advance 0, .advance 0, .advance 0] state ∧
      state.blocks = [⟨0x1000, 1⟩, ⟨0x1000, 1⟩] ∧ Played ownAddresses 0 state) ∧
    ∃ labels state, (machine ownAddresses 0).Runs (KeepsOn 0)
        (start 0 (oneWord.writeRegister16 0xdff096 0x8201) ()) labels state ∧
      state.advanced = 1 := by
  constructor
  · let first := step ownAddresses 0 (.advance 0)
      (start 0 (oneWord.writeRegister16 0xdff096 0x8201) ())
    let second := step ownAddresses 0 (.advance 0) first
    let third := step ownAddresses 0 (.advance 0) second
    have run : (machine ownAddresses 0).Runs (KeepsOn 0)
        (start 0 (oneWord.writeRegister16 0xdff096 0x8201) ())
        [.advance 0, .advance 0, .advance 0] third :=
      .step trivial rfl (.step trivial rfl (.step trivial rfl (.refl _)))
    have begun : third.blocks = [⟨0x1000, 1⟩, ⟨0x1000, 1⟩] := by decide
    exact ⟨third, run, begun, (dma_walk ownAddresses 0).2.1 oneWord_turnsOn run⟩
  · have run : (frames ownAddresses 0).Runs (PlayingKeepsOn 0)
        ⟨oneWord.writeRegister16 0xdff096 0x8201, (), 0⟩ [.frame 48000] _ :=
      .step trivial rfl (.refl _)
    obtain ⟨labels, state, walked, -, -, advanced⟩ :=
      (dma_walk ownAddresses 0).2.2 oneWord_turnsOn run
    refine ⟨labels, state, walked, ?_⟩
    have step : sourceStep (oneWord.writeRegister16 0xdff096 0x8201) 0 (1 / 48000) =
        3546895 / (64 : Nat) * (1 / 48000) := rfl
    have rate : ¬ (48000 : ℚ) ≤ 0 := by norm_num
    simp only [playingStep, if_neg rate, step] at advanced
    rw [advanced]
    norm_num

end Blocks

end Paulastorm.Core
