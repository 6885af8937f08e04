import Paulastorm.Core.Gains
import Paulastorm.Live.Settings
import Paulastorm.Mixer

namespace Paulastorm.Live

/-! The gains of the live mirror over whole runs, in exact arithmetic. -/

open Paulastorm.Core Library Probe

namespace Gains

variable {σ : Type}

/-- A call of the renderer, or anything that happens to the host between two of them. -/
inductive Call (σ : Type) where
  | apply
  | frame
  | write (address : UInt32) (value : UInt16)
  | reset
  | host (change : σ → σ)

def call (port : Port σ) (state : Live ℚ ℚ × σ) : Call σ → Live ℚ ℚ × σ
  | .apply => state.1.mixerApply port state.2
  | .frame => (state.1.renderFrame port state.2).2
  | .write address value => state.1.write port address value state.2
  | .reset => state.1.reset port state.2
  | .host change => (state.1, change state.2)

def run (port : Port σ) (calls : List (Call σ)) (state : Live ℚ ℚ × σ) : Live ℚ ℚ × σ :=
  calls.foldl (call port) state

/-- A frame that has been put out, complete or not. -/
structure Shown where
  missed : Bool
  out : ℚ × ℚ

def frame (port : Port σ) (state : Live ℚ ℚ × σ) : Shown :=
  ⟨state.1.frameMissed state.2 port, (state.1.renderFrame port state.2).1⟩

def shown (port : Port σ) : List (Call σ) → Live ℚ ℚ × σ → List Shown
  | [], _ => []
  | .frame :: rest, state => frame port state :: shown port rest (call port state .frame)
  | made :: rest, state => shown port rest (call port state made)

/-- Every gain lies between silence and unity. -/
structure Bounded (live : Live ℚ ℚ) : Prop where
  core : live.core.Bounded
  masterGain : live.masterGain ∈ unit
  masterTarget : live.masterTarget ∈ unit
  outputGate : live.outputGate ∈ unit
  lastLeft : |live.lastLeft| ≤ 2
  lastRight : |live.lastRight| ≤ 2

/-- What a frame may move. -/
structure Moves (before after : Live ℚ ℚ) (frame : Shown) : Prop where
  left : |frame.out.1| ≤ 2
  right : |frame.out.2| ≤ 2
  failed : frame.missed = true →
    after.masterGain = before.masterGain ∧
      after.core.stereoCurrent = before.core.stereoCurrent ∧
      after.core.channelMixGain = before.core.channelMixGain ∧
      after.outputGate ≤ before.outputGate ∧ before.outputGate - after.outputGate ≤ 1 / 96
  committed : frame.missed = false →
    |after.masterGain - before.masterGain| ≤ 1 / 96 ∧
      |after.core.stereoCurrent - before.core.stereoCurrent| ≤ 1 / 96 ∧
      (∀ ch, |after.core.channelMixGain ch - before.core.channelMixGain ch| ≤ 1 / 96) ∧
      before.outputGate ≤ after.outputGate ∧ after.outputGate - before.outputGate ≤ 1 / 96

variable {port : Port σ} {state : Live ℚ ℚ × σ}

/-- A frame that misses moves the output gate and nothing else. -/
structure Failed (before after : Live ℚ ℚ) (out : ℚ × ℚ) : Prop where
  core : after.core = before.core
  masterGain : after.masterGain = before.masterGain
  masterTarget : after.masterTarget = before.masterTarget
  outputGate : after.outputGate = max 0 (before.outputGate - 1 / 96)
  lastLeft : after.lastLeft = before.lastLeft
  lastRight : after.lastRight = before.lastRight
  out : out = (before.lastLeft * after.outputGate, before.lastRight * after.outputGate)

/-- A frame that completes moves every ramp. -/
structure Completed (before after : Live ℚ ℚ) (out : ℚ × ℚ) : Prop where
  renders : ∃ mix, Paula.Renders before.core after.core mix ∧
    after.lastLeft = mix.1 * after.masterGain ∧ after.lastRight = mix.2 * after.masterGain
  masterGain : after.masterGain = Ramp.approach (1 / 96) before.masterTarget before.masterGain
  masterTarget : after.masterTarget = before.masterTarget
  outputGate : after.outputGate = min 1 (before.outputGate + 1 / 96)
  out : out = (after.lastLeft * after.outputGate, after.lastRight * after.outputGate)

theorem frame_failed (missed : (frame port state).missed = true) :
    Failed state.1 (call port state .frame).1 (frame port state).out := by
  have frame_eq := @renderFrame_eq _ _ _ port state.1 state.2 _ _ _
  rw [show state.1.frameMissed state.2 port = true from missed, if_pos rfl] at frame_eq
  have gate : ∀ level : ℚ, (if Floating.lt (level - rampStep) (ofRat 0) = true then ofRat 0
      else level - rampStep) = max 0 (level - 1 / 96) := by
    intro level
    change (if decide (level - 1 / 96 < 0) = true then (0 : ℚ) else level - 1 / 96) = _
    simp only [decide_eq_true_eq]
    split
    next below => rw [max_eq_left below.le]
    next above => rw [max_eq_right (not_lt.mp above)]
  simp only [call, frame, frame_eq]
  exact ⟨rfl, rfl, rfl, gate _, rfl, rfl, rfl⟩

theorem frame_completed (complete : (frame port state).missed = false)
    (below : state.1.outputGate ≤ 1) :
    Completed state.1 (call port state .frame).1 (frame port state).out := by
  have frame_eq := @renderFrame_eq _ _ _ port state.1 state.2 _ _ _
  rw [show state.1.frameMissed state.2 port = false from complete, if_neg (by decide)] at frame_eq
  have gate : (if Floating.lt state.1.outputGate (ofRat 1) = true then
      (if Floating.lt (ofRat 1) (state.1.outputGate + rampStep) = true then ofRat 1
        else state.1.outputGate + rampStep) else state.1.outputGate) =
      min 1 (state.1.outputGate + 1 / 96) := by
    change (if decide (state.1.outputGate < 1) = true then
      (if decide (1 < state.1.outputGate + 1 / 96) = true then (1 : ℚ)
        else state.1.outputGate + 1 / 96) else state.1.outputGate) = _
    simp only [decide_eq_true_eq]
    split
    next =>
      split
      next above => rw [min_eq_left above.le]
      next within => rw [min_eq_right (not_lt.mp within)]
    next full => rw [min_eq_left (by linarith [not_lt.mp full])]; linarith [not_lt.mp full]
  have renders := Paula.render_renders (callbacks port) state.1.core
    ⟨true, 0, port.renderBegin (state.1.lookAhead port state.2).2⟩
  simp only [call, frame, frame_eq]
  exact ⟨⟨_, renders, rfl, rfl⟩, ramp_eq _ _, rfl, gate, rfl⟩

theorem Bounded.failed {before after : Live ℚ ℚ} {out : ℚ × ℚ} (bounded : Bounded before)
    (failed : Failed before after out) : Bounded after where
  core := failed.core ▸ bounded.core
  masterGain := failed.masterGain ▸ bounded.masterGain
  masterTarget := failed.masterTarget ▸ bounded.masterTarget
  outputGate := by
    rw [failed.outputGate]
    exact ⟨le_max_left _ _, max_le zero_le_one (by linarith [bounded.outputGate.2])⟩
  lastLeft := failed.lastLeft ▸ bounded.lastLeft
  lastRight := failed.lastRight ▸ bounded.lastRight

theorem scaled_abs {value scale : ℚ} (value_abs : |value| ≤ 2) (scale_mem : scale ∈ unit) :
    |value * scale| ≤ 2 := by
  rw [abs_mul, abs_of_nonneg scale_mem.1]
  exact (mul_le_of_le_one_right (abs_nonneg value) scale_mem.2).trans value_abs

theorem Bounded.completed {before after : Live ℚ ℚ} {out : ℚ × ℚ} (bounded : Bounded before)
    (completed : Completed before after out) : Bounded after := by
  obtain ⟨mix, renders, left, right⟩ := completed.renders
  have core := bounded.core.render renders
  have master : after.masterGain ∈ unit := by
    rw [completed.masterGain]
    exact Ramp.approach_mem (by norm_num) bounded.masterGain bounded.masterTarget
  refine ⟨core, master, completed.masterTarget ▸ bounded.masterTarget, ?_, ?_, ?_⟩
  · rw [completed.outputGate]
    exact ⟨le_min zero_le_one (by linarith [bounded.outputGate.1]), min_le_left _ _⟩
  · rw [left, renders.out]
    exact scaled_abs (core.sideMix_abs true) master
  · rw [right, renders.out]
    exact scaled_abs (core.sideMix_abs false) master

theorem frame_moves (bounded : Bounded state.1) :
    Moves state.1 (call port state .frame).1 (frame port state) := by
  cases missed : (frame port state).missed with
  | true =>
      have failed := frame_failed missed
      have gate := (bounded.failed failed).outputGate
      refine ⟨?_, ?_, fun _ => ?_, fun complete => ?_⟩
      · rw [failed.out]
        exact scaled_abs bounded.lastLeft gate
      · rw [failed.out]
        exact scaled_abs bounded.lastRight gate
      · have low := bounded.outputGate.1
        refine ⟨failed.masterGain, by rw [failed.core], by rw [failed.core], ?_, ?_⟩
        · rw [failed.outputGate]
          exact max_le low (by linarith)
        · rw [failed.outputGate]
          linarith [le_max_right 0 (state.1.outputGate - 1 / 96)]
      · rw [missed] at complete
        cases complete
  | false =>
      have completed := frame_completed missed bounded.outputGate.2
      have later := bounded.completed completed
      obtain ⟨mix, renders, left, right⟩ := completed.renders
      refine ⟨?_, ?_, fun failed => ?_, fun _ => ?_⟩
      · rw [completed.out]
        exact scaled_abs later.lastLeft later.outputGate
      · rw [completed.out]
        exact scaled_abs later.lastRight later.outputGate
      · rw [missed] at failed
        cases failed
      · have high := bounded.outputGate.2
        refine ⟨?_, ?_, fun ch => ?_, ?_, ?_⟩
        · rw [completed.masterGain]
          exact Ramp.approach_near (by norm_num)
        · rw [renders.stereoCurrent]
          exact Ramp.approach_near (by norm_num)
        · rw [renders.channelMixGain]
          exact Ramp.approach_near (by norm_num)
        · rw [completed.outputGate]
          exact le_min high (by linarith)
        · rw [completed.outputGate]
          linarith [min_le_right 1 (state.1.outputGate + 1 / 96)]

/-! Calls between two frames. -/

/-- The levels that only complete frames move. -/
def levels (live : Live ℚ ℚ) : ℚ × ℚ × (Fin 4 → ℚ) :=
  (live.masterGain, live.core.stereoCurrent, live.core.channelMixGain)

theorem writeRegister16_levels (core : Paula ℚ ℚ) (address : UInt32) (value : UInt16) :
    (core.writeRegister16 address value).stereoCurrent = core.stereoCurrent ∧
      (core.writeRegister16 address value).channelMixGain = core.channelMixGain := by
  rw [Paula.writeRegister16_eq]
  cases decode (address &&& 0xfff).toNat with
  | none => exact ⟨rfl, rfl⟩
  | some reg =>
      cases reg with
      | channel ch reg => cases reg <;> exact ⟨rfl, rfl⟩
      | _ => exact ⟨rfl, rfl⟩

theorem call_levels {made : Call σ} (between : made ≠ .frame) :
    levels (call port state made).1 = levels state.1 := by
  cases made with
  | frame => exact absurd rfl between
  | apply =>
      simp only [call, mixerApply]
      split
      · rfl
      · simp only [adopt, adoptCore_eq]
        rfl
  | write address value =>
      obtain ⟨stereo, gains⟩ := writeRegister16_levels state.1.core address value
      simp only [call, write, levels, stereo, gains]
  | reset => rfl
  | host change => rfl

theorem adopt_bounded {live : Live ℚ ℚ} (bounded : Bounded live) {word : UInt32}
    (valid : mixerValid word = true) : Bounded (live.adopt word) := by
  have master : (word &&& (127 : UInt32)).toNat ≤ 100 := by
    rw [show (word &&& (127 : UInt32)).toNat = _ from (mixerFields_toNat word).1]
    exact ((mixerValid_iff word).mp valid).2.2.1
  have cast : ((word &&& (127 : UInt32)).toNat : ℚ) ≤ 100 := by exact_mod_cast master
  have core : (adoptCore word live.core).Bounded := by
    rw [adoptCore_eq]
    exact { bounded.core with stereoSep := (bounded.core.setStereoSeparation _).stereoSep }
  have target : ((word &&& (127 : UInt32)).toNat : ℚ) * (1 / 100) ∈ unit := by
    constructor
    · positivity
    · linarith
  exact { bounded with core := core, masterTarget := target }

theorem call_bounded (bounded : Bounded state.1) (made : Call σ) :
    Bounded (call port state made).1 := by
  cases made with
  | apply =>
      simp only [call, mixerApply]
      split
      next => exact bounded
      next changed =>
        rw [not_or, Bool.not_eq_false] at changed
        exact adopt_bounded bounded changed.2
  | frame =>
      cases missed : (frame port state).missed with
      | true => exact bounded.failed (frame_failed missed)
      | false => exact bounded.completed (frame_completed missed bounded.outputGate.2)
  | write address value =>
      exact { bounded with core := bounded.core.writeRegister16 address value }
  | reset =>
      exact { bounded with
        core := bounded.core.reset
        outputGate := ⟨zero_le_one, le_refl (1 : ℚ)⟩
        lastLeft := by change |(0 : ℚ)| ≤ 2; norm_num
        lastRight := by change |(0 : ℚ)| ≤ 2; norm_num }
  | host change => exact bounded

theorem run_bounded (bounded : Bounded state.1) (calls : List (Call σ)) :
    Bounded (run port calls state).1 := by
  induction calls generalizing state with
  | nil => exact bounded
  | cons made rest ih => exact ih (call_bounded bounded made)

theorem init_bounded (port : Port σ) (host : σ) : Bounded (init port host : Live ℚ ℚ × σ).1 where
  core := by
    have fresh : (Paula.new (ofRat 3546895) : Paula ℚ ℚ).Bounded :=
      Paula.new_bounded (show (0 : ℚ) ≤ 3546895 by norm_num)
    have attached : ({ Paula.new (ofRat 3546895) with read := true, onInterrupt := true } :
        Paula ℚ ℚ).Bounded := { fresh with }
    exact (attached.setStereoSeparation _).setInterpolation _
  masterGain := ⟨zero_le_one, le_refl (1 : ℚ)⟩
  masterTarget := ⟨zero_le_one, le_refl (1 : ℚ)⟩
  outputGate := ⟨zero_le_one, le_refl (1 : ℚ)⟩
  lastLeft := by change |(0 : ℚ)| ≤ 2; norm_num
  lastRight := by change |(0 : ℚ)| ≤ 2; norm_num

/-! Constant settings. -/

def settings (live : Live ℚ ℚ) : ℚ × ℚ × (Fin 4 → Bool) :=
  (live.masterTarget, live.core.stereoSep, live.core.channelMuted)

/-- No call of a run changes a setting. -/
def Steady (port : Port σ) : List (Call σ) → Live ℚ ℚ × σ → Prop
  | [], _ => True
  | made :: rest, state =>
      settings (call port state made).1 = settings state.1 ∧ Steady port rest (call port state made)

/-- The complete frames of a run. -/
def completeFrames (port : Port σ) (calls : List (Call σ)) (state : Live ℚ ℚ × σ) : Nat :=
  (shown port calls state).countP fun frame => !frame.missed

/-- Every ramp that complete frames move is `count` frames from its setting. -/
structure Within (live : Live ℚ ℚ) (count : Nat) : Prop where
  masterGain : Ramp.Within (1 / 96) live.masterTarget live.masterGain count
  stereoCurrent : Ramp.Within (1 / 96) live.core.stereoSep live.core.stereoCurrent count
  channelMixGain : ∀ ch,
    Ramp.Within (1 / 96) (live.core.muteTarget ch) (live.core.channelMixGain ch) count

theorem Bounded.within {live : Live ℚ ℚ} (bounded : Bounded live) : Within live 96 := by
  have far : ∀ target level : ℚ, target ∈ unit → level ∈ unit →
      Ramp.Within (1 / 96) target level 96 := by
    rintro target level ⟨lowTarget, highTarget⟩ ⟨low, high⟩
    rw [Ramp.Within, abs_le]
    push_cast
    constructor <;> linarith
  exact ⟨far _ _ bounded.masterTarget bounded.masterGain,
    far _ _ bounded.core.stereoSep bounded.core.stereoCurrent,
    fun ch => far _ _ (Paula.muteTarget_mem _ ch) (bounded.core.channelMixGain ch)⟩

theorem Within.completed {before after : Live ℚ ℚ} {out : ℚ × ℚ} {count : Nat}
    (within : Within before count) (completed : Completed before after out) :
    Within after (count - 1) := by
  obtain ⟨mix, renders, -⟩ := completed.renders
  have target : ∀ ch, after.core.muteTarget ch = before.core.muteTarget ch := by
    intro ch
    rw [Paula.muteTarget, Paula.muteTarget, renders.channelMuted]
  refine ⟨?_, ?_, fun ch => ?_⟩
  · rw [completed.masterTarget, completed.masterGain]
    exact within.masterGain.approach (by norm_num)
  · rw [renders.stereoSep, renders.stereoCurrent]
    exact within.stereoCurrent.approach (by norm_num)
  · rw [target, renders.channelMixGain]
    exact (within.channelMixGain ch).approach (by norm_num)

/-- The ramps only look at their settings. -/
theorem Within.kept {before after : Live ℚ ℚ} {count : Nat} (within : Within before count)
    (same : settings after = settings before) (kept : levels after = levels before) :
    Within after count := by
  simp only [settings, levels, Prod.mk.injEq] at same kept
  obtain ⟨masterTarget, stereoSep, muted⟩ := same
  obtain ⟨masterGain, stereoCurrent, mixGain⟩ := kept
  refine ⟨?_, ?_, fun ch => ?_⟩
  · rw [masterTarget, masterGain]
    exact within.masterGain
  · rw [stereoSep, stereoCurrent]
    exact within.stereoCurrent
  · rw [Paula.muteTarget, muted, mixGain]
    exact within.channelMixGain ch

theorem shown_between {made : Call σ} (between : made ≠ .frame) (rest : List (Call σ)) :
    shown port (made :: rest) state = shown port rest (call port state made) := by
  cases made with
  | frame => exact absurd rfl between
  | _ => rfl

theorem run_within {calls : List (Call σ)} {count : Nat} (bounded : Bounded state.1)
    (steady : Steady port calls state) (within : Within state.1 count) :
    Within (run port calls state).1 (count - completeFrames port calls state) := by
  induction calls generalizing state count with
  | nil => exact within
  | cons made rest ih =>
      obtain ⟨same, later⟩ := steady
      have next := @call_bounded σ port _ bounded made
      by_cases frames : made = .frame
      · subst frames
        cases missed : (frame port state).missed with
        | true =>
            have failed := frame_failed missed
            have kept : levels (call port state .frame).1 = levels state.1 := by
              rw [levels, levels, failed.core, failed.masterGain]
            have counted : completeFrames port (.frame :: rest) state =
                completeFrames port rest (call port state .frame) := by
              rw [completeFrames, shown, List.countP_cons_of_neg (by simp [missed])]
              rfl
            rw [counted]
            exact ih next later (within.kept same kept)
        | false =>
            have counted : completeFrames port (.frame :: rest) state =
                1 + completeFrames port rest (call port state .frame) := by
              rw [completeFrames, shown, List.countP_cons_of_pos (by simp [missed]), Nat.add_comm]
              rfl
            rw [counted, ← Nat.sub_sub]
            exact ih next later
              (within.completed (frame_completed missed bounded.outputGate.2))
      · rw [completeFrames, shown_between frames]
        exact ih next later (within.kept same (call_levels frames))

/-- The settings have come into force. -/
structure Reached (live : Live ℚ ℚ) : Prop where
  masterGain : live.masterGain = live.masterTarget
  stereoCurrent : live.core.stereoCurrent = live.core.stereoSep
  channelMixGain : ∀ ch, live.core.channelMixGain ch = live.core.muteTarget ch

theorem run_reached {calls : List (Call σ)} (bounded : Bounded state.1)
    (steady : Steady port calls state) (enough : 96 ≤ completeFrames port calls state) :
    Reached (run port calls state).1 := by
  have within := run_within bounded steady bounded.within
  rw [Nat.sub_eq_zero_of_le enough] at within
  exact ⟨Ramp.within_zero.mp within.masterGain, Ramp.within_zero.mp within.stereoCurrent,
    fun ch => Ramp.within_zero.mp (within.channelMixGain ch)⟩

/-! Frames that keep missing. -/

/-- After `count` frames without a complete one nothing is held, or the gate has fallen so far. -/
def Fading (live : Live ℚ ℚ) (count : Nat) : Prop :=
  (live.lastLeft = 0 ∧ live.lastRight = 0) ∨ live.outputGate ≤ max 0 (1 - (count : ℚ) / 96)

theorem Fading.failed {before after : Live ℚ ℚ} {out : ℚ × ℚ} {count : Nat}
    (fading : Fading before count) (failed : Failed before after out) :
    Fading after (count + 1) ∧ (95 ≤ count → out = (0, 0)) := by
  rcases fading with ⟨left, right⟩ | fallen
  · refine ⟨.inl ⟨failed.lastLeft.trans left, failed.lastRight.trans right⟩, fun _ => ?_⟩
    rw [failed.out, left, right, zero_mul]
  · have lower : after.outputGate ≤ max 0 (1 - ((count + 1 : Nat) : ℚ) / 96) := by
      rw [failed.outputGate]
      push_cast
      rcases le_total 0 (1 - (count : ℚ) / 96) with above | below
      · rw [max_eq_right above] at fallen
        exact max_le_max_left 0 (by linarith)
      · rw [max_eq_left below] at fallen
        exact max_le (le_max_left _ _) ((by linarith : _ ≤ (0 : ℚ)).trans (le_max_left _ _))
    refine ⟨.inr lower, fun enough => ?_⟩
    have many : (95 : ℚ) ≤ count := by exact_mod_cast enough
    have shut : after.outputGate = 0 := by
      apply le_antisymm
      · refine lower.trans (max_le (le_refl 0) ?_)
        push_cast
        linarith
      · rw [failed.outputGate]
        exact le_max_left _ _
    rw [failed.out, shut, mul_zero, mul_zero]

theorem Fading.between {made : Call σ} {count : Nat} (between : made ≠ .frame)
    (fading : Fading state.1 count) : Fading (call port state made).1 count := by
  cases made with
  | frame => exact absurd rfl between
  | reset => exact .inl ⟨rfl, rfl⟩
  | apply =>
      simp only [call, mixerApply]
      split
      · exact fading
      · exact fading
  | write address value => exact fading
  | host change => exact fading

/-- From the 96th frame on that has missed since the last complete one, there is silence. -/
theorem shown_silent {calls : List (Call σ)} {count : Nat} (fading : Fading state.1 count)
    (missing : ∀ frame ∈ shown port calls state, frame.missed = true) :
    ∀ frame ∈ (shown port calls state).drop (95 - count), frame.out = (0, 0) := by
  induction calls generalizing state count with
  | nil =>
      intro frame member
      rw [shown, List.drop_nil] at member
      cases member
  | cons made rest ih =>
      by_cases frames : made = .frame
      · subst frames
        rw [shown] at missing ⊢
        obtain ⟨next, silent⟩ :=
          fading.failed (frame_failed (missing _ List.mem_cons_self))
        have later := ih next fun frame member => missing frame (List.mem_cons_of_mem _ member)
        intro shownFrame member
        by_cases enough : 95 ≤ count
        · rw [Nat.sub_eq_zero_of_le enough, List.drop_zero] at member
          rcases List.mem_cons.mp member with rfl | member
          · exact silent enough
          · rw [Nat.sub_eq_zero_of_le (by omega), List.drop_zero] at later
            exact later shownFrame member
        · rw [show 95 - count = (95 - (count + 1)) + 1 by omega, List.drop_succ_cons] at member
          exact later shownFrame member
      · rw [shown_between frames] at missing ⊢
        exact ih (fading.between frames) missing

theorem Bounded.fading {live : Live ℚ ℚ} (bounded : Bounded live) : Fading live 0 := by
  right
  rw [Nat.cast_zero, zero_div, sub_zero]
  exact bounded.outputGate.2.trans (le_max_right _ _)

/-- In every run the gains stay in their bounds and move by one step of their ramps at most.
96 complete frames of constant settings reach them, and 96 frames without a complete one
end in silence. -/
theorem gains_over_runs (port : Port σ) (host : σ) (calls : List (Call σ)) :
    Bounded (run port calls (init port host)).1 ∧
      Moves (run port calls (init port host)).1
        (call port (run port calls (init port host)) .frame).1
        (frame port (run port calls (init port host))) ∧
      ∀ more : List (Call σ),
        (Steady port more (run port calls (init port host)) →
          96 ≤ completeFrames port more (run port calls (init port host)) →
          Reached (run port more (run port calls (init port host))).1) ∧
        ((∀ frame ∈ shown port more (run port calls (init port host)), frame.missed = true) →
          ∀ frame ∈ (shown port more (run port calls (init port host))).drop 95,
            frame.out = (0, 0)) := by
  have bounded := @run_bounded σ port _ (init_bounded port host) calls
  exact ⟨bounded, frame_moves bounded, fun more => ⟨fun steady enough =>
    run_reached bounded steady enough, fun missing => shown_silent bounded.fading missing⟩⟩

/-- A host without a cache, with a word in the mailbox; its state says whether frames miss. -/
def mailbox (word : UInt32) : Port Bool where
  readByte _ host := (0x40, host)
  prefetch _ _ host := host
  renderBegin host := host
  renderMissed host := host
  metrics _ := Function.update Probe.init pmRequest word
  probe _ host := host

theorem mailbox_upholds (word : UInt32) (missed : Bool) : (mailbox word).Upholds (· = missed) where
  readByte _ _ held := held
  prefetch _ _ _ held := held
  renderBegin _ held := held
  add _ _ _ held := held

theorem mailbox_missed (word : UInt32) (live : Live ℚ ℚ) (missed : Bool) :
    live.frameMissed missed (mailbox word) = missed := by
  have upholds := mailbox_upholds word missed
  have looked : (live.lookAhead (mailbox word) missed).2 = missed :=
    lookAhead_upholds upholds live rfl
  have held : (attempt (mailbox word) live.core
      (live.lookAhead (mailbox word) missed).2).2.host = missed :=
    attempt_upholds upholds live.core looked
  exact held

theorem mailbox_kept (word : UInt32) (live : Live ℚ ℚ) (missed : Bool) :
    (live.renderFrame (mailbox word) missed).2.2 = missed :=
  renderFrame_upholds live (mailbox_upholds word missed) (rfl : missed = missed)

theorem frames_steady (port : Port σ) (frames : Nat) (state : Live ℚ ℚ × σ) :
    Steady port (List.replicate frames .frame) state := by
  induction frames generalizing state with
  | zero => trivial
  | succ frames ih =>
      refine ⟨?_, ih _⟩
      have target := (renderFrame_settings state.1 state.2 port).1
      have core := (renderFrame_keeps state.1 state.2 port).settings
      simp only [Paula.settings, Prod.mk.injEq] at core
      simp only [settings, call, target, core.1, core.2.2.1]

theorem shown_mailbox (word : UInt32) (frames : Nat) (state : Live ℚ ℚ × Bool) :
    (shown (mailbox word) (List.replicate frames .frame) state).map Shown.missed =
      List.replicate frames state.2 := by
  induction frames generalizing state with
  | zero => rfl
  | succ frames ih =>
      obtain ⟨live, missed⟩ := state
      have first : (frame (mailbox word) (live, missed)).missed = missed := by
        rw [frame, mailbox_missed]
      have kept : (call (mailbox word) (live, missed) .frame).2 = missed := by
        rw [call, mailbox_kept]
      have rest := ih (call (mailbox word) (live, missed) .frame)
      rw [kept] at rest
      rw [List.replicate_succ, List.replicate_succ, shown, List.map_cons, first, rest]

/-- One word of sound at full volume and a frame of it, after the mailbox's word. -/
def sounding : List (Call Bool) :=
  [.write 0xdff0a4 1, .write 0xdff0a8 64, .write 0xdff096 0x8201, .apply, .frame]

/-- Half the gain, less separation and one channel muted: 96 complete frames reach them, and
without a complete frame the last one fades. -/
theorem gains_over_runs_of_96_frames :
    let port := mailbox 0x80041432
    let state := run port sounding (init port false)
    ((state.1.masterTarget, state.1.core.stereoSep, state.1.core.channelMuted 3) =
        (1 / 2, 2 / 5, true) ∧ state.1.masterGain ≠ 1 / 2 ∧ state.1.lastLeft ≠ 0) ∧
      Reached (run port (List.replicate 96 .frame) state).1 ∧
      ∀ frame ∈ (shown port (.host (fun _ => true) :: List.replicate 100 .frame) state).drop 95,
        frame.out = (0, 0) := by
  intro port state
  have ready : state.2 = false := by decide +kernel
  refine ⟨⟨by decide +kernel, by decide +kernel, by decide +kernel⟩, ?_, ?_⟩
  · refine ((gains_over_runs port false sounding).2.2 (List.replicate 96 .frame)).1
      (frames_steady _ _ _) ?_
    have complete := shown_mailbox 0x80041432 96 state
    have counted : completeFrames port (List.replicate 96 .frame) state =
        ((shown port (List.replicate 96 .frame) state).map Shown.missed).countP (!·) := by
      rw [List.countP_map]
      rfl
    refine Nat.le_of_eq (Eq.symm (counted.trans ?_))
    rw [complete, ready]
    decide
  · apply ((gains_over_runs port false sounding).2.2 _).2
    intro frame member
    have missing := List.mem_map_of_mem (f := Shown.missed) member
    change frame.missed ∈ (shown (mailbox 0x80041432) (List.replicate 100 .frame)
      (state.1, true)).map Shown.missed at missing
    rw [shown_mailbox] at missing
    exact List.eq_of_mem_replicate missing

end Gains

end Paulastorm.Live
