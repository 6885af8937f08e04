import Paulastorm.Core.Gains

namespace Paulastorm.Core

/-! How a muted channel leaves the mix and comes back.

`render` ramps the gain of a channel towards its mute state, but `serviceChannel_` has
already dropped a muted channel.  What is audible is the product of the two.
-/

open Library

namespace Mute

/-- What a frame shows of one channel: its mute state and its ramp. -/
structure Turn where
  muted : Bool
  gain : ℚ

/-- The factor of the channel's voice in that frame. -/
def Turn.factor (turn : Turn) : ℚ := if turn.muted then 0 else turn.gain

def target (muted : Bool) : ℚ := if muted then 0 else 1

/-- Two frames between which the factor moves by one step of the ramp at most. -/
def Smooth (before after : Turn) : Prop := |after.factor - before.factor| ≤ 1 / 96

/-- The mute state stays, or changes where the ramp has all but ended. -/
def Gentle (before after : Turn) : Prop :=
  before.muted = after.muted ∨ before.gain ≤ if after.muted then 1 / 96 else 0

/-- The ramp of a channel over consecutive frames. -/
def Ramps : ℚ → List Turn → Prop
  | _, [] => True
  | gain, turn :: rest =>
      turn.gain = Ramp.approach (1 / 96) (target turn.muted) gain ∧ Ramps turn.gain rest

/-- 96 frames in one mute state end at its factor. -/
def Settles (turns : List Turn) : Prop :=
  ∀ before middle after, turns = before ++ middle ++ after → middle.length = 96 →
    ∀ muted, (∀ turn ∈ middle, turn.muted = muted) →
      ∀ last ∈ middle.getLast?, last.factor = target muted

variable {gain : ℚ} {turns : List Turn}

theorem target_mem (muted : Bool) : target muted ∈ unit := by
  cases muted
  · exact ⟨zero_le_one, le_refl 1⟩
  · exact ⟨le_refl 0, zero_le_one⟩

theorem gain_mem (gain_mem : gain ∈ unit) {turn : Turn}
    (ramped : turn.gain = Ramp.approach (1 / 96) (target turn.muted) gain) : turn.gain ∈ unit := by
  rw [ramped]
  exact Ramp.approach_mem (by norm_num) gain_mem (target_mem turn.muted)

theorem smooth_iff_gentle {before after : Turn} (unit : before.gain ∈ unit)
    (ramped : after.gain = Ramp.approach (1 / 96) (target after.muted) before.gain) :
    Smooth before after ↔ Gentle before after := by
  obtain ⟨low, high⟩ := unit
  unfold Smooth Gentle Turn.factor
  cases wasMuted : before.muted <;> cases isMuted : after.muted
  · -- it stays audible
    simp only [Bool.false_eq_true, if_false, true_or, iff_true]
    rw [ramped]
    exact Ramp.approach_near (by norm_num)
  · -- the gate drops what the ramp still plays
    simp only [Bool.false_eq_true, if_false, if_true, false_or]
    rw [zero_sub, abs_neg, abs_of_nonneg low]
  · -- the ramp has not yet reached silence
    simp only [Bool.false_eq_true, if_false, if_true, reduceCtorEq, false_or]
    rw [isMuted, target, if_neg (by decide)] at ramped
    rw [sub_zero, ramped]
    rcases Ramp.approach_cases (by norm_num : (0 : ℚ) ≤ 1 / 96) 1 before.gain with
      ⟨above, up⟩ | ⟨below, down⟩ | ⟨near, reached⟩
    · rw [up, abs_of_nonneg (by linarith)]
      constructor <;> intro <;> linarith
    · linarith
    · rw [reached]
      rw [abs_le] at near
      norm_num
      linarith
  · -- it stays silent
    norm_num

theorem not_smooth_muted (gain : ℚ) : ¬ Smooth ⟨false, 1⟩ ⟨true, gain⟩ := by
  simp only [Smooth, Turn.factor]
  norm_num

theorem chain_iff (start : gain ∈ unit) (ramps : Ramps gain turns) :
    List.IsChain Smooth turns ↔ List.IsChain Gentle turns := by
  induction turns generalizing gain with
  | nil => exact iff_of_true .nil .nil
  | cons turn rest ih =>
      obtain ⟨ramped, later⟩ := ramps
      have inside := gain_mem start ramped
      cases rest with
      | nil => exact iff_of_true (.singleton _) (.singleton _)
      | cons next rest =>
          rw [List.isChain_cons_cons, List.isChain_cons_cons, ih inside later,
            smooth_iff_gentle inside later.1]

theorem Ramps.right {first second : List Turn} (start : gain ∈ unit)
    (ramps : Ramps gain (first ++ second)) : ∃ later ∈ unit, Ramps later second := by
  induction first generalizing gain with
  | nil => exact ⟨gain, start, ramps⟩
  | cons turn rest ih => exact ih (gain_mem start ramps.1) ramps.2

theorem Ramps.left {first second : List Turn} (ramps : Ramps gain (first ++ second)) :
    Ramps gain first := by
  induction first generalizing gain with
  | nil => trivial
  | cons turn rest ih => exact ⟨ramps.1, ih ramps.2⟩

/-- Each frame in one mute state brings the ramp a step closer. -/
theorem Ramps.within {muted : Bool} {count : ℕ} (ramps : Ramps gain turns)
    (same : ∀ turn ∈ turns, turn.muted = muted)
    (within : Ramp.Within (1 / 96) (target muted) gain count) :
    ∀ last ∈ turns.getLast?,
      Ramp.Within (1 / 96) (target muted) last.gain (count - turns.length) := by
  induction turns generalizing gain count with
  | nil =>
      intro last member
      cases member
  | cons turn rest ih =>
      obtain ⟨ramped, later⟩ := ramps
      rw [same turn List.mem_cons_self] at ramped
      have closer := within.approach (by norm_num)
      rw [← ramped] at closer
      intro last member
      rw [List.length_cons, Nat.add_comm, ← Nat.sub_sub]
      cases rest with
      | nil =>
          cases member
          exact closer
      | cons next rest =>
          rw [List.getLast?_cons_cons] at member
          exact ih later (fun turn member => same turn (List.mem_cons_of_mem _ member)) closer last
            member

theorem settles (start : gain ∈ unit) (ramps : Ramps gain turns) : Settles turns := by
  rintro before middle after rfl long muted same last member
  rw [List.append_assoc] at ramps
  obtain ⟨later, inside, ramps⟩ := ramps.right start
  have far : Ramp.Within (1 / 96) (target muted) later 96 := by
    obtain ⟨low, high⟩ := inside
    obtain ⟨lowTarget, highTarget⟩ := target_mem muted
    rw [Ramp.Within, abs_le]
    push_cast
    constructor <;> linarith
  have reached := ramps.left.within same far last member
  rw [long, Ramp.within_zero] at reached
  rw [Turn.factor, same last (List.mem_of_mem_getLast? member), reached, target]
  cases muted <;> rfl

end Mute

namespace Paula

/-- The calls of `paula.h` that the host makes. -/
inductive Call where
  | attach (read onInterrupt : Bool)
  | reset
  | write (addr : UInt32) (value : UInt16)
  | setLoop (ch : Fin 4) (loc : UInt32) (lenWords : UInt16)
  | setStereoSeparation (s : ℚ)
  | setInterpolation (mode : Interp)
  | setChannelMuted (ch : Fin 4) (muted : Bool)
  | frame

variable {σ : Type} (callbacks : Callbacks σ)

def call (state : Paula ℚ ℚ × σ) : Call → Paula ℚ ℚ × σ
  | .attach read onInterrupt => ({ state.1 with read := read, onInterrupt := onInterrupt }, state.2)
  | .reset => (state.1.reset, state.2)
  | .write addr value => (state.1.writeRegister16 addr value, state.2)
  | .setLoop ch loc lenWords => (state.1.setLoop ch loc lenWords, state.2)
  | .setStereoSeparation s => (state.1.setStereoSeparation s, state.2)
  | .setInterpolation mode => (state.1.setInterpolation mode, state.2)
  | .setChannelMuted ch muted => (state.1.setChannelMuted ch muted, state.2)
  | .frame => ((state.1.render callbacks state.2).1.2, (state.1.render callbacks state.2).2)

/-- The frames of a run, as one channel sees them. -/
def turns (ch : Fin 4) : List Call → Paula ℚ ℚ × σ → List Mute.Turn
  | [], _ => []
  | .frame :: rest, state =>
      let next := call callbacks state .frame
      ⟨next.1.channelMuted ch, next.1.channelMixGain ch⟩ :: turns ch rest next
  | made :: rest, state => turns ch rest (call callbacks state made)

variable {ch : Fin 4}

/-- Between frames no call moves a mute ramp. -/
theorem call_channelMixGain {made : Call} (between : made ≠ .frame) (state : Paula ℚ ℚ × σ) :
    (call callbacks state made).1.channelMixGain = state.1.channelMixGain := by
  cases made with
  | frame => exact absurd rfl between
  | write addr value =>
      rw [call, writeRegister16_eq]
      cases decode (addr &&& 0xfff).toNat with
      | none => rfl
      | some reg =>
          cases reg with
          | channel ch reg => cases reg <;> rfl
          | _ => rfl
  | _ => rfl

theorem turns_ramps (calls : List Call) (state : Paula ℚ ℚ × σ) :
    Mute.Ramps (state.1.channelMixGain ch) (turns callbacks ch calls state) := by
  induction calls generalizing state with
  | nil => trivial
  | cons made rest ih =>
      by_cases frame : made = .frame
      · subst frame
        have renders := render_renders callbacks state.1 state.2
        refine ⟨?_, ih (call callbacks state .frame)⟩
        refine (renders.channelMixGain ch).trans ?_
        rw [muteTarget, Mute.target, ← renders.channelMuted]
        rfl
      · have kept := call_channelMixGain callbacks frame state
        have skipped : turns callbacks ch (made :: rest) state =
            turns callbacks ch rest (call callbacks state made) := by
          cases made with
          | frame => exact absurd rfl frame
          | _ => rfl
        rw [skipped, ← kept]
        exact ih (call callbacks state made)

/-- In every run the channel's factor moves by a step of the ramp from each frame to the
next, and settles, exactly if its mute state only changes where `Gentle` says. -/
theorem mute_ramps_iff (clockHz : ℚ) (host : σ) (calls : List Call) (ch : Fin 4) :
    List.IsChain Mute.Smooth (turns callbacks ch calls (new clockHz, host)) ∧
        Mute.Settles (turns callbacks ch calls (new clockHz, host)) ↔
      List.IsChain Mute.Gentle (turns callbacks ch calls (new clockHz, host)) := by
  have start : (new clockHz : Paula ℚ ℚ).channelMixGain ch ∈ unit := ⟨zero_le_one, le_refl (1 : ℚ)⟩
  have ramps := @turns_ramps σ callbacks ch calls (new clockHz, host)
  rw [Mute.chain_iff start ramps]
  exact and_iff_left (Mute.settles start ramps)

/-- Muting a channel that plays drops it at once. -/
theorem muting_drops {p : Paula ℚ ℚ} (host : σ) (audible : p.channelMuted ch = false)
    (full : p.channelMixGain ch = 1) : ¬ List.IsChain Mute.Smooth
      (turns callbacks ch [.frame, .setChannelMuted ch true, .frame] (p, host)) := by
  have first := render_renders callbacks p host
  generalize rendered : p.render callbacks host = shown at first
  obtain ⟨⟨out, q⟩, later⟩ := shown
  have second := render_renders callbacks (q.setChannelMuted ch true) later
  have early : q.channelMuted ch = false := (congrFun first.channelMuted ch).trans audible
  have gain : q.channelMixGain ch = 1 := by
    rw [first.channelMixGain, muteTarget, audible, full]
    exact Ramp.approach_target (by norm_num)
  have muted : (q.setChannelMuted ch true).channelMuted ch = true := by
    simp [setChannelMuted]
  have late := (congrFun second.channelMuted ch).trans muted
  simp only [turns, call, rendered, List.isChain_cons_cons]
  rintro ⟨step, -⟩
  rw [early, gain, late] at step
  exact Mute.not_smooth_muted _ step

theorem mute_is_a_step : ¬ List.IsChain Mute.Smooth
    (turns (⟨fun _ host => (0, host), fun _ host => host⟩ : Callbacks Unit) 0
      [.frame, .setChannelMuted 0 true, .frame] (new 3546895, ())) :=
  muting_drops _ () rfl rfl

end Paula

end Paulastorm.Core
