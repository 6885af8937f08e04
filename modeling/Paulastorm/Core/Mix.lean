import Paulastorm.Core.Keeps
import Paulastorm.Core.Walk
import Paulastorm.Library.Ramp

namespace Paulastorm.Core

/-! What one frame does to the gains of the mixer, and what it plays. -/

open Library

theorem rampDelta_eq (delta : ℚ) :
    rampDelta delta rampStep = max (-(1 / 96)) (min (1 / 96) delta) := by
  have step : (rampStep : ℚ) = 1 / 96 := rfl
  have clamp : ∀ step : ℚ, 0 ≤ step → rampDelta delta step = max (-step) (min step delta) := by
    intro step positive
    change (if decide ((if decide (step < delta) = true then step else delta) < -step) = true
      then -step else if decide (step < delta) = true then step else delta) = _
    simp only [decide_eq_true_eq]
    rcases lt_or_ge step delta with above | within
    · rw [if_pos above, if_neg (by linarith), min_eq_left above.le, max_eq_right (by linarith)]
    · rw [if_neg (not_lt.mpr within), min_eq_right within]
      rcases lt_or_ge delta (-step) with below | near
      · rw [if_pos below, max_eq_left below.le]
      · rw [if_neg (not_lt.mpr near), max_eq_right near]
  rw [step]
  exact clamp _ (by norm_num)

/-- Every linear ramp of the source moves like this. -/
theorem ramp_eq (target level : ℚ) :
    level + rampDelta (target - level) rampStep = Ramp.approach (1 / 96) target level := by
  rw [rampDelta_eq, Ramp.approach]

namespace Paula

section Service

variable {F D σ : Type} {p q r : Paula F D} {ch : Fin 4}

/-- From `p` to `q` only the channel `ch` has been walked. -/
structure Walks (ch : Fin 4) (p q : Paula F D) : Prop where
  mixState : q.mixState = p.mixState
  gainSmoothCoeff : q.gainSmoothCoeff = p.gainSmoothCoeff
  clockHz : q.clockHz = p.clockHz
  others : ∀ other, other ≠ ch → q.channels other = p.channels other
  gainSmoothed : (q.channels ch).gainSmoothed = (p.channels ch).gainSmoothed
  volume : (q.channels ch).volume = (p.channels ch).volume

theorem Walks.refl (p : Paula F D) : Walks ch p p :=
  ⟨rfl, rfl, rfl, fun _ _ => rfl, rfl, rfl⟩

theorem Walks.trans (first : Walks ch p q) (second : Walks ch q r) : Walks ch p r where
  mixState := second.mixState.trans first.mixState
  gainSmoothCoeff := second.gainSmoothCoeff.trans first.gainSmoothCoeff
  clockHz := second.clockHz.trans first.clockHz
  others other different := (second.others other different).trans (first.others other different)
  gainSmoothed := second.gainSmoothed.trans first.gainSmoothed
  volume := second.volume.trans first.volume

theorem updateChannel_walks (p : Paula F D) {c : Channel F D}
    (gainSmoothed : c.gainSmoothed = (p.channels ch).gainSmoothed)
    (volume : c.volume = (p.channels ch).volume) : Walks ch p (p.updateChannel ch c) where
  mixState := rfl
  gainSmoothCoeff := rfl
  clockHz := rfl
  others _ different := updateChannel_of_ne p different c
  gainSmoothed := by rw [updateChannel_self, gainSmoothed]
  volume := by rw [updateChannel_self, volume]

variable (callbacks : Callbacks σ)

theorem reload_walks (p : Paula F D) (host : σ) : Walks ch p (p.reload callbacks ch host).1 := by
  simp only [reload]
  split
  · have raised : ∀ q : Paula F D, Walks ch q (q.raise ch) :=
      fun _ => ⟨rfl, rfl, rfl, fun _ _ => rfl, rfl, rfl⟩
    refine .trans ?_ (raised _)
    exact updateChannel_walks p rfl rfl
  · exact .refl p

theorem advance_walks (p : Paula F D) (host : σ) :
    Walks ch p (p.advanceOneSourceSample callbacks ch host).1 := by
  simp only [advanceOneSourceSample]
  split_ifs
  · exact updateChannel_walks p rfl rfl
  · exact updateChannel_walks p rfl rfl
  · exact (reload_walks callbacks p host).trans (updateChannel_walks _ rfl rfl)
  · exact updateChannel_walks p rfl rfl

theorem advance_phase_self (p : Paula F D) (host : σ) :
    ((p.advanceOneSourceSample callbacks ch host).1.channels ch).phase = (p.channels ch).phase := by
  simp only [advanceOneSourceSample, reload, fetchWord]
  split_ifs <;> simp [Channel.silence, Channel.loadWord, Channel.reloaded, Channel.secondByte,
    raise]

theorem catchUp_walks [Floating D] (rounds : Nat) (p : Paula F D) (host : σ) :
    Walks ch p (catchUp callbacks ch rounds (p, host)).1 := by
  induction rounds generalizing p host with
  | zero => exact .refl p
  | succ rounds ih =>
      simp only [catchUp]
      split
      · refine .trans ?_ (ih _ _)
        refine .trans ?_ (advance_walks callbacks _ host)
        exact updateChannel_walks p rfl rfl
      · exact .refl p

/-- The loop of `serviceChannel_` leaves the fractional part of the phase. -/
theorem catchUp_phase {F : Type} (rounds : Nat) (p : Paula F ℚ) (host : σ)
    (positive : 0 ≤ (p.channels ch).phase) (enough : (p.channels ch).phase < rounds + 1) :
    ((catchUp callbacks ch rounds (p, host)).1.channels ch).phase ∈ Set.Ico (0 : ℚ) 1 := by
  induction rounds generalizing p host with
  | zero =>
      rw [Nat.cast_zero, zero_add] at enough
      exact ⟨positive, enough⟩
  | succ rounds ih =>
      have due : Floating.le (ofRat 1) (p.channels ch).phase =
          decide (1 ≤ (p.channels ch).phase) := rfl
      rw [catchUp, due]
      split
      next whole =>
        have taken : (((p.updateChannel ch { p.channels ch with
              phase := (p.channels ch).phase - ofRat 1 }).advanceOneSourceSample callbacks ch
            host).1.channels ch).phase = (p.channels ch).phase - 1 := by
          rw [advance_phase_self, updateChannel_self]
          rfl
        rw [decide_eq_true_iff] at whole
        push_cast at enough
        generalize (p.updateChannel ch { p.channels ch with
          phase := (p.channels ch).phase - ofRat 1 }).advanceOneSourceSample callbacks ch host =
            after at taken ⊢
        obtain ⟨q, later⟩ := after
        dsimp only at taken
        exact ih q later (by linarith) (by linarith)
      next settled =>
        rw [decide_eq_true_iff, not_le] at settled
        exact ⟨positive, settled⟩

end Service

section Mix

variable {σ : Type} (callbacks : Callbacks σ) {p : Paula ℚ ℚ} {ch : Fin 4}

/-- The resampled value of a channel at its volume. -/
def voice (p : Paula ℚ ℚ) (ch : Fin 4) : ℚ := p.resample ch * (p.channels ch).gainSmoothed

/-- The factor by which a voice enters its mono mix. -/
def muteFactor (p : Paula ℚ ℚ) (ch : Fin 4) : ℚ :=
  if p.channelMuted ch then 0 else p.channelMixGain ch

/-- Where the mute ramp of a channel goes. -/
def muteTarget (p : Paula ℚ ℚ) (ch : Fin 4) : ℚ := if p.channelMuted ch then 0 else 1

/-- One step of the volume glide. -/
def glide (coeff target gain : ℚ) : ℚ := gain + (target - gain) * coeff

theorem mixOut_resample (p : Paula ℚ ℚ) (ch : Fin 4) :
    (p.mixOut ch).2.resample ch = p.resample ch := by
  simp only [mixOut, resample, updateChannel_self]
  rfl

theorem mixOut_voice (p : Paula ℚ ℚ) (ch : Fin 4) :
    (p.mixOut ch).1 = if p.channelMuted ch then 0 else voice (p.mixOut ch).2 ch := by
  rw [voice, mixOut_resample]
  simp only [mixOut, updateChannel_self]
  split
  · rfl
  · exact zero_add _

theorem mixOut_glide (p : Paula ℚ ℚ) (ch : Fin 4) :
    ((p.mixOut ch).2.channels ch).gainSmoothed =
      glide p.gainSmoothCoeff (volumeToGain (p.channels ch).volume)
        (p.channels ch).gainSmoothed := by
  simp only [mixOut, updateChannel_self]
  rfl

/-- What `serviceChannel_` does to the gain and the phase of its channel. -/
structure Serves (ch : Fin 4) (p q : Paula ℚ ℚ) : Prop where
  mixState : q.mixState = p.mixState
  gainSmoothCoeff : q.gainSmoothCoeff = p.gainSmoothCoeff
  clockHz : q.clockHz = p.clockHz
  others : ∀ other, other ≠ ch → q.channels other = p.channels other
  gainSmoothed : (q.channels ch).gainSmoothed =
    glide p.gainSmoothCoeff (volumeToGain (p.channels ch).volume) (p.channels ch).gainSmoothed
  phase : 0 ≤ p.clockHz → 0 ≤ (p.channels ch).phase → (q.channels ch).phase ∈ Set.Ico (0 : ℚ) 1

theorem serviceChannel_serves (p : Paula ℚ ℚ) (ch : Fin 4) (host : σ) {frame : ℚ}
    (elapsed : 0 ≤ frame) : Serves ch p (p.serviceChannel callbacks ch frame host).1.2 ∧
      (p.serviceChannel callbacks ch frame host).1.1 =
        if p.channelMuted ch then 0 else voice (p.serviceChannel callbacks ch frame host).1.2 ch := by
  have stepped : Walks ch p (p.addStep ch frame) := updateChannel_walks p rfl rfl
  have later : ((p.addStep ch frame).channels ch).phase = (p.channels ch).phase +
      p.clockHz / (if (p.channels ch).period ≠ 0 then (p.channels ch).period else 1).toNat *
        frame := by
    simp only [addStep, updateChannel_self]
    rfl
  have walked := stepped.trans (catchUp_walks callbacks
    (Arith.rounds ℚ ((p.addStep ch frame).channels ch).phase) (p.addStep ch frame) host)
  have settled := @catchUp_phase σ ch callbacks ℚ
    (Arith.rounds ℚ ((p.addStep ch frame).channels ch).phase) (p.addStep ch frame) host
  have service : p.serviceChannel callbacks ch frame host =
      ((catchUp callbacks ch (Arith.rounds ℚ ((p.addStep ch frame).channels ch).phase)
        (p.addStep ch frame, host)).1.mixOut ch, (catchUp callbacks ch
          (Arith.rounds ℚ ((p.addStep ch frame).channels ch).phase) (p.addStep ch frame, host)).2) :=
    rfl
  rw [service]
  generalize (catchUp callbacks ch (Arith.rounds ℚ ((p.addStep ch frame).channels ch).phase)
    (p.addStep ch frame, host)).1 = q at walked settled ⊢
  refine ⟨⟨?_, ?_, ?_, ?_, ?_, ?_⟩, ?_⟩
  · exact walked.mixState
  · exact walked.gainSmoothCoeff
  · exact walked.clockHz
  · exact fun other different => (updateChannel_of_ne q different _).trans
      (walked.others other different)
  · rw [mixOut_glide, walked.gainSmoothCoeff, walked.volume, walked.gainSmoothed]
  · intro clock phase
    have forward : 0 ≤ ((p.addStep ch frame).channels ch).phase := by
      rw [later]
      exact add_nonneg phase (mul_nonneg (div_nonneg clock (Nat.cast_nonneg _)) elapsed)
    have kept : ((q.mixOut ch).2.channels ch).phase = (q.channels ch).phase := by
      simp only [mixOut, updateChannel_self]
    rw [kept]
    exact settled forward (Nat.lt_floor_add_one _)
  · have muted : q.channelMuted = p.channelMuted := congrArg MixState.channelMuted walked.mixState
    rw [mixOut_voice, muted]

/-- The share of a channel on one side. -/
def side (toSame toOpp : ℚ) (left : Bool) (ch : Fin 4) : ℚ :=
  if onLeft ch = left then toSame else toOpp

def played (p : Paula ℚ ℚ) (ch : Fin 4) : ℚ := p.voice ch * p.muteFactor ch

/-- What no channel changes for another. -/
structure SameDesk (p q : Paula ℚ ℚ) : Prop where
  interp : q.interp = p.interp
  stereoSep : q.stereoSep = p.stereoSep
  channelMuted : q.channelMuted = p.channelMuted
  stereoCurrent : q.stereoCurrent = p.stereoCurrent
  gainSmoothCoeff : q.gainSmoothCoeff = p.gainSmoothCoeff
  clockHz : q.clockHz = p.clockHz

theorem SameDesk.refl (p : Paula ℚ ℚ) : SameDesk p p :=
  ⟨rfl, rfl, rfl, rfl, rfl, rfl⟩

theorem SameDesk.trans {p q r : Paula ℚ ℚ} (first : SameDesk p q) (second : SameDesk q r) :
    SameDesk p r where
  interp := second.interp.trans first.interp
  stereoSep := second.stereoSep.trans first.stereoSep
  channelMuted := second.channelMuted.trans first.channelMuted
  stereoCurrent := second.stereoCurrent.trans first.stereoCurrent
  gainSmoothCoeff := second.gainSmoothCoeff.trans first.gainSmoothCoeff
  clockHz := second.clockHz.trans first.clockHz

/-- The channel is as it was. -/
structure Untouched (ch : Fin 4) (p q : Paula ℚ ℚ) : Prop where
  channel : q.channels ch = p.channels ch
  channelMixGain : q.channelMixGain ch = p.channelMixGain ch

/-- The channel has had its turn of a frame. -/
structure Mixes (ch : Fin 4) (p q : Paula ℚ ℚ) : Prop where
  channelMixGain : q.channelMixGain ch =
    Ramp.approach (1 / 96) (p.muteTarget ch) (p.channelMixGain ch)
  gainSmoothed : (q.channels ch).gainSmoothed =
    glide p.gainSmoothCoeff (volumeToGain (p.channels ch).volume) (p.channels ch).gainSmoothed
  phase : 0 ≤ p.clockHz → 0 ≤ (p.channels ch).phase → (q.channels ch).phase ∈ Set.Ico (0 : ℚ) 1

theorem Untouched.played {q : Paula ℚ ℚ} (same : Untouched ch p q) (desk : SameDesk p q) :
    q.played ch = p.played ch := by
  simp only [Paula.played, voice, muteFactor, resample, same.channel, same.channelMixGain,
    desk.interp, desk.channelMuted]

def withMixGain (p : Paula ℚ ℚ) (ch : Fin 4) (gain : ℚ) : Paula ℚ ℚ :=
  { p with channelMixGain := Function.update p.channelMixGain ch gain }

theorem pan_eq (toSame toOpp : ℚ) (ch : Fin 4) (mix : ℚ × ℚ) (mono : ℚ) (p : Paula ℚ ℚ) :
    pan toSame toOpp ch mix mono p =
      ((mix.1 + mono * Ramp.approach (1 / 96) (p.muteTarget ch) (p.channelMixGain ch) *
            side toSame toOpp true ch,
          mix.2 + mono * Ramp.approach (1 / 96) (p.muteTarget ch) (p.channelMixGain ch) *
            side toSame toOpp false ch),
        p.withMixGain ch (Ramp.approach (1 / 96) (p.muteTarget ch) (p.channelMixGain ch))) := by
  rw [← ramp_eq]
  cases left : onLeft ch
  · simp only [pan, side, left]
    rfl
  · simp only [pan, side, left]
    rfl

theorem mixChannel_mixes (toSame toOpp : ℚ) {frame : ℚ} (elapsed : 0 ≤ frame)
    (mix : ℚ × ℚ) (p : Paula ℚ ℚ) (host : σ) (ch : Fin 4) :
    Mixes ch p (mixChannel callbacks toSame toOpp frame ((mix, p), host) ch).1.2 ∧
      SameDesk p (mixChannel callbacks toSame toOpp frame ((mix, p), host) ch).1.2 ∧
      (∀ other, other ≠ ch →
        Untouched other p (mixChannel callbacks toSame toOpp frame ((mix, p), host) ch).1.2) ∧
      (mixChannel callbacks toSame toOpp frame ((mix, p), host) ch).1.1 =
        (mix.1 + (mixChannel callbacks toSame toOpp frame ((mix, p), host) ch).1.2.played ch *
            side toSame toOpp true ch,
          mix.2 + (mixChannel callbacks toSame toOpp frame ((mix, p), host) ch).1.2.played ch *
            side toSame toOpp false ch) := by
  have turn : mixChannel callbacks toSame toOpp frame ((mix, p), host) ch =
      (pan toSame toOpp ch mix (p.serviceChannel callbacks ch frame host).1.1
        (p.serviceChannel callbacks ch frame host).1.2,
        (p.serviceChannel callbacks ch frame host).2) := rfl
  obtain ⟨serves, out⟩ := serviceChannel_serves callbacks p ch host elapsed
  rw [turn, out]
  generalize (p.serviceChannel callbacks ch frame host).1.2 = q at serves ⊢
  have muted : q.channelMuted = p.channelMuted := congrArg MixState.channelMuted serves.mixState
  have gains : q.channelMixGain = p.channelMixGain :=
    congrArg MixState.channelMixGain serves.mixState
  have target : q.muteTarget ch = p.muteTarget ch := by rw [muteTarget, muteTarget, muted]
  rw [pan_eq]
  generalize approached : Ramp.approach (1 / 96) (q.muteTarget ch) (q.channelMixGain ch) = gain
  have own : (q.withMixGain ch gain).channelMixGain ch = gain := Function.update_self ..
  have factor : (if p.channelMuted ch = true then 0 else q.voice ch) * gain =
      (q.withMixGain ch gain).played ch := by
    have voice : (q.withMixGain ch gain).voice ch = q.voice ch := rfl
    have silent : (q.withMixGain ch gain).channelMuted = p.channelMuted := muted
    rw [Paula.played, muteFactor, own, voice, silent]
    split <;> simp
  refine ⟨⟨?_, serves.gainSmoothed, serves.phase⟩, ⟨?_, ?_, muted, ?_, ?_, ?_⟩, ?_, ?_⟩
  · rw [own, ← approached, target, gains]
  · exact congrArg MixState.interp serves.mixState
  · exact congrArg MixState.stereoSep serves.mixState
  · exact congrArg MixState.stereoCurrent serves.mixState
  · exact serves.gainSmoothCoeff
  · exact serves.clockHz
  · intro other different
    refine ⟨serves.others other different, ?_⟩
    exact (Function.update_of_ne different _ _).trans (congrFun gains other)
  · rw [factor]

theorem Mixes.after_turn {q r : Paula ℚ ℚ} (desk : SameDesk p q) (same : Untouched ch p q)
    (mixes : Mixes ch q r) : Mixes ch p r := by
  have target : q.muteTarget ch = p.muteTarget ch := by
    rw [muteTarget, muteTarget, desk.channelMuted]
  obtain ⟨gain, glides, phase⟩ := mixes
  rw [target, same.channelMixGain] at gain
  rw [desk.gainSmoothCoeff, same.channel] at glides
  rw [desk.clockHz, same.channel] at phase
  exact ⟨gain, glides, phase⟩

theorem Mixes.before_turn {q r : Paula ℚ ℚ} (mixes : Mixes ch p q) (same : Untouched ch q r) :
    Mixes ch p r := by
  obtain ⟨gain, glides, phase⟩ := mixes
  rw [← same.channelMixGain] at gain
  rw [← same.channel] at glides phase
  exact ⟨gain, glides, phase⟩

/-- The channel loop of `Paula::render`. -/
theorem turns_mix (toSame toOpp : ℚ) {frame : ℚ} (elapsed : 0 ≤ frame) (channels : List (Fin 4))
    (distinct : channels.Nodup) (mix : ℚ × ℚ) (p : Paula ℚ ℚ) (host : σ) :
    ∃ q later, channels.foldl (mixChannel callbacks toSame toOpp frame) ((mix, p), host) =
        (((mix.1 + (channels.map fun ch => q.played ch * side toSame toOpp true ch).sum,
          mix.2 + (channels.map fun ch => q.played ch * side toSame toOpp false ch).sum), q),
          later) ∧
      SameDesk p q ∧ (∀ ch ∈ channels, Mixes ch p q) ∧ ∀ ch, ch ∉ channels → Untouched ch p q := by
  induction channels generalizing mix p host with
  | nil =>
      refine ⟨p, host, by simp, .refl p, ?_, fun _ _ => ⟨rfl, rfl⟩⟩
      intro ch member
      cases member
  | cons ch rest ih =>
      obtain ⟨fresh, distinct⟩ := List.nodup_cons.mp distinct
      obtain ⟨mixes, desk, others, out⟩ :=
        mixChannel_mixes callbacks toSame toOpp elapsed mix p host ch
      rw [List.foldl_cons]
      generalize mixChannel callbacks toSame toOpp frame ((mix, p), host) ch = turn at *
      obtain ⟨⟨mix', p'⟩, host'⟩ := turn
      dsimp only at mixes desk others out
      obtain ⟨q, later, folded, desk', mixed, untouched⟩ := ih distinct mix' p' host'
      refine ⟨q, later, ?_, desk.trans desk', ?_, ?_⟩
      · rw [folded, out, List.map_cons, List.map_cons, List.sum_cons, List.sum_cons,
          (untouched ch fresh).played desk', add_assoc, add_assoc]
      · intro c member
        rcases List.mem_cons.mp member with rfl | member
        · exact mixes.before_turn (untouched c fresh)
        · have different : c ≠ ch := fun same => fresh (same ▸ member)
          exact (mixed c member).after_turn desk (others c different)
      · intro c missing
        rw [List.mem_cons, not_or] at missing
        have first := others c missing.1
        have second := untouched c missing.2
        exact ⟨second.channel.trans first.channel,
          second.channelMixGain.trans first.channelMixGain⟩

/-- The bleed of a channel into the opposite side. -/
def toOpp (p : Paula ℚ ℚ) : ℚ := (1 - p.stereoCurrent) * (1 / 2)

/-- One side of the mix. -/
def sideMix (p : Paula ℚ ℚ) (left : Bool) : ℚ :=
  ((List.finRange 4).map fun ch => p.played ch * side (1 - p.toOpp) p.toOpp left ch).sum

/-- `1.0f / (2 ms)` of the volume glide, as the source rounds it. -/
def glideCoeff : ℚ := 103626011 / 10000000000

/-- One frame of the mixer. -/
structure Renders (p q : Paula ℚ ℚ) (out : ℚ × ℚ) : Prop where
  stereoCurrent : q.stereoCurrent = Ramp.approach (1 / 96) p.stereoSep p.stereoCurrent
  stereoSep : q.stereoSep = p.stereoSep
  channelMuted : q.channelMuted = p.channelMuted
  clockHz : q.clockHz = p.clockHz
  channelMixGain : ∀ ch, q.channelMixGain ch =
    Ramp.approach (1 / 96) (p.muteTarget ch) (p.channelMixGain ch)
  gainSmoothed : ∀ ch, (q.channels ch).gainSmoothed =
    glide glideCoeff (volumeToGain (p.channels ch).volume) (p.channels ch).gainSmoothed
  phase : ∀ ch, 0 ≤ p.clockHz → 0 ≤ (p.channels ch).phase →
    (q.channels ch).phase ∈ Set.Ico (0 : ℚ) 1
  out : out = (q.sideMix true, q.sideMix false)

theorem render_renders (p : Paula ℚ ℚ) (host : σ) :
    Renders p (p.render callbacks host).1.2 (p.render callbacks host).1.1 := by
  have begun : p.beginFrame.stereoCurrent = Ramp.approach (1 / 96) p.stereoSep p.stereoCurrent :=
    ramp_eq p.stereoSep p.stereoCurrent
  obtain ⟨q, later, folded, desk, mixed, -⟩ := turns_mix callbacks (1 - p.beginFrame.toOpp)
    p.beginFrame.toOpp (by norm_num : (0 : ℚ) ≤ 1 / 48000) (List.finRange 4) (List.nodup_finRange 4)
    (0, 0) p.beginFrame host
  have rendered : p.render callbacks host = (List.finRange 4).foldl (mixChannel callbacks
      (1 - p.beginFrame.toOpp) p.beginFrame.toOpp (1 / 48000)) (((0, 0), p.beginFrame), host) := rfl
  have bleed : q.toOpp = p.beginFrame.toOpp := by rw [toOpp, toOpp, desk.stereoCurrent]
  rw [rendered, folded]
  refine ⟨desk.stereoCurrent.trans begun, desk.stereoSep, desk.channelMuted, desk.clockHz,
    fun ch => (mixed ch (List.mem_finRange ch)).channelMixGain,
    fun ch => (mixed ch (List.mem_finRange ch)).gainSmoothed,
    fun ch => (mixed ch (List.mem_finRange ch)).phase, ?_⟩
  rw [sideMix, sideMix, bleed, zero_add, zero_add]

end Mix

end Paula

end Paulastorm.Core
