import Paulastorm.Core.Mix

namespace Paulastorm.Core

/-! Every gain of the core stays between silence and unity, so the mix stays below two voices. -/

open Library

/-- Between silence and unity. -/
abbrev unit : Set ℚ := Set.Icc 0 1

theorem volumeToGain_mem (vol : UInt16) : (volumeToGain vol : ℚ) ∈ unit := by
  have clamped : (if vol < 64 then vol else 64).toNat ≤ 64 := by
    split
    next below => exact Nat.le_of_lt (UInt16.lt_iff_toNat_lt.mp below)
    next => exact Nat.le_refl 64
  change ((if vol < 64 then vol else 64).toNat : ℚ) / 64 ∈ unit
  have cast : ((if vol < 64 then vol else 64).toNat : ℚ) ≤ 64 := by exact_mod_cast clamped
  constructor
  · positivity
  · linarith

theorem sampleToFloat_abs (sample : Int8) : |(sampleToFloat sample : ℚ)| ≤ 1 := by
  change |(sample.toInt : ℚ) / 128| ≤ 1
  have low : (-128 : ℚ) ≤ sample.toInt := by exact_mod_cast sample.le_toInt
  have high : (sample.toInt : ℚ) ≤ 127 := by exact_mod_cast Int.le_of_lt_add_one sample.toInt_lt
  rw [abs_le]
  constructor <;> linarith

namespace Paula

/-- Between two points and their values. -/
theorem blend_abs {a b weight bound : ℚ} (first : |a| ≤ bound) (second : |b| ≤ bound)
    (share : weight ∈ unit) : |a + weight * (b - a)| ≤ bound := by
  obtain ⟨low, high⟩ := share
  rw [abs_le] at *
  constructor <;> nlinarith

theorem resample_abs {p : Paula ℚ ℚ} {ch : Fin 4} (phase : (p.channels ch).phase ∈ unit) :
    |p.resample ch| ≤ 1 := by
  cases interp : p.interp with
  | linear =>
      have value : p.resample ch = sampleToFloat (p.channels ch).curOut + (p.channels ch).phase *
          (sampleToFloat (p.channels ch).nextOut - sampleToFloat (p.channels ch).curOut) := by
        simp only [resample, interp]
        rfl
      rw [value]
      exact blend_abs (sampleToFloat_abs _) (sampleToFloat_abs _) phase
  | nearest =>
      simp only [resample, interp]
      exact sampleToFloat_abs _

theorem glide_mem {coeff target gain : ℚ} (share : coeff ∈ unit) (target_mem : target ∈ unit)
    (gain_mem : gain ∈ unit) : glide coeff target gain ∈ unit := by
  obtain ⟨low, high⟩ := share
  obtain ⟨lowTarget, highTarget⟩ := target_mem
  obtain ⟨lowGain, highGain⟩ := gain_mem
  unfold glide
  constructor <;> nlinarith

/-- Every gain is between silence and unity, and every phase below a sample. -/
structure Bounded (p : Paula ℚ ℚ) : Prop where
  stereoSep : p.stereoSep ∈ unit
  stereoCurrent : p.stereoCurrent ∈ unit
  channelMixGain : ∀ ch, p.channelMixGain ch ∈ unit
  gainSmoothed : ∀ ch, (p.channels ch).gainSmoothed ∈ unit
  phase : ∀ ch, (p.channels ch).phase ∈ Set.Ico (0 : ℚ) 1
  clockHz : 0 ≤ p.clockHz

variable {p q : Paula ℚ ℚ} {ch : Fin 4} {out : ℚ × ℚ}

theorem new_bounded {clockHz : ℚ} (positive : 0 ≤ clockHz) : (new clockHz : Paula ℚ ℚ).Bounded where
  stereoSep := ⟨by change (0 : ℚ) ≤ 85 / 100; norm_num, by change (85 / 100 : ℚ) ≤ 1; norm_num⟩
  stereoCurrent := ⟨zero_le_one, le_refl (1 : ℚ)⟩
  channelMixGain _ := ⟨zero_le_one, le_refl (1 : ℚ)⟩
  gainSmoothed _ := ⟨le_refl (0 : ℚ), zero_le_one⟩
  phase _ := ⟨le_refl (0 : ℚ), zero_lt_one⟩
  clockHz := positive

theorem Bounded.reset (bounded : p.Bounded) : p.reset.Bounded :=
  { bounded with
    gainSmoothed := fun _ => ⟨le_refl (0 : ℚ), zero_le_one⟩
    phase := fun _ => ⟨le_refl (0 : ℚ), zero_lt_one⟩ }

theorem Bounded.setStereoSeparation (bounded : p.Bounded) (s : ℚ) :
    (p.setStereoSeparation s).Bounded := by
  refine { bounded with stereoSep := ?_ }
  change (if decide (s < 0) = true then 0 else if decide (1 < s) = true then 1 else s) ∈ unit
  simp only [decide_eq_true_eq]
  split_ifs with below above
  · exact ⟨le_refl 0, zero_le_one⟩
  · exact ⟨zero_le_one, le_refl 1⟩
  · exact ⟨not_lt.mp below, not_lt.mp above⟩

theorem Bounded.setInterpolation (bounded : p.Bounded) (mode : Interp) :
    (p.setInterpolation mode).Bounded := { bounded with }

theorem retrigger_phase (dmaCon : UInt16) (ch : Fin 4) (c : Channel ℚ ℚ) :
    (retrigger dmaCon ch c).gainSmoothed = c.gainSmoothed ∧
      ((retrigger dmaCon ch c).phase = c.phase ∨ (retrigger dmaCon ch c).phase = 0) := by
  unfold retrigger
  split_ifs
  · exact ⟨rfl, .inr rfl⟩
  · exact ⟨rfl, .inl rfl⟩
  · exact ⟨rfl, .inl rfl⟩

theorem Bounded.updateChannel (bounded : p.Bounded) (ch : Fin 4) {c : Channel ℚ ℚ}
    (gain : c.gainSmoothed = (p.channels ch).gainSmoothed)
    (phase : c.phase = (p.channels ch).phase) : (p.updateChannel ch c).Bounded := by
  refine { bounded with gainSmoothed := ?_, phase := ?_ }
  · intro other
    by_cases own : other = ch
    · subst own
      rw [updateChannel_self, gain]
      exact bounded.gainSmoothed other
    · rw [updateChannel_of_ne p own]
      exact bounded.gainSmoothed other
  · intro other
    by_cases own : other = ch
    · subst own
      rw [updateChannel_self, phase]
      exact bounded.phase other
    · rw [updateChannel_of_ne p own]
      exact bounded.phase other

theorem Bounded.write (bounded : p.Bounded) (value : UInt16) (reg : Reg) :
    (p.write value reg).Bounded := by
  cases reg with
  | dmacon =>
      refine { bounded with gainSmoothed := fun ch => ?_, phase := fun ch => ?_ }
      · rw [Paula.write, (retrigger_phase _ ch _).1]
        exact bounded.gainSmoothed ch
      · rcases (retrigger_phase (setClear p.dmaCon value) ch (p.channels ch)).2 with same | restart
        · rw [Paula.write, same]
          exact bounded.phase ch
        · rw [Paula.write, restart]
          exact ⟨le_refl 0, zero_lt_one⟩
  | channel ch reg =>
      cases reg with
      | dat => exact bounded
      | _ => exact bounded.updateChannel ch rfl rfl
  | _ => exact { bounded with }

theorem Bounded.writeRegister16 (bounded : p.Bounded) (addr : UInt32) (value : UInt16) :
    (p.writeRegister16 addr value).Bounded := by
  rw [writeRegister16_eq]
  cases decode (addr &&& 0xfff).toNat with
  | none => exact bounded
  | some reg => exact bounded.write value reg

theorem muteTarget_mem (p : Paula ℚ ℚ) (ch : Fin 4) : p.muteTarget ch ∈ unit := by
  unfold muteTarget
  split
  · exact ⟨le_refl 0, zero_le_one⟩
  · exact ⟨zero_le_one, le_refl 1⟩

theorem Bounded.render (bounded : p.Bounded) (renders : Renders p q out) : q.Bounded where
  stereoSep := renders.stereoSep ▸ bounded.stereoSep
  stereoCurrent := by
    rw [renders.stereoCurrent]
    exact Ramp.approach_mem (by norm_num) bounded.stereoCurrent bounded.stereoSep
  channelMixGain ch := by
    rw [renders.channelMixGain]
    exact Ramp.approach_mem (by norm_num) (bounded.channelMixGain ch) (muteTarget_mem p ch)
  gainSmoothed ch := by
    rw [renders.gainSmoothed]
    refine glide_mem ?_ (volumeToGain_mem _) (bounded.gainSmoothed ch)
    unfold glideCoeff
    constructor <;> norm_num
  phase ch := renders.phase ch bounded.clockHz (bounded.phase ch).1
  clockHz := renders.clockHz ▸ bounded.clockHz

theorem Bounded.played_abs (bounded : p.Bounded) (ch : Fin 4) : |p.played ch| ≤ 1 := by
  have factor : p.muteFactor ch ∈ unit := by
    unfold muteFactor
    split
    · exact ⟨le_refl 0, zero_le_one⟩
    · exact bounded.channelMixGain ch
  have gain := bounded.gainSmoothed ch
  have sample := resample_abs ⟨(bounded.phase ch).1, (bounded.phase ch).2.le⟩
  rw [played, voice, abs_mul, abs_mul, abs_of_nonneg gain.1, abs_of_nonneg factor.1]
  exact mul_le_one₀ (mul_le_one₀ sample gain.1 gain.2) factor.1 factor.2

theorem weighted_abs {value weight : ℚ} (value_abs : |value| ≤ 1) (positive : 0 ≤ weight) :
    |value * weight| ≤ weight := by
  rw [abs_mul, abs_of_nonneg positive]
  exact mul_le_of_le_one_left positive value_abs

/-- Two channels on each side, and what one side loses the other gets. -/
theorem Bounded.sideMix_abs (bounded : p.Bounded) (left : Bool) : |p.sideMix left| ≤ 2 := by
  obtain ⟨low, high⟩ := bounded.stereoCurrent
  have opposite : 0 ≤ p.toOpp := mul_nonneg (by linarith) (by norm_num)
  have same : 0 ≤ 1 - p.toOpp := by
    rw [toOpp]
    linarith
  have weight : ∀ ch, 0 ≤ side (1 - p.toOpp) p.toOpp left ch := by
    intro ch
    unfold side
    split
    · exact same
    · exact opposite
  have shares : side (1 - p.toOpp) p.toOpp left 0 + side (1 - p.toOpp) p.toOpp left 1 +
      side (1 - p.toOpp) p.toOpp left 2 + side (1 - p.toOpp) p.toOpp left 3 = 2 := by
    cases left
    · change p.toOpp + (1 - p.toOpp) + (1 - p.toOpp) + p.toOpp = 2
      ring
    · change 1 - p.toOpp + p.toOpp + p.toOpp + (1 - p.toOpp) = 2
      ring
  have channels : List.finRange 4 = [0, 1, 2, 3] := rfl
  have term : ∀ ch, |p.played ch * side (1 - p.toOpp) p.toOpp left ch| ≤
      side (1 - p.toOpp) p.toOpp left ch :=
    fun ch => weighted_abs (bounded.played_abs ch) (weight ch)
  have first := abs_le.mp (term 0)
  have second := abs_le.mp (term 1)
  have third := abs_le.mp (term 2)
  have fourth := abs_le.mp (term 3)
  rw [sideMix, channels]
  simp only [List.map_cons, List.map_nil, List.sum_cons, List.sum_nil]
  rw [abs_le]
  constructor <;> linarith [first.1, first.2, second.1, second.2, third.1, third.2, fourth.1,
    fourth.2]

end Paula

end Paulastorm.Core
