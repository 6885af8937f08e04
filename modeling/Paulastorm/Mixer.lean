import Paulastorm.Library.Word
import Paulastorm.Probe

namespace Paulastorm.Probe

/-! The command words of the mixer mailbox. -/

/-- `PM_MASTER`, `PM_STEREO`, `PM_LINEAR` and `PM_MUTE` of a mailbox word. -/
@[ext] structure MixerFields where
  master : UInt32
  stereo : UInt32
  linear : UInt32
  mute : UInt32
deriving DecidableEq, Repr

def mixerFields (word : UInt32) : MixerFields where
  master := word &&& (127 : UInt32)
  stereo := (word >>> 7) &&& (127 : UInt32)
  linear := (word >>> 14) &&& (1 : UInt32)
  mute := (word >>> 15) &&& (15 : UInt32)

def MixerFields.pack (fields : MixerFields) : UInt32 :=
  mixerPack fields.master fields.stereo fields.linear fields.mute

/-- The settings a control panel can show. -/
structure MixerFields.Valid (fields : MixerFields) : Prop where
  master : fields.master ≤ 100
  stereo : fields.stereo ≤ 100
  linear : fields.linear ≤ 1
  mute : fields.mute ≤ 15

theorem and_low_toNat (word mask : UInt32) (count : Nat) (low : mask.toNat = 2 ^ count - 1) :
    (word &&& mask).toNat = word.toNat % 2 ^ count := by
  rw [UInt32.toNat_and, low]
  exact Nat.and_two_pow_sub_one_eq_mod _ count

theorem mixerFields_toNat (word : UInt32) :
    (mixerFields word).master.toNat = word.toNat % 2 ^ 7 ∧
      (mixerFields word).stereo.toNat = word.toNat / 2 ^ 7 % 2 ^ 7 ∧
      (mixerFields word).linear.toNat = word.toNat / 2 ^ 14 % 2 ^ 1 ∧
      (mixerFields word).mute.toNat = word.toNat / 2 ^ 15 % 2 ^ 4 := by
  have shifted : ∀ count : UInt32, (word >>> count).toNat = word.toNat / 2 ^ (count.toNat % 32) := by
    intro count
    rw [UInt32.toNat_shiftRight, Nat.shiftRight_eq_div_pow]
  refine ⟨and_low_toNat _ _ 7 rfl, ?_, ?_, ?_⟩
  · exact (and_low_toNat _ _ 7 rfl).trans (congrArg (· % 2 ^ 7) (shifted 7))
  · exact (and_low_toNat _ _ 1 rfl).trans (congrArg (· % 2 ^ 1) (shifted 14))
  · exact (and_low_toNat _ _ 4 rfl).trans (congrArg (· % 2 ^ 4) (shifted 15))

/-- A packed word is the sum of its fields in their places. -/
theorem mixerPack_toNat (master stereo linear mute : UInt32) :
    (mixerPack master stereo linear mute).toNat = 2 ^ 31 + mute.toNat % 2 ^ 4 * 2 ^ 15 +
      linear.toNat % 2 ^ 1 * 2 ^ 14 + stereo.toNat % 2 ^ 7 * 2 ^ 7 + master.toNat % 2 ^ 7 := by
  have place : ∀ (field : Nat) (count : Nat) (rest : Nat), rest < 2 ^ count →
      field * 2 ^ count ||| rest = field * 2 ^ count + rest := by
    intro field count rest small
    rw [Nat.mul_comm, ← Nat.two_pow_add_eq_or_of_lt small]
  have shifted : ∀ (field : UInt32) (count : UInt32), field.toNat * 2 ^ (count.toNat % 32) < 2 ^ 32 →
      (field <<< count).toNat = field.toNat * 2 ^ (count.toNat % 32) := by
    intro field count fits
    rw [UInt32.toNat_shiftLeft, Nat.shiftLeft_eq, Nat.mod_eq_of_lt fits]
  have masterLow := and_low_toNat master 127 7 rfl
  have stereoLow := and_low_toNat stereo 127 7 rfl
  have linearLow := and_low_toNat linear 1 1 rfl
  have muteLow := and_low_toNat mute 15 4 rfl
  have m := Nat.mod_lt master.toNat (show 0 < 2 ^ 7 by decide)
  have s := Nat.mod_lt stereo.toNat (show 0 < 2 ^ 7 by decide)
  have l := Nat.mod_lt linear.toNat (show 0 < 2 ^ 1 by decide)
  have u := Nat.mod_lt mute.toNat (show 0 < 2 ^ 4 by decide)
  have stereoPlace := shifted (stereo &&& 127) 7 (by rw [stereoLow]; change _ * 2 ^ 7 < _; omega)
  have linearPlace := shifted (linear &&& 1) 14 (by rw [linearLow]; change _ * 2 ^ 14 < _; omega)
  have mutePlace := shifted (mute &&& 15) 15 (by rw [muteLow]; change _ * 2 ^ 15 < _; omega)
  have ordered : mixerPack master stereo linear mute = pmValid ||| (((mute &&& (15 : UInt32)) <<< 15) |||
      (((linear &&& (1 : UInt32)) <<< 14) ||| (((stereo &&& (127 : UInt32)) <<< 7) |||
        (master &&& (127 : UInt32))))) := by
    have reversed : ∀ e a b c d : UInt32,
        e ||| a ||| b ||| c ||| d = e ||| (d ||| (c ||| (b ||| a))) := by
      intro e a b c d
      rw [UInt32.or_assoc, UInt32.or_assoc, UInt32.or_assoc, UInt32.or_comm a, UInt32.or_comm b,
        UInt32.or_comm c, UInt32.or_assoc, UInt32.or_assoc]
    exact reversed _ _ _ _ _
  rw [ordered]
  simp only [UInt32.toNat_or, stereoPlace, linearPlace, mutePlace, masterLow, stereoLow, linearLow,
    muteLow]
  change 1 * 2 ^ 31 ||| (mute.toNat % 2 ^ 4 * 2 ^ 15 ||| (linear.toNat % 2 ^ 1 * 2 ^ 14 |||
    (stereo.toNat % 2 ^ 7 * 2 ^ 7 ||| master.toNat % 2 ^ 7))) = _
  rw [place _ 7 _ m, place _ 14 _ (by omega), place _ 15 _ (by omega), place _ 31 _ (by omega)]
  omega

/-- The words that `paula_mixer_valid` accepts. -/
theorem mixerValid_iff (word : UInt32) : mixerValid word = true ↔
    2 ^ 31 ≤ word.toNat ∧ word.toNat < 2 ^ 31 + 2 ^ 19 ∧ word.toNat % 2 ^ 7 ≤ 100 ∧
      word.toNat / 2 ^ 7 % 2 ^ 7 ≤ 100 := by
  have bounded := word.toNat_lt
  obtain ⟨master, stereo, _, _⟩ := mixerFields_toNat word
  have masterLow : (word &&& (127 : UInt32) ≤ 100) ↔ word.toNat % 2 ^ 7 ≤ 100 := by
    rw [UInt32.le_iff_toNat_le, ← master]
    rfl
  have stereoLow : ((word >>> 7) &&& (127 : UInt32) ≤ 100) ↔ word.toNat / 2 ^ 7 % 2 ^ 7 ≤ 100 := by
    rw [UInt32.le_iff_toNat_le, ← stereo]
    rfl
  have reserved : (word &&& ~~~pmAllowed = 0) ↔ word.toNat % 2 ^ 31 < 2 ^ 19 := by
    rw [← UInt32.toNat_inj, UInt32.toNat_and]
    change word.toNat &&& ((2 ^ 12 - 1) * 2 ^ 19) = 0 ↔ _
    rw [Library.Word.and_window]
    omega
  have valid : (word &&& pmValid ≠ 0) ↔ 2 ^ 31 ≤ word.toNat := by
    rw [ne_eq, ← UInt32.toNat_inj, UInt32.toNat_and]
    change ¬ word.toNat &&& ((2 ^ 1 - 1) * 2 ^ 31) = 0 ↔ _
    rw [Library.Word.and_window]
    omega
  simp only [mixerValid, Bool.and_eq_true, beq_iff_eq, bne_iff_ne, decide_eq_true_eq, reserved,
    valid, masterLow, stereoLow]
  omega

/-- Packing the fields of a valid word gives the word back. -/
theorem pack_mixerFields {word : UInt32} (valid : mixerValid word = true) :
    (mixerFields word).pack = word := by
  obtain ⟨master, stereo, linear, mute⟩ := mixerFields_toNat word
  have bounds := (mixerValid_iff word).mp valid
  rw [← UInt32.toNat_inj, MixerFields.pack, mixerPack_toNat, master, stereo, linear, mute]
  omega

theorem mixerFields_valid {word : UInt32} (valid : mixerValid word = true) :
    (mixerFields word).Valid := by
  obtain ⟨master, stereo, linear, mute⟩ := mixerFields_toNat word
  have bounds := (mixerValid_iff word).mp valid
  refine ⟨?_, ?_, ?_, ?_⟩ <;> rw [UInt32.le_iff_toNat_le]
  · exact master ▸ bounds.2.2.1
  · exact stereo ▸ bounds.2.2.2
  · rw [linear]
    exact Nat.le_of_lt_succ (Nat.mod_lt _ (by decide))
  · rw [mute]
    exact Nat.le_of_lt_succ (Nat.mod_lt _ (by decide))

theorem unpack_places {master stereo linear mute : Nat} (m : master < 2 ^ 7) (s : stereo < 2 ^ 7)
    (l : linear < 2 ^ 1) (u : mute < 2 ^ 4) :
    let word := 2 ^ 31 + mute * 2 ^ 15 + linear * 2 ^ 14 + stereo * 2 ^ 7 + master
    word % 2 ^ 7 = master ∧ word / 2 ^ 7 % 2 ^ 7 = stereo ∧ word / 2 ^ 14 % 2 ^ 1 = linear ∧
      word / 2 ^ 15 % 2 ^ 4 = mute ∧ word < 2 ^ 31 + 2 ^ 19 := by
  intro word
  refine ⟨?_, ?_, ?_, ?_, ?_⟩ <;> simp only [word] <;> omega

/-- Settings in range pack to a valid word that decodes to them. -/
theorem MixerFields.Valid.pack {fields : MixerFields} (valid : fields.Valid) :
    mixerValid fields.pack = true ∧ mixerFields fields.pack = fields := by
  have masterMax : fields.master.toNat ≤ 100 := UInt32.le_iff_toNat_le.mp valid.master
  have stereoMax : fields.stereo.toNat ≤ 100 := UInt32.le_iff_toNat_le.mp valid.stereo
  have linearMax : fields.linear.toNat ≤ 1 := UInt32.le_iff_toNat_le.mp valid.linear
  have muteMax : fields.mute.toNat ≤ 15 := UInt32.le_iff_toNat_le.mp valid.mute
  have value : fields.pack.toNat = _ :=
    mixerPack_toNat fields.master fields.stereo fields.linear fields.mute
  rw [Nat.mod_eq_of_lt (show fields.mute.toNat < 2 ^ 4 by omega),
    Nat.mod_eq_of_lt (show fields.linear.toNat < 2 ^ 1 by omega),
    Nat.mod_eq_of_lt (show fields.stereo.toNat < 2 ^ 7 by omega),
    Nat.mod_eq_of_lt (show fields.master.toNat < 2 ^ 7 by omega)] at value
  obtain ⟨m, s, l, u, top⟩ := unpack_places (show fields.master.toNat < 2 ^ 7 by omega)
    (show fields.stereo.toNat < 2 ^ 7 by omega) (show fields.linear.toNat < 2 ^ 1 by omega)
    (show fields.mute.toNat < 2 ^ 4 by omega)
  rw [← value] at m s l u top
  obtain ⟨master, stereo, linear, mute⟩ := mixerFields_toNat fields.pack
  refine ⟨(mixerValid_iff _).mpr ⟨by omega, top, by omega, by omega⟩, ?_⟩
  refine MixerFields.ext ?_ ?_ ?_ ?_ <;> rw [← UInt32.toNat_inj]
  · exact master.trans m
  · exact stereo.trans s
  · exact linear.trans l
  · exact mute.trans u

end Paulastorm.Probe
