import Mathlib.Data.BitVec

namespace Paulastorm.Library.Word

/-! Bit facts about machine words: masks that split a word in two parts, and
words that carry a small tag in their low two bits. -/

theorem or_and_distrib (first second mask : UInt16) :
    (first ||| second) &&& mask = (first &&& mask) ||| (second &&& mask) := by
  rw [← UInt16.toNat_inj]
  simp only [UInt16.toNat_and, UInt16.toNat_or, Nat.and_or_distrib_right]

theorem or_and_distrib32 (first second mask : UInt32) :
    (first ||| second) &&& mask = (first &&& mask) ||| (second &&& mask) := by
  rw [← UInt32.toNat_inj]
  simp only [UInt32.toNat_and, UInt32.toNat_or, Nat.and_or_distrib_right]

theorem or_and_self32 (word mask : UInt32) : (word ||| mask) &&& mask = mask := by
  rw [← UInt32.toBitVec_inj]
  apply BitVec.eq_of_getLsbD_eq
  intro index _
  simp only [UInt32.toBitVec_and, UInt32.toBitVec_or, BitVec.getLsbD_and, BitVec.getLsbD_or]
  cases word.toBitVec.getLsbD index <;> cases mask.toBitVec.getLsbD index <;> rfl

/-- A flag is raised in a disjunction when it is raised on either side. -/
theorem or_and_ne_zero (first second mask : UInt8) :
    ((first ||| second) &&& mask != 0) = (first &&& mask != 0 || second &&& mask != 0) := by
  have distributed : (first ||| second) &&& mask = (first &&& mask) ||| (second &&& mask) := by
    rw [← UInt8.toNat_inj]
    simp only [UInt8.toNat_and, UInt8.toNat_or, Nat.and_or_distrib_right]
  have zero : ∀ left right : UInt8, (left ||| right = 0) ↔ left = 0 ∧ right = 0 := by
    intro left right
    simp only [← UInt8.toNat_inj, UInt8.toNat_or, UInt8.toNat_zero, Nat.or_eq_zero_iff]
  rw [distributed, Bool.eq_iff_iff]
  simp only [bne_iff_ne, ne_eq, Bool.or_eq_true, zero, not_and_or]

/-- A word without its top bit is the word masked to fifteen bits. -/
theorem and_low_of_top_clear {word : UInt16} (clear : word &&& 0x8000 = 0) :
    word &&& 0x7fff = word := by
  have split : (word &&& 0x7fff) ||| (word &&& 0x8000) = word := by
    rw [UInt16.and_comm, UInt16.and_comm word, ← or_and_distrib]
    change (-1 : UInt16) &&& word = word
    exact UInt16.neg_one_and
  rwa [clear, UInt16.or_zero] at split

theorem toUInt32_and_not (first second : UInt16) :
    (first &&& ~~~second).toUInt32 = first.toUInt32 &&& ~~~second.toUInt32 := by
  rw [← UInt32.toBitVec_inj]
  apply BitVec.eq_of_getLsbD_eq
  intro index inside
  simp only [UInt16.toBitVec_toUInt32, UInt16.toBitVec_and, UInt16.toBitVec_not,
    UInt32.toBitVec_and, UInt32.toBitVec_not, BitVec.getLsbD_setWidth, BitVec.getLsbD_and,
    BitVec.getLsbD_not, inside, decide_true, Bool.true_and]
  by_cases low : index < 16
  · simp [low]
  · simp [low, BitVec.getLsbD_of_ge _ _ (Nat.le_of_not_lt low)]

/-- Masking away the low bits is a pair of shifts. -/
theorem and_not_low {width : Nat} (word : BitVec width) (count : Nat) :
    word &&& ~~~(BitVec.setWidth width (BitVec.allOnes count)) = (word >>> count) <<< count := by
  apply BitVec.eq_of_getElem_eq
  intro index inside
  rw [BitVec.getElem_and, BitVec.getElem_not, BitVec.getElem_setWidth, BitVec.getLsbD_allOnes]
  by_cases low : index < count
  · simp [low]
  · have shifted : count + (index - count) = index := by omega
    simp [low, shifted, BitVec.getLsbD_eq_getElem inside]

/-- A mask of adjacent bits cuts a window out of a word. -/
theorem and_window (word count offset : Nat) :
    word &&& ((2 ^ count - 1) * 2 ^ offset) = word / 2 ^ offset % 2 ^ count * 2 ^ offset := by
  apply Nat.eq_of_testBit_eq
  intro index
  rw [Nat.testBit_and, Nat.testBit_mul_two_pow, Nat.testBit_mul_two_pow, Nat.testBit_two_pow_sub_one,
    Nat.testBit_mod_two_pow, Nat.testBit_div_two_pow]
  by_cases above : offset ≤ index
  · have same : index - offset + offset = index := by omega
    simp [above, same, Bool.and_comm]
  · simp [above]

theorem low_half_toNat (word : UInt32) :
    (word &&& (0x0000ffff : UInt32)).toNat = word.toNat % 2 ^ 16 := by
  rw [UInt32.toNat_and]
  exact Nat.and_two_pow_sub_one_eq_mod _ 16

theorem high_half_toNat (word : UInt32) :
    (word &&& (0xffff0000 : UInt32)).toNat = 2 ^ 16 * (word.toNat / 2 ^ 16) := by
  have bounded := word.toNat_lt
  have shifted : word &&& (0xffff0000 : UInt32) = (word >>> (16 : UInt32)) <<< (16 : UInt32) := by
    rw [← UInt32.toBitVec_inj]
    exact and_not_low word.toBitVec 16
  rw [shifted, UInt32.toNat_shiftLeft, UInt32.toNat_shiftRight, Nat.shiftLeft_eq,
    Nat.shiftRight_eq_div_pow]
  change word.toNat / 2 ^ 16 * 2 ^ 16 % 2 ^ 32 = _
  omega

/-- A mask of sixteen bits sees the low half-word only. -/
theorem and_narrow_mask (value : UInt64) (mask : UInt16) :
    value &&& mask.toUInt64 = (value.toUInt16 &&& mask).toUInt64 := by
  rw [← UInt64.toNat_inj, UInt64.toNat_and, UInt16.toNat_toUInt64, UInt16.toNat_toUInt64,
    UInt16.toNat_and, UInt64.toNat_toUInt16]
  apply Nat.eq_of_testBit_eq
  intro index
  rw [Nat.testBit_and, Nat.testBit_and, Nat.testBit_mod_two_pow]
  by_cases low : index < 16
  · simp [low]
  · have above : mask.toNat.testBit index = false :=
      Nat.testBit_lt_two_pow
        (mask.toNat_lt.trans_le (Nat.pow_le_pow_right (by decide) (not_lt.mp low)))
    rw [above, Bool.and_false, Bool.and_false]

theorem and_narrow_eq_iff (value : UInt64) (mask bits : UInt16) :
    value &&& mask.toUInt64 = bits.toUInt64 ↔ value.toUInt16 &&& mask = bits := by
  rw [and_narrow_mask]
  exact UInt16.toUInt64_inj

section Tagged

variable {word tag : UInt64}

theorem tag_toNat (word : UInt64) : (word &&& 3).toNat = word.toNat % 4 := by
  rw [UInt64.toNat_and]
  exact Nat.and_two_pow_sub_one_eq_mod _ 2

theorem clear_tag_toNat (word : UInt64) :
    (word &&& ~~~(3 : UInt64)).toNat = word.toNat / 4 * 4 := by
  have bounded := word.toNat_lt
  have shifted : word &&& ~~~(3 : UInt64) = (word >>> 2) <<< 2 := by
    rw [← UInt64.toBitVec_inj]
    exact and_not_low word.toBitVec 2
  rw [shifted]
  simp [Nat.shiftRight_eq_div_pow, Nat.shiftLeft_eq]
  omega

/-- Replacing the tag keeps the upper sixty-two bits. -/
theorem set_tag_toNat (small : tag.toNat < 4) :
    ((word &&& ~~~(3 : UInt64)) ||| tag).toNat = word.toNat / 4 * 4 + tag.toNat := by
  rw [UInt64.toNat_or, clear_tag_toNat, Nat.mul_comm]
  exact (Nat.two_pow_add_eq_or_of_lt (i := 2) small _).symm

/-- A word whose tag is zero takes a tag by disjunction. -/
theorem or_tag_toNat (clear : word &&& 3 = 0) (small : tag.toNat < 4) :
    (word ||| tag).toNat = word.toNat + tag.toNat := by
  have untagged : word.toNat % 4 = 0 := by rw [← tag_toNat, clear]; rfl
  have aligned : word.toNat = 2 ^ 2 * (word.toNat / 4) := by omega
  rw [UInt64.toNat_or, aligned]
  exact (Nat.two_pow_add_eq_or_of_lt (i := 2) small _).symm

end Tagged

end Paulastorm.Library.Word
