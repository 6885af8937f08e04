import Paulastorm.Library.OnesComplement
import Mathlib.Data.UInt
import Mathlib.Logic.Function.Basic
import Mathlib.Tactic.IntervalCases

namespace Paulastorm.Boot

/-! The checksum of a ROM image (`amiga_checksum` in `aarch64/start.c`). -/

open Library

/-- The big-endian long at an offset. -/
def longAt (mem : Nat → UInt8) (i : Nat) : UInt32 :=
  ((mem (i + 0)).toUInt32 <<< 24) + ((mem (i + 1)).toUInt32 <<< 16) +
    ((mem (i + 2)).toUInt32 <<< 8) + ((mem (i + 3)).toUInt32 <<< 0)

/-- The variables of the loop. -/
structure Summing where
  oldcksum : UInt32
  cksum : UInt32
  prevck : UInt32
deriving Repr, DecidableEq

/-- One turn of the loop: the slot of the checksum counts as zero if it is to be updated. -/
def sumLong (mem : Nat → UInt8) (chkoff : Nat) (update : Bool) (state : Summing) (i : Nat) :
    Summing :=
  let cleared := update && i == chkoff
  let val := if cleared then 0 else longAt mem i
  let cksum := state.cksum + val
  let cksum := if cksum < state.prevck then cksum + 1 else cksum
  { oldcksum := if cleared then longAt mem i else state.oldcksum
    cksum := cksum
    prevck := cksum }

/-- `for (i = 0; i < size; i += 4)`. -/
def offsets (size : Nat) : List Nat := (List.range ((size + 3) / 4)).map (4 * ·)

def storeLong (mem : Nat → UInt8) (chkoff : Nat) (cksum : UInt32) : Nat → UInt8 :=
  let mem := Function.update mem (chkoff + 0) ((cksum >>> 24) &&& (0xff : UInt32)).toUInt8
  let mem := Function.update mem (chkoff + 1) ((cksum >>> 16) &&& (0xff : UInt32)).toUInt8
  let mem := Function.update mem (chkoff + 2) ((cksum >>> 8) &&& (0xff : UInt32)).toUInt8
  Function.update mem (chkoff + 3) ((cksum >>> 0) &&& (0xff : UInt32)).toUInt8

/-- `amiga_checksum`: whether it updated the checksum, and the memory it leaves. -/
def amigaChecksum (mem : Nat → UInt8) (size chkoff : Nat) (update : Bool) :
    Bool × (Nat → UInt8) :=
  let state := (offsets size).foldl (sumLong mem chkoff update) ⟨0, 0, 0⟩
  let cksum := ~~~state.cksum
  if update ∧ cksum ≠ state.oldcksum then (true, storeLong mem chkoff cksum) else (false, mem)

/-- The longs of an image. -/
def longs (mem : Nat → UInt8) (size : Nat) : List UInt32 := (offsets size).map (longAt mem)

/-- The longs that a checksum with the slot `chkoff` is computed from. -/
def clearedLongs (mem : Nat → UInt8) (size chkoff : Nat) : List UInt32 :=
  (offsets size).map fun i => if i = chkoff then 0 else longAt mem i

/-- The end-around-carry sum of longs. -/
def carrySum (longs : List UInt32) : Nat := OnesComplement.sum 32 (longs.map UInt32.toNat)

variable {mem : Nat → UInt8} {size chkoff : Nat}

/-- The carry test is exact. -/
theorem addCarry_toNat (cksum val : UInt32) :
    (if cksum + val < cksum then cksum + val + 1 else cksum + val).toNat =
      OnesComplement.add 32 cksum.toNat val.toNat := by
  have first := cksum.toNat_lt
  have second := val.toNat_lt
  have sum := UInt32.toNat_add cksum val
  have power : (2 : Nat) ^ 32 = 4294967296 := rfl
  rw [OnesComplement.add]
  split
  next carried =>
    have carried := UInt32.lt_iff_toNat_lt.mp carried
    rw [UInt32.toNat_add, sum]
    rw [sum] at carried
    change ((cksum.toNat + val.toNat) % 2 ^ 32 + 1) % 2 ^ 32 = _
    omega
  next whole =>
    rw [UInt32.lt_iff_toNat_lt, sum] at whole
    rw [sum]
    omega

/-- The loop adds with an end-around carry, and remembers the slot. -/
theorem sumLongs (indices : List Nat) (state : Summing) (synced : state.prevck = state.cksum) :
    let done := indices.foldl (sumLong mem chkoff true) state
    done.cksum.toNat = ((indices.map fun i => if i = chkoff then 0 else longAt mem i).map
        UInt32.toNat).foldl (OnesComplement.add 32) state.cksum.toNat ∧
      (done.oldcksum = if chkoff ∈ indices then longAt mem chkoff else state.oldcksum) := by
  induction indices generalizing state with
  | nil => exact ⟨rfl, (if_neg List.not_mem_nil).symm⟩
  | cons i rest ih =>
      obtain ⟨total, slot⟩ := ih (sumLong mem chkoff true state i) rfl
      constructor
      · rw [List.foldl_cons, total]
        simp only [List.map_cons, List.foldl_cons]
        congr 1
        simp only [sumLong, synced, Bool.true_and, beq_iff_eq]
        exact addCarry_toNat _ _
      · rw [List.foldl_cons, slot]
        by_cases here : i = chkoff
        · subst here
          simp [sumLong]
        · simp [sumLong, here, Ne.symm here]

section Slot

variable (cksum : UInt32)

theorem storeLong_self : longAt (storeLong mem chkoff cksum) chkoff = cksum := by
  have bounded := cksum.toNat_lt
  have byte : ∀ word : UInt32, (word &&& (0xff : UInt32)).toUInt8.toUInt32.toNat =
      word.toNat % 2 ^ 8 := by
    intro word
    rw [UInt8.toNat_toUInt32, UInt32.toNat_toUInt8, UInt32.toNat_and]
    change (word.toNat &&& (2 ^ 8 - 1)) % 2 ^ 8 = _
    rw [Nat.and_two_pow_sub_one_eq_mod, Nat.mod_mod]
  have stored : ∀ k : Nat, k ≤ 3 → storeLong mem chkoff cksum (chkoff + k) =
      ((cksum >>> UInt32.ofNat (24 - 8 * k)) &&& (0xff : UInt32)).toUInt8 := by
    intro k small
    interval_cases k <;> simp [storeLong, Function.update]
  rw [← UInt32.toNat_inj, longAt, stored 0 (by omega), stored 1 (by omega), stored 2 (by omega),
    stored 3 (by omega)]
  simp only [UInt32.toNat_add, UInt32.toNat_shiftLeft, byte, UInt32.toNat_shiftRight]
  simp only [UInt32.toNat_ofNat, Nat.shiftLeft_eq, Nat.shiftRight_eq_div_pow]
  norm_num
  omega

/-- Nothing outside the slot changes. -/
theorem storeLong_of_ne {index : Nat} (outside : index < chkoff ∨ chkoff + 3 < index) :
    storeLong mem chkoff cksum index = mem index := by
  have away : ∀ k : Nat, k ≤ 3 → index ≠ chkoff + k := by
    intro k small
    omega
  simp only [storeLong, Function.update_of_ne (away 0 (by omega)),
    Function.update_of_ne (away 1 (by omega)), Function.update_of_ne (away 2 (by omega)),
    Function.update_of_ne (away 3 (by omega))]

theorem longAt_storeLong_of_ne {i : Nat} (alignedIndex : i % 4 = 0) (aligned : chkoff % 4 = 0)
    (different : i ≠ chkoff) : longAt (storeLong mem chkoff cksum) i = longAt mem i := by
  have kept : ∀ k : Nat, k ≤ 3 → storeLong mem chkoff cksum (i + k) = mem (i + k) := by
    intro k small
    apply storeLong_of_ne
    omega
  rw [longAt, kept 0 (by omega), kept 1 (by omega), kept 2 (by omega), kept 3 (by omega)]
  rfl

/-- Clearing the slot hides what it holds. -/
theorem clearedLongs_storeLong (aligned : chkoff % 4 = 0) :
    clearedLongs (storeLong mem chkoff cksum) size chkoff = clearedLongs mem size chkoff := by
  apply List.map_congr_left
  intro i member
  obtain ⟨k, -, rfl⟩ := List.mem_map.mp member
  split
  next => rfl
  next different =>
    exact longAt_storeLong_of_ne cksum (Nat.mul_mod_right 4 k) aligned different

end Slot

/-- The offsets around the slot. -/
theorem offsets_split (whole : size % 4 = 0) (aligned : chkoff % 4 = 0) (inside : chkoff < size) :
    ∃ before after, offsets size = before ++ chkoff :: after ∧
      chkoff ∉ before ∧ chkoff ∉ after := by
  have slot : 4 * (chkoff / 4) = chkoff := by omega
  have count : (size + 3) / 4 = chkoff / 4 + (1 + ((size + 3) / 4 - chkoff / 4 - 1)) := by omega
  refine ⟨(List.range (chkoff / 4)).map (4 * ·),
    (List.range ((size + 3) / 4 - chkoff / 4 - 1)).map fun k => 4 * (chkoff / 4 + (1 + k)), ?_, ?_, ?_⟩
  · rw [offsets, count, List.range_add, List.map_append, List.range_add]
    simp [slot, Function.comp_def]
  · intro member
    obtain ⟨k, below, same⟩ := List.mem_map.mp member
    have below := List.mem_range.mp below
    omega
  · intro member
    obtain ⟨k, -, same⟩ := List.mem_map.mp member
    omega

theorem word_le (longs : List UInt32) :
    ∀ value ∈ longs.map UInt32.toNat, value ≤ OnesComplement.ones 32 := by
  intro value member
  obtain ⟨long, -, rfl⟩ := List.mem_map.mp member
  exact Nat.le_sub_one_of_lt long.toNat_lt

theorem carrySum_lt (longs : List UInt32) : carrySum longs < 2 ^ 32 :=
  Nat.lt_of_le_sub_one (by decide) (OnesComplement.sum_le (word_le longs))

/-- A repaired image sums to all ones. -/
theorem carrySum_repaired (whole : size % 4 = 0) (aligned : chkoff % 4 = 0) (inside : chkoff < size)
    (slot : longAt mem chkoff = ~~~UInt32.ofNat (carrySum (clearedLongs mem size chkoff))) :
    carrySum (longs mem size) = 0xffffffff := by
  obtain ⟨before, after, split, notBefore, notAfter⟩ := offsets_split whole aligned inside
  have cleared : ∀ part : List Nat, chkoff ∉ part →
      (part.map fun i => if i = chkoff then 0 else longAt mem i) = part.map (longAt mem) := by
    intro part absent
    apply List.map_congr_left
    intro i member
    refine if_neg ?_
    rintro rfl
    exact absent member
  have clear : clearedLongs mem size chkoff =
      before.map (longAt mem) ++ 0 :: after.map (longAt mem) := by
    rw [clearedLongs, split, List.map_append, List.map_cons, if_pos rfl, cleared _ notBefore,
      cleared _ notAfter]
  have complement : (longAt mem chkoff).toNat =
      OnesComplement.ones 32 - carrySum (clearedLongs mem size chkoff) := by
    rw [slot, UInt32.toNat_not, UInt32.toNat_ofNat_of_lt' (carrySum_lt _)]
    rfl
  have repaired := @OnesComplement.sum_complement 32 (by decide) _ _
    (word_le (before.map (longAt mem))) (word_le (after.map (longAt mem)))
  rw [carrySum, longs, split, List.map_append, List.map_cons, List.map_append, List.map_cons,
    complement, clear, carrySum, List.map_append, List.map_cons]
  exact repaired

/-- The loop computes the complement of the sum with the slot cleared, and the slot. -/
theorem amigaChecksum_eq (whole : size % 4 = 0) (aligned : chkoff % 4 = 0) (inside : chkoff < size) :
    let cksum := ~~~UInt32.ofNat (carrySum (clearedLongs mem size chkoff))
    amigaChecksum mem size chkoff true =
      if cksum = longAt mem chkoff then (false, mem) else (true, storeLong mem chkoff cksum) := by
  obtain ⟨before, after, split, -, -⟩ := offsets_split whole aligned inside
  have member : chkoff ∈ offsets size := by
    rw [split]
    simp
  obtain ⟨total, slot⟩ := @sumLongs mem chkoff (offsets size) ⟨0, 0, 0⟩ rfl
  rw [if_pos member] at slot
  have cksum : ((offsets size).foldl (sumLong mem chkoff true) ⟨0, 0, 0⟩).cksum =
      UInt32.ofNat (carrySum (clearedLongs mem size chkoff)) := by
    apply UInt32.toNat_inj.mp
    rw [total, UInt32.toNat_ofNat_of_lt' (carrySum_lt _)]
    rfl
  simp only [amigaChecksum, cksum, slot]
  split_ifs <;> simp_all

/-- Repairing the checksum makes the image valid, touches the slot only, and leaves
nothing to repair. -/
theorem checksum_repair (whole : size % 4 = 0) (aligned : chkoff % 4 = 0) (inside : chkoff < size) :
    carrySum (longs (amigaChecksum mem size chkoff true).2 size) = 0xffffffff ∧
      (∀ index, index < chkoff ∨ chkoff + 3 < index →
        (amigaChecksum mem size chkoff true).2 index = mem index) ∧
      amigaChecksum (amigaChecksum mem size chkoff true).2 size chkoff true =
        (false, (amigaChecksum mem size chkoff true).2) := by
  have computed := @amigaChecksum_eq mem _ _ whole aligned inside
  dsimp only at computed ⊢
  rw [computed]
  split
  next same =>
    refine ⟨carrySum_repaired whole aligned inside same.symm, fun _ _ => rfl, ?_⟩
    rw [computed, if_pos same]
  next different =>
    generalize checksum : ~~~UInt32.ofNat (carrySum (clearedLongs mem size chkoff)) = cksum
    have slot : longAt (storeLong mem chkoff cksum) chkoff =
        ~~~UInt32.ofNat (carrySum (clearedLongs (storeLong mem chkoff cksum) size chkoff)) := by
      rw [storeLong_self, clearedLongs_storeLong cksum aligned, checksum]
    refine ⟨carrySum_repaired whole aligned inside slot, ?_, ?_⟩
    · intro index outside
      exact storeLong_of_ne cksum outside
    · rw [amigaChecksum_eq whole aligned inside, if_pos slot.symm]

/-- In an erased image the sum carries into the end-around. -/
theorem checksum_repair_of_erased :
    2 ^ 32 ≤ ((clearedLongs (fun _ => 0xff) 12 4).map UInt32.toNat).sum ∧
      (amigaChecksum (fun _ => 0xff) 12 4 true).1 = true ∧
      carrySum (longs (amigaChecksum (fun _ => 0xff) 12 4 true).2 12) = 0xffffffff := by
  refine ⟨by decide, by decide, ?_⟩
  exact (checksum_repair (by decide) (by decide) (by decide)).1

end Paulastorm.Boot
