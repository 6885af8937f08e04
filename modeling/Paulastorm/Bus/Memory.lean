import Paulastorm.Bus.Cycles

namespace Paulastorm.Bus

/-! A bus with memory on it: every write stores the big-endian bytes of its value, and
every read spells the bytes it finds.
-/

open Library

/-- The sixteen data lanes. -/
def lanes (upper lower : UInt8) : UInt16 := upper.toUInt16 <<< 8 ||| lower.toUInt16

/-- Memory at the addresses of the bus; `floating` is on the lane that no byte is read on.  A wait
for the blitter would not show here: the reads change nothing. -/
def memoryWires (floating : UInt32 → UInt8) : Wires (Nat → UInt8) where
  write transaction memory := store transaction.bytes memory
  read address byte memory :=
    let here := memory address.toNat
    (if byte then
      if address &&& 1 = 0 then lanes here (floating address) else lanes (floating address) here
    else lanes here (memory (address + 1).toNat), memory)
  capture _ _ _ memory := memory
  invalidate _ _ memory := memory

/-- The bytes found from an address on. -/
def fetch (memory : Nat → UInt8) : UInt32 → Nat → List UInt8
  | _, 0 => []
  | address, count + 1 =>
      memory (address &&& 0xffffff).toNat :: fetch memory (address + 1) count

section Fetch

variable {memory : Nat → UInt8} {address : UInt32}

theorem length_fetch (memory : Nat → UInt8) (address : UInt32) (count : Nat) :
    (fetch memory address count).length = count := by
  induction count generalizing address with
  | zero => rfl
  | succ count ih => rw [fetch, List.length_cons, ih]

theorem fetch_add (memory : Nat → UInt8) (address : UInt32) (first second : Nat) :
    fetch memory address (first + second) =
      fetch memory address first ++ fetch memory (address + UInt32.ofNat first) second := by
  induction first generalizing address with
  | zero =>
      rw [Nat.zero_add, fetch, List.nil_append]
      exact congrArg (fetch memory · second) (UInt32.add_zero address).symm
  | succ first ih =>
      rw [Nat.succ_add, fetch, fetch, ih, List.cons_append, UInt32.add_assoc,
        Nat.add_comm first 1, UInt32.ofNat_add]
      rfl

theorem fetch_congr {other : Nat → UInt8} {second : UInt32} {count : Nat}
    (same : ∀ index < count, memory ((address + UInt32.ofNat index) &&& 0xffffff).toNat =
      other ((second + UInt32.ofNat index) &&& 0xffffff).toNat) :
    fetch memory address count = fetch other second count := by
  induction count generalizing address second with
  | zero => rfl
  | succ count ih =>
      have zero : ∀ address : UInt32, address + UInt32.ofNat 0 = address := UInt32.add_zero
      have next : ∀ (address : UInt32) (index : Nat),
          address + 1 + UInt32.ofNat index = address + UInt32.ofNat (index + 1) := by
        intro address index
        rw [UInt32.add_assoc, Nat.add_comm index, UInt32.ofNat_add]
        rfl
      have first := same 0 (Nat.succ_pos count)
      rw [zero, zero] at first
      rw [fetch, fetch, first]
      refine congrArg _ (ih fun index inside => ?_)
      rw [next, next]
      exact same (index + 1) (Nat.succ_lt_succ inside)

end Fetch

section Store

variable {waits : Prop} {call : (State : Type) → Wires State → State → State}
  {stored : List (UInt32 × UInt8)}

/-- A driver call stores its bytes. -/
theorem Writes.stores (written : Writes waits call stored) (floating : UInt32 → UInt8)
    (memory : Nat → UInt8) : call _ (memoryWires floating) memory = store stored memory := by
  obtain ⟨observations, -, bytes, performed⟩ := written.steady
  have steady : Steady (memoryWires floating) := fun _ _ _ => rfl
  rw [performed _ _ steady, ← bytes]
  clear performed bytes
  induction observations generalizing memory with
  | nil => rfl
  | cons observation rest ih =>
      rw [List.foldl_cons, ih, List.flatMap_cons, store_append]
      rfl

/-- Two stores of one string at two places, seen at two places. -/
theorem store_located_congr {first second : UInt32} {memory other : Nat → UInt8} {here there : Nat}
    (bytes : List UInt8)
    (placed : ∀ index < bytes.length, here = ((first + UInt32.ofNat index) &&& 0xffffff).toNat ↔
      there = ((second + UInt32.ofNat index) &&& 0xffffff).toNat)
    (same : memory here = other there) :
    store (located first bytes) memory here = store (located second bytes) other there := by
  induction bytes generalizing first second memory other with
  | nil => exact same
  | cons byte rest ih =>
      have zero : ∀ address : UInt32, address + UInt32.ofNat 0 = address := UInt32.add_zero
      have next : ∀ (address : UInt32) (index : Nat),
          address + 1 + UInt32.ofNat index = address + UInt32.ofNat (index + 1) := by
        intro address index
        rw [UInt32.add_assoc, Nat.add_comm index, UInt32.ofNat_add]
        rfl
      have start := placed 0 (Nat.succ_pos _)
      rw [zero, zero] at start
      refine ih (fun index inside => ?_) ?_
      · rw [next, next]
        exact placed (index + 1) (Nat.succ_lt_succ inside)
      · change Function.update memory (first &&& 0xffffff).toNat byte here =
          Function.update other (second &&& 0xffffff).toNat byte there
        by_cases hit : here = (first &&& 0xffffff).toNat
        · rw [hit, start.mp hit, Function.update_self, Function.update_self]
        · rw [Function.update_of_ne hit, Function.update_of_ne (fun met => hit (start.mpr met)), same]

end Store

section Words

/-- Two numbers side by side in one word. -/
theorem join_toNat {high low : UInt32} (shift : UInt32) (within : shift.toNat < 32)
    (small : low.toNat < 2 ^ shift.toNat) (fits : high.toNat * 2 ^ shift.toNat < 2 ^ 32) :
    (high <<< shift ||| low).toNat = high.toNat * 2 ^ shift.toNat + low.toNat := by
  rw [UInt32.toNat_or, UInt32.toNat_shiftLeft, Nat.mod_eq_of_lt within, Nat.shiftLeft_eq,
    Nat.mod_eq_of_lt fits, Nat.mul_comm]
  exact (Nat.two_pow_add_eq_or_of_lt small _).symm

theorem lanes_toNat (upper lower : UInt8) :
    (lanes upper lower).toNat = 256 * upper.toNat + lower.toNat := by
  have high := upper.toNat_lt
  have low := lower.toNat_lt
  have shifted : (upper.toUInt16 <<< 8).toNat = 2 ^ 8 * upper.toNat := by
    rw [UInt16.toNat_shiftLeft, Nat.shiftLeft_eq, UInt8.toNat_toUInt16, Nat.mul_comm]
    exact Nat.mod_eq_of_lt (by change 2 ^ 8 * upper.toNat < 2 ^ 16; omega)
  rw [lanes, UInt16.toNat_or, shifted, UInt8.toNat_toUInt16]
  exact (Nat.two_pow_add_eq_or_of_lt low _).symm

theorem low_toNat (word : UInt32) : (word &&& 0xff).toNat = word.toNat % 2 ^ 8 := by
  rw [UInt32.toNat_and]
  exact Nat.and_two_pow_sub_one_eq_mod _ 8

theorem upperLane_toNat (word : UInt32) :
    ((word >>> 8) &&& 0xff).toNat = word.toNat / 2 ^ 8 % 2 ^ 8 := by
  rw [low_toNat, UInt32.toNat_shiftRight, Nat.shiftRight_eq_div_pow]
  rfl

end Words

section Reads

variable (floating : UInt32 → UInt8) (memory : Nat → UInt8) (address : UInt32)

theorem ofBigEndian_fetch_lt (memory : Nat → UInt8) (address : UInt32) (count : Nat) :
    ofBigEndian (fetch memory address count) < 256 ^ count :=
  (ofBigEndian_lt _).trans_eq (by rw [length_fetch])

theorem ofBigEndian_fetch_add (memory : Nat → UInt8) (address : UInt32) (first second : Nat) :
    ofBigEndian (fetch memory address (first + second)) =
      ofBigEndian (fetch memory address first) * 256 ^ second +
        ofBigEndian (fetch memory (address + UInt32.ofNat first) second) := by
  rw [fetch_add, ofBigEndian_append, length_fetch]

theorem fetch_mask (count : Nat) :
    fetch memory (address &&& 0xffffff) count = fetch memory address count :=
  fetch_congr fun index _ => by rw [mask_succ]

variable {memory address}

/-- Two strings that follow each other, read one after the other. -/
theorem join_fetch {high low shift : UInt32} {first second : Nat}
    (width : shift.toNat = 8 * second) (left : 0 < first) (fits : first + second ≤ 4)
    (upper : high.toNat = ofBigEndian (fetch memory address first))
    (lower : low.toNat = ofBigEndian (fetch memory (address + UInt32.ofNat first) second)) :
    (high <<< shift ||| low).toNat = ofBigEndian (fetch memory address (first + second)) := by
  have power : 256 ^ second = 2 ^ shift.toNat := by
    rw [width, Nat.pow_mul]
  have below := ofBigEndian_fetch_lt memory (address + UInt32.ofNat first) second
  have whole : ofBigEndian (fetch memory address (first + second)) < 2 ^ 32 :=
    (ofBigEndian_fetch_lt memory address (first + second)).trans_le
      (Nat.pow_le_pow_right (by decide) fits)
  rw [ofBigEndian_fetch_add, power, ← upper, ← lower] at whole
  rw [power, ← lower] at below
  rw [join_toNat shift (by omega) below (Nat.lt_of_le_of_lt (Nat.le_add_right _ _) whole),
    ofBigEndian_fetch_add, power, ← upper, ← lower]

theorem fetch_one (memory : Nat → UInt8) (address : UInt32) :
    ofBigEndian (fetch memory address 1) = (memory (address &&& 0xffffff).toNat).toNat := by
  simp [fetch, ofBigEndian]

variable (memory address)

theorem psRead8_fetch :
    (psRead8 (memoryWires floating) address memory).1.toNat =
      ofBigEndian (fetch memory address 1) ∧
    (psRead8 (memoryWires floating) address memory).2 = memory := by
  have here := (memory (address &&& 0xffffff).toNat).toNat_lt
  have other := (floating (address &&& 0xffffff)).toNat_lt
  rw [fetch_one]
  by_cases even : address &&& 0xffffff &&& 1 = 0
  · simp only [psRead8, memoryWires, if_pos even, if_true]
    refine ⟨?_, trivial⟩
    rw [upperLane_toNat, UInt16.toNat_toUInt32, lanes_toNat]
    omega
  · simp only [psRead8, memoryWires, if_neg even, if_true]
    refine ⟨?_, trivial⟩
    rw [low_toNat, UInt16.toNat_toUInt32, lanes_toNat]
    omega

theorem psRead16_fetch :
    (psRead16 (memoryWires floating) address memory).1.toNat =
      ofBigEndian (fetch memory address 2) ∧
    (psRead16 (memoryWires floating) address memory).2 = memory := by
  by_cases odd : address &&& 0xffffff &&& 1 ≠ 0
  · obtain ⟨high, same⟩ := psRead8_fetch floating memory (address &&& 0xffffff)
    obtain ⟨low, same'⟩ := psRead8_fetch floating memory ((address &&& 0xffffff) + 1)
    simp only [psRead16, if_pos odd, same]
    refine ⟨?_, same'⟩
    rw [← fetch_mask]
    exact join_fetch rfl (by decide) (by decide) high low
  · have even : address &&& 1 = 0 := by
      rw [← mask_and_one]
      exact not_not.mp odd
    have next : (address &&& 0xffffff) + 1 = (address + 1) &&& 0xffffff := mask_succ_of_even even
    have split := ofBigEndian_fetch_add memory address 1 1
    rw [fetch_one, fetch_one] at split
    simp only [psRead16, if_neg odd, memoryWires, Bool.false_eq_true, if_false]
    refine ⟨?_, trivial⟩
    rw [UInt16.toNat_toUInt32, lanes_toNat, next]
    change _ = ofBigEndian (fetch memory address (1 + 1))
    rw [split, Nat.mul_comm]
    rfl

theorem psRead32_fetch :
    (psRead32 (memoryWires floating) address memory).1.toNat =
      ofBigEndian (fetch memory address 4) ∧
    (psRead32 (memoryWires floating) address memory).2 = memory := by
  by_cases odd : address &&& 1 ≠ 0
  · obtain ⟨first, same⟩ := psRead8_fetch floating memory address
    obtain ⟨middle, same'⟩ := psRead16_fetch floating memory (address + 1)
    obtain ⟨last, same''⟩ := psRead8_fetch floating memory (address + 3)
    simp only [psRead32, if_pos odd, same, same']
    refine ⟨?_, same''⟩
    have three : address + 3 = address + 1 + UInt32.ofNat 2 := by
      rw [UInt32.add_assoc]
      rfl
    rw [three] at last ⊢
    rw [UInt32.or_assoc]
    have later := @join_fetch memory (address + 1) _ _ 8 2 1 rfl (by decide) (by decide) middle last
    exact @join_fetch memory address _ _ 24 1 3 rfl (by decide) (by decide) first later
  · obtain ⟨high, same⟩ := psRead16_fetch floating memory address
    obtain ⟨low, same'⟩ := psRead16_fetch floating memory (address + 2)
    simp only [psRead32, if_neg odd, same]
    exact ⟨join_fetch rfl (by decide) (by decide) high low, same'⟩

theorem psRead64_fetch :
    (psRead64 (memoryWires floating) address memory).1.toNat =
      ofBigEndian (fetch memory address 8) ∧
    (psRead64 (memoryWires floating) address memory).2 = memory := by
  obtain ⟨high, same⟩ := psRead32_fetch floating memory address
  obtain ⟨low, same'⟩ := psRead32_fetch floating memory (address + 4)
  have upper := ofBigEndian_fetch_lt memory address 4
  have lower := ofBigEndian_fetch_lt memory (address + 4) 4
  simp only [psRead64, same]
  refine ⟨?_, same'⟩
  rw [← high] at upper
  rw [← low] at lower
  rw [UInt64.toNat_or, UInt64.toNat_shiftLeft, UInt32.toNat_toUInt64, UInt32.toNat_toUInt64,
    Nat.shiftLeft_eq, ofBigEndian_fetch_add memory address 4 4, ← high,
    show address + UInt32.ofNat 4 = address + 4 from rfl, ← low]
  generalize (psRead32 (memoryWires floating) address memory).1.toNat = first at upper
  generalize (psRead32 (memoryWires floating) (address + 4) memory).1.toNat = second at lower
  change first * 2 ^ 32 % 2 ^ 64 ||| second = first * 2 ^ 32 + second
  rw [Nat.mod_eq_of_lt (by omega), Nat.mul_comm]
  exact (Nat.two_pow_add_eq_or_of_lt lower _).symm

theorem psRead128_fetch :
    (psRead128 (memoryWires floating) address memory).1.toNat =
      ofBigEndian (fetch memory address 8) ∧
    (psRead128 (memoryWires floating) address memory).2.1.toNat =
      ofBigEndian (fetch memory (address + 8) 8) ∧
    (psRead128 (memoryWires floating) address memory).2.2 = memory := by
  obtain ⟨high, same⟩ := psRead64_fetch floating memory address
  obtain ⟨low, same'⟩ := psRead64_fetch floating memory (address + 8)
  simp only [psRead128, same]
  exact ⟨high, low, same'⟩

end Reads

end Paulastorm.Bus
