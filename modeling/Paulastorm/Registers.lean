import Paulastorm.Library.Word
import Mathlib.Data.Fintype.Basic
import Mathlib.Logic.Function.Basic

namespace Paulastorm

/-! The programmer's view of Paula's write-only audio registers.

`Reg` is the hardware register map and `Bank` is what a sequence of word writes
leaves latched.  Every decoder of the firmware is compared with `Bank.write`:
the register shadow of the event ring, the emulated core, and the replay state.
-/

/-- The six words of one channel block, in address order. -/
inductive ChannelReg where
  | lch | lcl | len | per | vol | dat
deriving DecidableEq, Repr

inductive Reg where
  | dmacon | intena | intreq | adkcon
  | channel (ch : Fin 4) (reg : ChannelReg)
deriving DecidableEq, Repr

instance ChannelReg.neZero : NeZero 6 := ⟨by decide⟩

def ChannelReg.index : ChannelReg → Fin 6
  | .lch => 0
  | .lcl => 1
  | .len => 2
  | .per => 3
  | .vol => 4
  | .dat => 5

def ChannelReg.ofIndex : Fin 6 → ChannelReg
  | 0 => .lch
  | 1 => .lcl
  | 2 => .len
  | 3 => .per
  | 4 => .vol
  | 5 => .dat

@[simp] theorem ChannelReg.ofIndex_index (reg : ChannelReg) : .ofIndex reg.index = reg := by
  cases reg <;> rfl

@[simp] theorem ChannelReg.index_ofIndex (index : Fin 6) :
    (ChannelReg.ofIndex index).index = index := by
  revert index
  decide

/-- The offset of a register from the custom chip base `$dff000`. -/
def Reg.offset : Reg → Nat
  | .dmacon => 0x096
  | .intena => 0x09a
  | .intreq => 0x09c
  | .adkcon => 0x09e
  | .channel ch reg => 0x0a0 + ch.val * 16 + reg.index.val * 2

/-- The register at an offset, if there is one. -/
def decode (offset : Nat) : Option Reg :=
  if offset = 0x096 then some .dmacon
  else if offset = 0x09a then some .intena
  else if offset = 0x09c then some .intreq
  else if offset = 0x09e then some .adkcon
  else if inside : 0x0a0 ≤ offset ∧ offset ≤ 0x0da ∧ offset % 2 = 0 ∧ (offset - 0x0a0) % 16 ≤ 10 then
    some (.channel ⟨(offset - 0x0a0) / 16, by omega⟩
      (.ofIndex ⟨(offset - 0x0a0) % 16 / 2, by omega⟩))
  else none

@[simp] theorem decode_offset (reg : Reg) : decode reg.offset = some reg := by
  cases reg with
  | channel ch reg =>
      have inside := ch.isLt
      have index := reg.index.isLt
      have number : (0x0a0 + ch.val * 16 + reg.index.val * 2 - 0x0a0) / 16 = ch.val := by omega
      have word : (0x0a0 + ch.val * 16 + reg.index.val * 2 - 0x0a0) % 16 / 2 = reg.index.val := by
        omega
      unfold decode
      split_ifs with dmacon intena intreq adkcon block
      · simp only [Reg.offset] at dmacon; omega
      · simp only [Reg.offset] at intena; omega
      · simp only [Reg.offset] at intreq; omega
      · simp only [Reg.offset] at adkcon; omega
      · simp only [Reg.offset, number, word, Fin.eta, ChannelReg.ofIndex_index]
      · simp only [Reg.offset] at block; omega
  | _ => rfl

theorem decode_eq_some_iff {offset : Nat} {reg : Reg} :
    decode offset = some reg ↔ reg.offset = offset := by
  constructor
  · intro found
    unfold decode at found
    split_ifs at found with dmacon intena intreq adkcon inside <;> cases found
    · exact dmacon.symm
    · exact intena.symm
    · exact intreq.symm
    · exact adkcon.symm
    · simp only [Reg.offset, ChannelReg.index_ofIndex]
      omega
  · rintro rfl
    exact decode_offset reg

theorem decode_eq_none_iff {offset : Nat} :
    decode offset = none ↔ ∀ reg : Reg, reg.offset ≠ offset := by
  constructor
  · rintro missing reg rfl
    simp at missing
  · intro missing
    cases found : decode offset with
    | none => rfl
    | some reg => exact absurd (decode_eq_some_iff.mp found) (missing reg)

/-- The `$dff09x` semantics: bit 15 set ORs the low bits in, clear removes them. -/
def setClear (word value : UInt16) : UInt16 :=
  if value &&& 0x8000 ≠ 0 then word ||| (value &&& 0x7fff)
  else word &&& ~~~(value &&& 0x7fff)

theorem setClear_top {word : UInt16} (clear : word &&& 0x8000 = 0) (value : UInt16) :
    setClear word value &&& 0x8000 = 0 := by
  unfold setClear
  split
  · rw [Library.Word.or_and_distrib, clear, UInt16.and_assoc]
    change 0 ||| (value &&& 0) = 0
    rw [UInt16.and_zero, UInt16.or_zero]
  · rw [UInt16.and_assoc, UInt16.and_comm (~~~_), ← UInt16.and_assoc, clear, UInt16.zero_and]

/-- Setting every bit of a fifteen-bit word in a cleared register restores it. -/
theorem setClear_restore {word : UInt16} (clear : word &&& 0x8000 = 0) :
    setClear 0 (0x8000 ||| word) = word := by
  have marked : (0x8000 ||| word) &&& 0x8000 = 0x8000 := by
    rw [Library.Word.or_and_distrib, clear]
    rfl
  have low : (0x8000 ||| word) &&& 0x7fff = word := by
    rw [Library.Word.or_and_distrib, Library.Word.and_low_of_top_clear clear]
    exact UInt16.zero_or
  rw [setClear, marked, low, if_pos (by decide), UInt16.zero_or]

/-- The word a bus access presents to the chip: the Classic bus replicates a
byte onto both data lanes. -/
def busWord (value : UInt16) (width : UInt8) : UInt16 :=
  if width = 1 then (value &&& 255) * 0x0101 else value

/-- The latched registers of the sound chip. -/
@[ext] structure Bank where
  loc : Fin 4 → UInt32
  len : Fin 4 → UInt32
  per : Fin 4 → UInt16
  vol : Fin 4 → UInt16
  dmacon : UInt16
  intena : UInt16
  intreq : UInt16
  adkcon : UInt16

namespace Bank

/-- The bank after a reset: no location, no length, the shortest period. -/
def reset : Bank where
  loc := fun _ => 0
  len := fun _ => 0
  per := fun _ => 1
  vol := fun _ => 0
  dmacon := 0
  intena := 0
  intreq := 0
  adkcon := 0

def withHigh (loc : UInt32) (value : UInt16) : UInt32 :=
  (loc &&& (0x0000ffff : UInt32)) ||| (value.toUInt32 <<< (16 : UInt32))

def withLow (loc : UInt32) (value : UInt16) : UInt32 :=
  (loc &&& (0xffff0000 : UInt32)) ||| value.toUInt32

theorem withHigh_toNat (loc : UInt32) (value : UInt16) :
    (withHigh loc value).toNat = loc.toNat % 2 ^ 16 + value.toNat * 2 ^ 16 := by
  have bounded := value.toNat_lt
  have high : (value.toUInt32 <<< (16 : UInt32)).toNat = 2 ^ 16 * value.toNat := by
    rw [UInt32.toNat_shiftLeft, UInt16.toNat_toUInt32, Nat.shiftLeft_eq]
    change value.toNat * 2 ^ 16 % 2 ^ 32 = _
    omega
  rw [withHigh, UInt32.toNat_or, Library.Word.low_half_toNat, high, Nat.or_comm,
    ← Nat.two_pow_add_eq_or_of_lt (Nat.mod_lt _ (by decide))]
  omega

theorem withLow_toNat (loc : UInt32) (value : UInt16) :
    (withLow loc value).toNat = loc.toNat / 2 ^ 16 * 2 ^ 16 + value.toNat := by
  rw [withLow, UInt32.toNat_or, Library.Word.high_half_toNat, UInt16.toNat_toUInt32,
    ← Nat.two_pow_add_eq_or_of_lt value.toNat_lt, Nat.mul_comm]

/-- The two halves of a location are written independently, in either order. -/
theorem withHigh_withLow (loc : UInt32) (high low : UInt16) :
    withHigh (withLow loc low) high = withLow (withHigh loc high) low := by
  have lowBound := low.toNat_lt
  rw [← UInt32.toNat_inj, withHigh_toNat, withLow_toNat, withLow_toNat, withHigh_toNat]
  omega

theorem withLow_withLow (loc : UInt32) (first second : UInt16) :
    withLow (withLow loc first) second = withLow loc second := by
  have firstBound := first.toNat_lt
  rw [← UInt32.toNat_inj, withLow_toNat, withLow_toNat, withLow_toNat]
  omega

theorem withHigh_withHigh (loc : UInt32) (first second : UInt16) :
    withHigh (withHigh loc first) second = withHigh loc second := by
  have firstBound := first.toNat_lt
  rw [← UInt32.toNat_inj, withHigh_toNat, withHigh_toNat, withHigh_toNat]
  omega

/-- Paula reads a length of zero as 65536 words. -/
def lengthWords (value : UInt16) : UInt32 :=
  if value ≠ 0 then value.toUInt32 else 65536

theorem lengthWords_toNat (value : UInt16) :
    (lengthWords value).toNat = if value = 0 then 65536 else value.toNat := by
  by_cases zero : value = 0
  · rw [lengthWords, if_neg (not_not_intro zero), if_pos zero]
    rfl
  · rw [lengthWords, if_pos zero, if_neg zero]
    exact UInt16.toNat_toUInt32 value

theorem lengthWords_ne_zero (value : UInt16) : lengthWords value ≠ 0 := by
  intro none
  have size := lengthWords_toNat value
  rw [none] at size
  split at size
  next => cases size
  next nonzero => exact nonzero (UInt16.toNat_inj.mp size.symm)

def periodTicks (value : UInt16) : UInt16 :=
  if value ≠ 0 then value else 1

/-- One word write to a register. -/
def write (bank : Bank) (value : UInt16) : Reg → Bank
  | .dmacon => { bank with dmacon := setClear bank.dmacon value }
  | .intena => { bank with intena := setClear bank.intena value }
  | .intreq => { bank with intreq := setClear bank.intreq value }
  | .adkcon => { bank with adkcon := setClear bank.adkcon value }
  | .channel ch .lch =>
      { bank with loc := Function.update bank.loc ch (withHigh (bank.loc ch) value) }
  | .channel ch .lcl =>
      { bank with loc := Function.update bank.loc ch (withLow (bank.loc ch) value) }
  | .channel ch .len =>
      { bank with len := Function.update bank.len ch (lengthWords value) }
  | .channel ch .per =>
      { bank with per := Function.update bank.per ch (periodTicks value) }
  | .channel ch .vol =>
      { bank with vol := Function.update bank.vol ch (value &&& 0x7f) }
  | .channel _ .dat => bank

/-- A word write to an offset of the register block. -/
def writeOffset (bank : Bank) (offset : Nat) (value : UInt16) : Bank :=
  match decode offset with
  | some reg => bank.write value reg
  | none => bank

/-- A programmed length is never zero again. -/
theorem writeOffset_programmed {bank : Bank} {ch : Fin 4} (programmed : bank.len ch ≠ 0)
    (offset : Nat) (value : UInt16) : (bank.writeOffset offset value).len ch ≠ 0 := by
  unfold writeOffset
  cases decode offset with
  | none => exact programmed
  | some reg =>
      cases reg with
      | channel written reg =>
          cases reg with
          | len =>
              by_cases same : ch = written
              · subst same
                simp only [write, Function.update_self]
                exact lengthWords_ne_zero value
              · simp only [write, Function.update_of_ne same]
                exact programmed
          | _ => exact programmed
      | _ => exact programmed

/-- The registers that no interrupt request can change. -/
def withoutIntreq (bank : Bank) : Bank := { bank with intreq := 0 }

theorem writeOffset_withoutIntreq {first second : Bank}
    (same : first.withoutIntreq = second.withoutIntreq) (offset : Nat) (value : UInt16) :
    (first.writeOffset offset value).withoutIntreq =
      (second.writeOffset offset value).withoutIntreq := by
  simp only [withoutIntreq, Bank.mk.injEq] at same
  obtain ⟨loc, len, per, vol, dmacon, intena, _, adkcon⟩ := same
  unfold writeOffset
  cases decode offset with
  | none => simp only [withoutIntreq, loc, len, per, vol, dmacon, intena, adkcon]
  | some reg =>
      cases reg with
      | channel ch reg =>
          cases reg <;> simp only [write, withoutIntreq, loc, len, per, vol, dmacon, intena, adkcon]
      | _ => simp only [write, withoutIntreq, loc, len, per, vol, dmacon, intena, adkcon]

end Bank

end Paulastorm
