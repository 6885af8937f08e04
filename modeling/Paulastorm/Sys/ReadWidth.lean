import Paulastorm.Sys.ProbeWindow

namespace Paulastorm.Sys

/-! How wide the values are that `SYSReadValFromAddr` returns. -/

open Bus Probe

/-- A value of so many bytes. -/
def Fits (size : Nat) (value : UInt64) : Prop := value.toNat < 2 ^ (8 * size)

instance (size : Nat) (value : UInt64) : Decidable (Fits size value) :=
  inferInstanceAs (Decidable (_ < _))

section Values

variable {size : Nat} {first second value : UInt64}

theorem Fits.or (left : Fits size first) (right : Fits size second) :
    Fits size (first ||| second) := by
  rw [Fits, UInt64.toNat_or]
  exact Nat.or_lt_two_pow left right

theorem Fits.xor (left : Fits size first) (right : Fits size second) :
    Fits size (first ^^^ second) := by
  rw [Fits, UInt64.toNat_xor]
  exact Nat.xor_lt_two_pow left right

theorem Fits.and (left : Fits size first) : Fits size (first &&& second) := by
  rw [Fits, UInt64.toNat_and]
  exact Nat.and_le_left.trans_lt left

theorem Fits.ite {condition : Prop} [Decidable condition] (yes : condition → Fits size first)
    (no : Fits size second) : Fits size (if condition then first else second) := by
  split
  next holds => exact yes holds
  next => exact no

theorem Fits.mono {wider : Nat} (fits : Fits size value) (wide : size ≤ wider) :
    Fits wider value :=
  Nat.lt_of_lt_of_le fits (Nat.pow_le_pow_right (by decide) (Nat.mul_le_mul_left 8 wide))

theorem fits_byte (byte : UInt8) : Fits 1 byte.toUInt64 := by
  rw [Fits, UInt8.toNat_toUInt64]
  exact byte.toNat_lt

theorem fits_long (long : UInt32) : Fits 4 long.toUInt64 := by
  rw [Fits, UInt32.toNat_toUInt64]
  exact long.toNat_lt

/-- As many bytes as are loaded. -/
theorem fits_loadBytes (memory : UInt64 → UInt8) (address : UInt64) (count : Nat) :
    Fits count (loadBytes memory address count) := by
  induction count with
  | zero => exact Nat.one_pos
  | succ count ih =>
      rw [loadBytes, List.range_succ, List.foldl_append]
      change Fits (count + 1) ((loadBytes memory address count <<< 8) ||| _)
      apply Fits.or
      · have shifted : (loadBytes memory address count <<< 8).toNat ≤
            (loadBytes memory address count).toNat * 2 ^ 8 := by
          rw [UInt64.toNat_shiftLeft, Nat.shiftLeft_eq]
          exact Nat.mod_le _ _
        have wider : 2 ^ (8 * (count + 1)) = 2 ^ (8 * count) * 2 ^ 8 := by
          rw [Nat.mul_succ, Nat.pow_add]
        rw [Fits, wider]
        have bound : (loadBytes memory address count).toNat < 2 ^ (8 * count) := ih
        omega
      · exact (fits_byte _).mono (by omega)

end Values

section Reads

variable {BusState : Type u} (wires : Wires BusState) (options : Options) {size : Nat}

theorem psRead8_lt (address : UInt32) (bus : BusState) : (psRead8 wires address bus).1.toNat < 2 ^ 8 := by
  have masked : ∀ word : UInt32, (word &&& 0xff).toNat < 2 ^ 8 := by
    intro word
    rw [UInt32.toNat_and]
    exact Nat.lt_succ_of_le Nat.and_le_right
  unfold psRead8
  dsimp only
  split <;> exact masked _

theorem psRead16_lt (address : UInt32) (bus : BusState) :
    (psRead16 wires address bus).1.toNat < 2 ^ 16 := by
  unfold psRead16
  dsimp only
  split
  next =>
    have high := psRead8_lt wires (address &&& 0xffffff) bus
    have low := psRead8_lt wires ((address &&& 0xffffff) + 1) (psRead8 wires (address &&& 0xffffff) bus).2
    rw [UInt32.toNat_or]
    apply Nat.or_lt_two_pow
    · rw [UInt32.toNat_shiftLeft, Nat.shiftLeft_eq]
      refine (Nat.mod_le _ _).trans_lt ?_
      change _ * 2 ^ 8 < _
      omega
    · omega
  next =>
    rw [UInt16.toNat_toUInt32]
    exact UInt16.toNat_lt _

theorem fits_readSized (sized : size = 1 ∨ size = 2 ∨ size = 4) (value value2 far : UInt64)
    (bus : BusState) : Fits size (readSized wires value value2 size far bus).1 := by
  rcases sized with rfl | rfl | rfl
  · rw [Fits, readSized, UInt32.toNat_toUInt64]
    exact psRead8_lt wires far.toUInt32 bus
  · rw [Fits, readSized, UInt32.toNat_toUInt64]
    exact psRead16_lt wires far.toUInt32 bus
  · exact fits_long _

/-- The select bits of the drives DF0 to DF3. -/
theorem fits_selBits {swap : UInt64} (drives : swap ≤ 3) : Fits 1 (selBits swap) := by
  have few : swap.toNat ≤ 3 := UInt64.le_iff_toNat_le.mp drives
  have cases : swap = 0 ∨ swap = 1 ∨ swap = 2 ∨ swap = 3 := by
    simp only [← UInt64.toNat_inj, UInt64.reduceToNat]
    omega
  rcases cases with rfl | rfl | rfl | rfl <;> decide

theorem fits_readIntreqr (positive : 1 ≤ size) {far value : UInt64} (shadow : IntShadow)
    (fits : Fits size value) : Fits size (readIntreqr size far value shadow).1 := by
  have high : Fits 1 0x20 := by decide
  unfold readIntreqr
  split
  next word =>
    rw [word] at fits ⊢
    exact Fits.ite (fun _ => fits.or (by decide)) fits
  next =>
    split
    next => exact fits
    next => exact Fits.ite (fun _ => fits.or (high.mono positive)) fits

/-- The corrections stay within the size of the access. -/
theorem fits_readCorrected (positive : 1 ≤ size) (drives : options.swapDf0WithDfx ≤ 3)
    {far value : UInt64} (state : State) (fits : Fits size value) :
    Fits size (readCorrected options size far value state).1 := by
  have pending : ∀ shadow, Fits size (if far &&& ~~~(1 : UInt64) = intreqr then
      readIntreqr size far value shadow else (value, shadow)).1 := by
    intro shadow
    split
    next => exact fits_readIntreqr positive shadow fits
    next => exact fits
  have select := (fits_selBits drives).mono positive
  unfold readCorrected
  dsimp only
  generalize (if far &&& ~~~(1 : UInt64) = intenar then readIntenar size far value state.shadow
    else state.shadow) = shadow
  have seen := pending shadow
  generalize (if far &&& ~~~(1 : UInt64) = intreqr then readIntreqr size far value shadow
    else (value, shadow)).1 = value at seen ⊢
  have spoofed : Fits size (if far = ciaapra ∧ options.swapDf0WithDfx ≠ 0 ∧
      state.spoofDf0Id = true then value &&& 0xDF else value) := Fits.ite (fun _ => seen.and) seen
  generalize (if far = ciaapra ∧ options.swapDf0WithDfx ≠ 0 ∧ state.spoofDf0Id = true then
    value &&& 0xDF else value) = value at spoofed ⊢
  have swapped : Fits size (if far = ciabprb ∧ options.swapDf0WithDfx ≠ 0 ∧
      selDiffer options.swapDf0WithDfx value = true then value ^^^ selBits options.swapDf0WithDfx
      else value) := Fits.ite (fun _ => spoofed.xor select) spoofed
  refine Fits.ite (fun vposr => ?_) swapped
  refine Fits.ite (fun _ => swapped.and) (Fits.ite (fun _ => swapped.or ?_) swapped)
  rw [vposr.2]
  decide

/-- Nothing wider than the access is read outside the SCSI area. -/
theorem fits_readMapped (sized : size = 1 ∨ size = 2 ∨ size = 4)
    (drives : options.swapDf0WithDfx ≤ 3) (value value2 far : UInt64) (state : State)
    (bus : BusState) :
    Fits size (readMapped wires options value value2 size far state bus).1 := by
  have positive : 1 ≤ size := by omega
  have zero : Fits size 0 := Nat.two_pow_pos _
  unfold readMapped
  split
  next => exact zero
  next =>
    dsimp only
    split
    next board _ => exact (fits_byte _).mono positive
    next =>
      split
      next =>
        rcases sized with rfl | rfl | rfl <;> exact fits_loadBytes _ _ _
      next =>
        split
        next => exact zero
        next =>
          exact fits_readCorrected options positive drives _
            (fits_readSized wires sized value value2 _ bus)

theorem fits_busRead {metrics : Metrics} {far word : UInt64}
    (seen : busRead metrics size far = some word) : Fits size word := by
  have zero : Fits size 0 := Nat.two_pow_pos _
  unfold busRead at seen
  split at seen
  next => cases seen
  next =>
    dsimp only at seen
    split at seen
    next => rw [← Option.some.inj seen]; exact zero
    next long =>
      have whole : size = 4 := not_not.mp (not_or.mp long).1
      rw [← Option.some.inj seen, whole]
      exact fits_long _

/-- The probe answers below 4 GiB only, and not in the SCSI area. -/
theorem busRead_area {metrics : Metrics} {far word : UInt64}
    (seen : busRead metrics size far = some word) :
    unwrap far >>> 32 = 0 ∧ scsiArea options (unwrap far) = false := by
  have window : ¬(far < probeBase ∨ far ≥ probeBase + 512) := by
    intro outside
    rw [busRead, if_pos outside] at seen
    cases seen
  have base : probeBase.toNat = 0xdeadb000 := rfl
  have limit : (probeBase + 512).toNat = 0xdeadb200 := rfl
  rw [UInt64.lt_iff_toNat_lt, ge_iff_le, UInt64.le_iff_toNat_le, base, limit] at window
  have upper : far >>> 32 = 0 := by
    apply UInt64.toNat_inj.mp
    rw [upper_toNat]
    exact Nat.div_eq_of_lt (by omega)
  have same : unwrap far = far := by
    apply if_neg
    rw [upper]
    decide
  rw [same]
  refine ⟨upper, ?_⟩
  cases area : scsiArea options far with
  | false => rfl
  | true =>
      have bound := scsiArea_low area
      omega

/-- A read is handled at the addresses within the single wrap. -/
theorem sysReadValFromAddr_handled (value value2 : UInt64) (far : UInt64) (state : State)
    (bus : BusState) : (sysReadValFromAddr wires options value value2 size far state bus).1 =
      decide (unwrap far >>> 32 = 0) := by
  rw [sysReadValFromAddr, readAround]
  cases seen : busRead state.metrics size far with
  | some word => exact (decide_eq_true (busRead_area options seen).1).symm
  | none =>
      dsimp only
      split
      next high => exact (decide_eq_false high).symm
      next low =>
        rw [decide_eq_true (not_not.mp low)]
        split_ifs <;> rfl

/-- The value of a handled read is as wide as its access, but in the SCSI area it is
always a long. -/
theorem sysReadValFromAddr_value (sized : size = 1 ∨ size = 2 ∨ size = 4)
    (drives : options.swapDf0WithDfx ≤ 3) (value value2 far : UInt64) (state : State)
    (bus : BusState) (low : unwrap far >>> 32 = 0) :
    let read := (sysReadValFromAddr wires options value value2 size far state bus).2.1
    if scsiArea options (unwrap far) then read = 0xffffffff else Fits size read := by
  rw [sysReadValFromAddr, readAround]
  cases seen : busRead state.metrics size far with
  | some word =>
      rw [(busRead_area options seen).2]
      exact fits_busRead seen
  | none =>
      dsimp only
      rw [if_neg (not_not.mpr low)]
      split
      next => rfl
      next =>
        split
        next =>
          rcases sized with rfl | rfl | rfl <;> exact fits_loadBytes _ _ _
        next => exact fits_readMapped wires options sized drives value value2 _ state bus

end Reads

end Paulastorm.Sys
