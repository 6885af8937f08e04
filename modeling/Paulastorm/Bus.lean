import Mathlib.Data.UInt
import Paulastorm.Library.Bytes

namespace Paulastorm.Bus

/-! The classic bus driver (`ps_classic_protocol.c`) without the write buffer:
how a guest access becomes cycles of the 24-bit bus, and the mirror calls that
follow each write cycle. -/

/-- One cycle: the contents of `REG_ADDR_LO`, the low byte of `REG_ADDR_HI`, its byte
flag, and the sixteen data lanes. -/
structure Transaction where
  address : UInt32
  data : UInt16
  byte : Bool
deriving Repr, DecidableEq

/-- What the driver drives: the bus, `paula_mirror_capture` and `paula_mirror_invalidate`; and
whether the 68k context asks for a wait (`JC2F_BLITWAIT`).  The C code polls a running blit for
as long as it takes; here at most `blitPolls` polls find the blitter busy. -/
structure Wires (State : Type u) where
  write : Transaction → State → State
  read : UInt32 → Bool → State → UInt16 × State
  capture : UInt32 → UInt32 → Nat → State → State
  invalidate : UInt32 → Nat → State → State
  blitWait : State → Bool := fun _ => false
  blitPolls : State → Nat := fun _ => 0

/-- A bus on which nothing happens. -/
def deadWires : Wires Unit where
  write _ bus := bus
  read _ _ bus := (0, bus)
  capture _ _ _ bus := bus
  invalidate _ _ bus := bus

section Driver

variable {State : Type u} (wires : Wires State)

/-- `ps_read_8_int` and `ps_read_8`: the lane of the byte is chosen by A0. -/
def psRead8 (address : UInt32) (state : State) : UInt32 × State :=
  let address := address &&& (0xffffff : UInt32)
  let (value, state) := wires.read address true state
  if address &&& 1 = 0 then ((value.toUInt32 >>> 8) &&& 0xff, state)
  else (value.toUInt32 &&& 0xff, state)

/-- `ps_read_16_int`, `ps_read_16_int_nowbwait` and `ps_read_16`. -/
def psRead16 (address : UInt32) (state : State) : UInt32 × State :=
  let address := address &&& (0xffffff : UInt32)
  if address &&& 1 ≠ 0 then
    let (high, state) := psRead8 wires address state
    let (low, state) := psRead8 wires (address + 1) state
    (high <<< 8 ||| low, state)
  else
    let (value, state) := wires.read address false state
    (value.toUInt32, state)

/-- `ps_read_32_int` and `ps_read_32`. -/
def psRead32 (address : UInt32) (state : State) : UInt32 × State :=
  if address &&& 1 ≠ 0 then
    let (first, state) := psRead8 wires address state
    let (middle, state) := psRead16 wires (address + 1) state
    let (last, state) := psRead8 wires (address + 3) state
    (first <<< 24 ||| middle <<< 8 ||| last, state)
  else
    let (high, state) := psRead16 wires address state
    let (low, state) := psRead16 wires (address + 2) state
    (high <<< 16 ||| low, state)

/-- `ps_read_64`. -/
def psRead64 (address : UInt32) (state : State) : UInt64 × State :=
  let (hi, state) := psRead32 wires address state
  let (lo, state) := psRead32 wires (address + 4) state
  (hi.toUInt64 <<< 32 ||| lo.toUInt64, state)

/-- `ps_read_128`: both halves. -/
def psRead128 (address : UInt32) (state : State) : UInt64 × UInt64 × State :=
  let (hi, state) := psRead64 wires address state
  let (lo, state) := psRead64 wires (address + 8) state
  (hi, lo, state)

/-- `ps_write_8_int`: the byte stands on both halves of the bus. -/
def psWrite8Int (address data : UInt32) (state : State) : State :=
  let address := address &&& (0xffffff : UInt32)
  let originalByte := data &&& (0xff : UInt32)
  let data := (data &&& (0xff : UInt32)) ||| (data <<< 8)
  let state := wires.write ⟨address, (data &&& 0xffff).toUInt16, true⟩ state
  let state := wires.capture address originalByte 1 state
  wires.invalidate address 1 state

/-- `ps_write_16_int`. -/
def psWrite16Int (address data : UInt32) (state : State) : State :=
  let address := address &&& (0xffffff : UInt32)
  let state :=
    if address &&& 1 ≠ 0 then
      let state := psWrite8Int wires address (data >>> 8) state
      psWrite8Int wires (address + 1) (data &&& 0xff) state
    else wires.write ⟨address, (data &&& 0xffff).toUInt16, false⟩ state
  if address &&& 1 = 0 then
    let state := wires.capture address data 2 state
    wires.invalidate address 2 state
  else state

/-- `ps_write_32_int`. -/
def psWrite32Int (address value : UInt32) (state : State) : State :=
  if address &&& 1 ≠ 0 then
    let state := psWrite8Int wires address (value >>> 24) state
    let state := psWrite16Int wires (address + 1) (value >>> 8) state
    psWrite8Int wires (address + 3) (value &&& 0xff) state
  else
    let state := psWrite16Int wires address (value >>> 16) state
    psWrite16Int wires (address + 2) value state

/-- `BBUSY`, `DMAEN` and `BLTEN` of `DMACONR`. -/
abbrev blitMask : UInt32 := 0x4240

/-- One turn of the loop of `check_blit_active`: whether the blitter is busy, and if it is, two
dummy reads. -/
def pollOnce (state : State) : Bool × State :=
  let (status, state) := psRead16 wires 0xdff002 state
  if status &&& blitMask = blitMask then
    let (_, state) := psRead16 wires 0xf00000 state
    let (_, state) := psRead16 wires 0xf00000 state
    (true, state)
  else (false, state)

/-- The loop of `check_blit_active`. -/
def pollBlitter : Nat → State → State
  | 0, state => (pollOnce wires state).2
  | polls + 1, state =>
      let (busy, state) := pollOnce wires state
      if busy then pollBlitter polls state else state

/-- The range test of `check_blit_active`: the access touches `BLTCON0` to `BLTADAT`. -/
def Blits (address size : UInt32) : Prop :=
  let address := address &&& (0xffffff : UInt32)
  ¬(address ≥ 0xDFF076 ∨ address + size ≤ 0xDFF040)

instance (address size : UInt32) : Decidable (Blits address size) :=
  inferInstanceAs (Decidable (¬_))

/-- `check_blit_active`. -/
def checkBlitActive (address size : UInt32) (state : State) : State :=
  if ¬wires.blitWait state then state
  else if ¬Blits address size then state
  else pollBlitter wires (wires.blitPolls state) state

/-- `ps_write_8`. -/
def psWrite8 (address data : UInt32) (state : State) : State :=
  psWrite8Int wires address data state

/-- `ps_write_16`. -/
def psWrite16 (address data : UInt32) (state : State) : State :=
  psWrite16Int wires address data (checkBlitActive wires address 2 state)

/-- `ps_write_32`. -/
def psWrite32 (address data : UInt32) (state : State) : State :=
  psWrite32Int wires address data (checkBlitActive wires address 4 state)

/-- `ps_write_64`. -/
def psWrite64 (address : UInt32) (data : UInt64) (state : State) : State :=
  let state := psWrite32 wires address (data >>> 32).toUInt32 state
  psWrite32 wires (address + 4) (data &&& 0xffffffff).toUInt32 state

/-- `ps_write_128`. -/
def psWrite128 (address : UInt32) (hi lo : UInt64) (state : State) : State :=
  let state := psWrite32 wires address (hi >>> 32).toUInt32 state
  let state := psWrite32 wires (address + 4) (hi &&& 0xffffffff).toUInt32 state
  let state := psWrite32 wires (address + 8) (lo >>> 32).toUInt32 state
  psWrite32 wires (address + 12) (lo &&& 0xffffffff).toUInt32 state

end Driver

/-- The byte that a cycle carries for one address: the upper lanes at even addresses. -/
def lane (address : UInt32) (data : UInt16) : UInt8 :=
  if address &&& 1 = 0 then (data >>> 8).toUInt8 else data.toUInt8

/-- The bytes that a write cycle stores. -/
def Transaction.bytes (transaction : Transaction) : List (UInt32 × UInt8) :=
  let address := transaction.address
  let data := transaction.data
  if transaction.byte then [(address, lane address data)]
  else [(address, lane address data), (address + 1, lane (address + 1) data)]

/-- Bytes laid out from an address on, on a bus of 24 address lines. -/
def located : UInt32 → List UInt8 → List (UInt32 × UInt8)
  | _, [] => []
  | address, byte :: rest => (address &&& 0xffffff, byte) :: located (address + 1) rest

theorem mask_toNat (address : UInt32) :
    (address &&& 0xffffff).toNat = address.toNat % 2 ^ 24 := by
  rw [UInt32.toNat_and]
  exact Nat.and_two_pow_sub_one_eq_mod _ 24

theorem mask_mask (address : UInt32) :
    address &&& 0xffffff &&& 0xffffff = address &&& 0xffffff := by
  rw [UInt32.and_assoc]
  rfl

theorem mask_succ (address step : UInt32) :
    (address &&& 0xffffff) + step &&& 0xffffff = address + step &&& 0xffffff := by
  have dvd : (2 ^ 24 : Nat) ∣ 2 ^ 32 := ⟨2 ^ 8, rfl⟩
  rw [← UInt32.toNat_inj, mask_toNat, mask_toNat, UInt32.toNat_add, UInt32.toNat_add, mask_toNat,
    Nat.mod_mod_of_dvd _ dvd, Nat.mod_mod_of_dvd _ dvd, Nat.mod_add_mod]

/-- Addresses that agree on the bus lay a string out alike. -/
theorem located_congr {first second : UInt32} (bytes : List UInt8)
    (same : first &&& 0xffffff = second &&& 0xffffff) :
    located first bytes = located second bytes := by
  induction bytes generalizing first second with
  | nil => rfl
  | cons byte rest ih =>
      rw [located, located, same]
      congr 1
      apply ih
      rw [← mask_succ first, ← mask_succ second, same]

theorem located_append (address : UInt32) (first second : List UInt8) :
    located address (first ++ second) =
      located address first ++ located (address + UInt32.ofNat first.length) second := by
  induction first generalizing address with
  | nil =>
      rw [List.nil_append, located, List.nil_append, List.length_nil]
      exact congrArg (located · second) (UInt32.add_zero address).symm
  | cons byte rest ih =>
      rw [List.cons_append, located, located, ih, List.cons_append, UInt32.add_assoc,
        List.length_cons, Nat.add_comm rest.length, UInt32.ofNat_add]
      rfl

theorem located_address {address : UInt32} {bytes : List UInt8} {cell : UInt32 × UInt8}
    (member : cell ∈ located address bytes) :
    ∃ index < bytes.length, cell.1.toNat = (address.toNat + index) % 2 ^ 24 := by
  induction bytes generalizing address with
  | nil => cases member
  | cons byte rest ih =>
      rcases List.mem_cons.mp member with rfl | later
      · exact ⟨0, Nat.succ_pos _, mask_toNat address⟩
      · obtain ⟨index, inside, place⟩ := ih later
        refine ⟨index + 1, Nat.succ_lt_succ inside, ?_⟩
        rw [place, UInt32.toNat_add]
        change ((address.toNat + 1) % 2 ^ 32 + index) % 2 ^ 24 = _
        omega

end Paulastorm.Bus
