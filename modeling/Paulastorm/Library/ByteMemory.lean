import Mathlib.Data.UInt
import Mathlib.Logic.Function.Basic

namespace Paulastorm.Library

/-! Strings of bytes in a memory of 32-bit addresses, which wrap. -/

/-- Store bytes from an address on. -/
def storeBytes (address : UInt32) : List UInt8 → (UInt32 → UInt8) → UInt32 → UInt8
  | [], memory => memory
  | byte :: rest, memory => storeBytes (address + 1) rest (Function.update memory address byte)

/-- The bytes from an address on. -/
def loadBytes (memory : UInt32 → UInt8) (address : UInt32) : Nat → List UInt8
  | 0 => []
  | count + 1 => memory address :: loadBytes memory (address + 1) count

variable {memory : UInt32 → UInt8} {address other : UInt32}

theorem storeBytes_append (address : UInt32) (first second : List UInt8)
    (memory : UInt32 → UInt8) :
    storeBytes address (first ++ second) memory =
      storeBytes (address + UInt32.ofNat first.length) second (storeBytes address first memory) := by
  induction first generalizing address memory with
  | nil =>
      rw [List.nil_append, List.length_nil]
      exact congrArg (storeBytes · second memory) (UInt32.add_zero address).symm
  | cons byte rest ih =>
      rw [List.cons_append, storeBytes, storeBytes, ih, UInt32.add_assoc, List.length_cons,
        Nat.add_comm rest.length, UInt32.ofNat_add]
      rfl

theorem loadBytes_add (memory : UInt32 → UInt8) (address : UInt32) (first second : Nat) :
    loadBytes memory address (first + second) =
      loadBytes memory address first ++
        loadBytes memory (address + UInt32.ofNat first) second := by
  induction first generalizing address with
  | zero =>
      rw [Nat.zero_add, loadBytes, List.nil_append]
      exact congrArg (loadBytes memory · second) (UInt32.add_zero address).symm
  | succ first ih =>
      rw [Nat.succ_add, loadBytes, loadBytes, ih, List.cons_append, UInt32.add_assoc,
        Nat.add_comm first 1, UInt32.ofNat_add]
      rfl

/-- A store leaves the addresses outside it alone. -/
theorem storeBytes_miss {bytes : List UInt8}
    (miss : ∀ index < bytes.length, address + UInt32.ofNat index ≠ other) :
    storeBytes address bytes memory other = memory other := by
  induction bytes generalizing address memory with
  | nil => rfl
  | cons byte rest ih =>
      have first := miss 0 (Nat.succ_pos _)
      rw [show address + UInt32.ofNat 0 = address from UInt32.add_zero address] at first
      rw [storeBytes, ih, Function.update_of_ne first.symm]
      intro index inside
      have later := miss (index + 1) (Nat.succ_lt_succ inside)
      rw [UInt32.add_assoc]
      rwa [Nat.add_comm index 1, UInt32.ofNat_add] at later

/-- What is stored is loaded again. -/
theorem loadBytes_storeBytes (bytes : List UInt8) (short : bytes.length ≤ 2 ^ 32)
    (memory : UInt32 → UInt8) (address : UInt32) :
    loadBytes (storeBytes address bytes memory) address bytes.length = bytes := by
  induction bytes generalizing address memory with
  | nil => rfl
  | cons byte rest ih =>
      have below : rest.length + 1 ≤ 2 ^ 32 := short
      rw [List.length_cons, loadBytes, storeBytes, ih (by omega), storeBytes_miss,
        Function.update_self]
      intro index inside same
      have number := congrArg UInt32.toNat same
      have one : (1 : UInt32).toNat = 1 := rfl
      rw [UInt32.toNat_add, UInt32.toNat_add, one, UInt32.toNat_ofNat_of_lt' (by
        change index < 2 ^ 32
        omega)] at number
      have bound := address.toNat_lt
      omega

end Paulastorm.Library
