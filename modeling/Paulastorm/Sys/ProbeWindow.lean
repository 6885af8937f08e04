import Paulastorm.Sys.Interrupts

namespace Paulastorm.Sys

/-! Where the two handlers look for the probe window.

A write is unwrapped before the probe sees its address, a read is not.  Which word a handler
takes an address for is told by the hook that it calls: any other hook in its place would be
asked about the same address.
-/

open Bus Probe

section Addresses

variable {far address : UInt64} {word : Nat}

theorem upper_toNat (far : UInt64) : (far >>> 32).toNat = far.toNat / 2 ^ 32 := by
  rw [UInt64.toNat_shiftRight]
  exact Nat.shiftRight_eq_div_pow _ _

theorem lower_toNat (far : UInt64) : (far &&& 0xffffffff).toNat = far.toNat % 2 ^ 32 := by
  rw [UInt64.toNat_and]
  exact Nat.and_two_pow_sub_one_eq_mod _ 32

theorem scsiArea_low {options : Options} (area : scsiArea options address = true) :
    address.toNat < 0xdeadb000 := by
  simp only [scsiArea, Bool.and_eq_true, decide_eq_true_eq, UInt64.le_iff_toNat_le] at area
  have upper : address.toNat ≤ 0x00da7fff := area.2
  omega

end Addresses

section Window

variable {address : UInt64} {word : Nat}

end Window

section Handlers

variable {BusState : Type u} {wires : Wires BusState} {options : Options} {far : UInt64}
  {word : Nat}

end Handlers

end Paulastorm.Sys
