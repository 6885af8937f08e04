import Paulastorm.Bus.Observed
import Paulastorm.Mirror.PageCache

namespace Paulastorm.Bus

/-! The write cycles of a driver call, as the sample cache meets them.

Each cycle stores its bytes and is followed by one invalidation of the same
address and width, which is the `write` step of the page cache.
-/

open Library Mirror

/-- Bytes stored in a memory, in order. -/
def store (bytes : List (UInt32 × UInt8)) (memory : Nat → UInt8) : Nat → UInt8 :=
  bytes.foldl (fun memory cell => Function.update memory cell.1.toNat cell.2) memory

theorem store_append (first second : List (UInt32 × UInt8)) (memory : Nat → UInt8) :
    store (first ++ second) memory = store second (store first memory) := List.foldl_append

theorem store_miss {bytes : List (UInt32 × UInt8)} {address : Nat}
    (miss : ∀ cell ∈ bytes, cell.1.toNat ≠ address) (memory : Nat → UInt8) :
    store bytes memory address = memory address := by
  induction bytes generalizing memory with
  | nil => rfl
  | cons cell rest ih =>
      have first := miss cell List.mem_cons_self
      rw [store, List.foldl_cons]
      exact (ih (fun other member => miss other (List.mem_cons_of_mem _ member)) _).trans
        (Function.update_of_ne first.symm _ _)

/-- What is stored at an address does not depend on the other addresses. -/
theorem store_congr (bytes : List (UInt32 × UInt8)) {first second : Nat → UInt8} {address : Nat}
    (same : first address = second address) :
    store bytes first address = store bytes second address := by
  induction bytes generalizing first second with
  | nil => exact same
  | cons cell rest ih =>
      refine ih ?_
      change Function.update first cell.1.toNat cell.2 address =
        Function.update second cell.1.toNat cell.2 address
      by_cases here : address = cell.1.toNat
      · rw [here, Function.update_self, Function.update_self]
      · rw [Function.update_of_ne here, Function.update_of_ne here, same]

/-- The write of a cycle: the byte of a byte cycle is on the lane of its address. -/
def Transaction.busWrite (transaction : Transaction) : PageCache.BusWrite :=
  if transaction.byte then
    ⟨transaction.address, 1, (lane transaction.address transaction.data).toUInt16⟩
  else ⟨transaction.address, 2, transaction.data⟩

/-- A bus that collects its write cycles.  A wait for the blitter would not show here: its reads
change nothing. -/
def collector : Wires (List PageCache.BusWrite) where
  write transaction cycles := cycles ++ [transaction.busWrite]
  read _ _ cycles := (0, cycles)
  capture _ _ _ cycles := cycles
  invalidate _ _ cycles := cycles

/-- Chip RAM after some cycles. -/
def applyAll (cycles : List PageCache.BusWrite) (chip : Nat → UInt8) : Nat → UInt8 :=
  cycles.foldl (fun chip write => write.apply chip) chip

section Sound

variable {observation : Observation}

theorem Observation.Sound.wellFormed (sound : observation.Sound) :
    observation.transaction.busWrite.WellFormed := by
  have masked : observation.address &&& 0xffffff = observation.address := by
    rw [← UInt32.toNat_inj, mask_toNat]
    exact Nat.mod_eq_of_lt sound.masked
  have aligned := sound.aligned
  unfold Observation.width at aligned
  unfold Transaction.busWrite
  split
  · exact ⟨masked, .inl rfl⟩
  next word => exact ⟨masked, .inr ⟨rfl, aligned (if_neg word)⟩⟩

theorem Observation.Sound.apply (sound : observation.Sound) (chip : Nat → UInt8) :
    observation.transaction.busWrite.apply chip = store observation.transaction.bytes chip := by
  have masked := sound.masked
  have aligned := sound.aligned
  obtain ⟨⟨address, data, byte⟩, value⟩ := observation
  cases byte with
  | true =>
      have narrow : (lane address data).toUInt16.toUInt8 = lane address data := by simp
      change Function.update chip address.toNat (lane address data).toUInt16.toUInt8 =
        Function.update chip address.toNat (lane address data)
      rw [narrow]
  | false =>
      have even : address &&& 1 = 0 := aligned rfl
      have upper : lane address data = (data >>> 8).toUInt8 := if_pos even
      have lower : lane (address + 1) data = data.toUInt8 := if_neg (odd_succ even)
      have next : (address + 1).toNat = address.toNat + 1 := by
        rw [UInt32.toNat_add]
        change (address.toNat + 1) % 2 ^ 32 = _
        change address.toNat < 2 ^ 24 at masked
        omega
      change Function.update (Function.update chip address.toNat (data >>> 8).toUInt8)
          (address.toNat + 1) data.toUInt8 =
        Function.update (Function.update chip address.toNat (lane address data)) (address + 1).toNat
          (lane (address + 1) data)
      rw [upper, lower, next]

end Sound

/-- The cycles of a driver call are well formed, and store what it stores. -/
theorem Writes.collected {waits : Prop} {call : (State : Type) → Wires State → State → State}
    {stored : List (UInt32 × UInt8)} (written : Writes waits call stored) :
    (∀ cycle ∈ call _ collector [], cycle.WellFormed) ∧
      ∀ chip, applyAll (call _ collector []) chip = store stored chip := by
  obtain ⟨observations, sound, bytes, performed⟩ := written.steady
  have steady : Steady collector := fun _ _ _ => rfl
  have cycles : ∀ before, observations.foldl (Observation.perform collector) before =
      before ++ observations.map fun observation => observation.transaction.busWrite := by
    clear performed bytes sound
    induction observations with
    | nil => simp
    | cons observation rest ih =>
        intro before
        rw [List.foldl_cons, ih]
        simp [Observation.perform, collector]
  rw [performed _ _ steady, cycles, List.nil_append, ← bytes]
  constructor
  · intro cycle member
    obtain ⟨observation, listed, rfl⟩ := List.mem_map.mp member
    exact (sound observation listed).wellFormed
  · clear performed cycles bytes
    induction observations with
    | nil => exact fun _ => rfl
    | cons observation rest ih =>
        intro chip
        have first := (sound observation List.mem_cons_self).apply chip
        have later := ih fun other member => sound other (List.mem_cons_of_mem _ member)
        rw [List.flatMap_cons, store_append, ← first]
        exact later _

end Paulastorm.Bus
