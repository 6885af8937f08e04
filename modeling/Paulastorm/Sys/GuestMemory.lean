import Paulastorm.Bus.Memory
import Paulastorm.Sys.Samples

namespace Paulastorm.Sys

/-! Chip RAM as the guest sees it through the two handlers.

The bus has nothing but memory on it.  Whatever the boot options, and whatever the guest
accesses elsewhere, the first two megabytes are one flat big-endian memory, but for the
ROM overlay and for writes that `block_c0` swallows in the rewritten trapdoor area.
-/

open Bus Library Mirror

/-- An access that begins and ends on the same side of every border of the memory map. -/
def Whole (size : Nat) (far : UInt64) : Prop :=
  ∀ border ∈ [0x80000, 0x100000, 0x200000, 0xC00000, 0xC80000, 0x1000000],
    far.toNat + size ≤ border ∨ border ≤ far.toNat

instance Whole.decidable (size : Nat) (far : UInt64) : Decidable (Whole size far) :=
  inferInstanceAs (Decidable (∀ border ∈ _, _))

/-- An access to Chip RAM. -/
def InChip (far : UInt64) : Prop := far.toNat < 0x200000

instance InChip.decidable (far : UInt64) : Decidable (InChip far) := inferInstanceAs (Decidable (_ < _))

/-- A write that `block_c0` swallows after `move_slow_to_chip` has rewritten its address. -/
def swallowed (options : Options) (far : UInt64) : Bool :=
  options.moveSlowToChip && trapdoorArea far && options.blockC0

/-- Where the bus has a byte of the guest's Chip RAM. -/
def place (options : Options) (address : Nat) : Nat :=
  if options.moveSlowToChip = true ∧ 0x80000 ≤ address ∧ address < 0x100000 then address + 0xB80000
  else address

section Places

variable {options : Options} {far : UInt64} {size : Nat}

theorem trapdoorArea_iff : trapdoorArea far = true ↔ 0x80000 ≤ far.toNat ∧ far.toNat < 0x100000 := by
  simp only [trapdoorArea, Bool.and_eq_true, decide_eq_true_eq, UInt64.le_iff_toNat_le]
  change 0x80000 ≤ far.toNat ∧ far.toNat ≤ 0xFFFFF ↔ _
  omega

theorem slowArea_iff : slowArea far = true ↔ 0xC00000 ≤ far.toNat ∧ far.toNat < 0xC80000 := by
  simp only [slowArea, Bool.and_eq_true, decide_eq_true_eq, UInt64.le_iff_toNat_le]
  change 0xC00000 ≤ far.toNat ∧ far.toNat ≤ 0xC7FFFF ↔ _
  omega

theorem trapdoorAddress_toNat :
    (trapdoorAddress options far).toNat = place options far.toNat := by
  unfold trapdoorAddress place
  simp only [Bool.and_eq_true, trapdoorArea_iff]
  split
  next rewritten =>
    rw [UInt64.toNat_add]
    change (far.toNat + 0xB80000) % 2 ^ 64 = _
    omega
  next => rfl

/-- A whole access is laid out on the bus as it is in Chip RAM. -/
theorem place_add (whole : Whole size far) {index : Nat} (inside : index < size) :
    place options (far.toNat + index) = place options far.toNat + index := by
  have first := whole 0x80000 (by decide)
  have second := whole 0x100000 (by decide)
  unfold place
  by_cases moves : options.moveSlowToChip = true
  · simp only [moves, true_and]
    split <;> split <;> omega
  · rw [if_neg (fun both => moves both.1), if_neg (fun both => moves both.1)]

theorem place_injective {first second : Nat} (left : first < 0x200000) (right : second < 0x200000)
    (same : place options first = place options second) : first = second := by
  unfold place at same
  split at same <;> split at same <;> omega

theorem busAddress_chip (chip : InChip far) : busAddress options far =
    if swallowed options far then none else some (trapdoorAddress options far) := by
  have fast : slowArea far = false := by
    rw [Bool.eq_false_iff, ne_eq, slowArea_iff]
    unfold InChip at chip
    omega
  by_cases rewritten : (options.moveSlowToChip && trapdoorArea far) = true
  · have slow : slowArea (far + 0xB80000) = true := by
      have area := trapdoorArea_iff.mp (Bool.and_eq_true_iff.mp rewritten).2
      rw [slowArea_iff, UInt64.toNat_add]
      change 0xC00000 ≤ (far.toNat + 0xB80000) % 2 ^ 64 ∧ (far.toNat + 0xB80000) % 2 ^ 64 < _
      omega
    simp only [busAddress, swallowed, trapdoorAddress, slow, rewritten, Bool.true_and, if_true]
  · simp [busAddress, swallowed, trapdoorAddress, rewritten, fast]

end Places

section Handlers

variable {options : Options} {value value2 far : UInt64} {size : Nat} {state : State}
  (floating : UInt32 → UInt8) (memory : Nat → UInt8)

/-- Nothing of the memory map above Chip RAM is at an address of Chip RAM. -/
theorem InChip.below (chip : InChip far) {address : UInt64} (above : 0x200000 ≤ address.toNat) :
    ¬ address ≤ far := by
  rw [UInt64.le_iff_toNat_le]
  unfold InChip at chip
  omega

theorem InChip.ne (chip : InChip far) {address : UInt64} (above : 0x200000 ≤ address.toNat) :
    far ≠ address := by
  rintro rfl
  exact absurd chip (Nat.not_lt.mpr above)

theorem InChip.upper (chip : InChip far) : far >>> 32 = 0 := by
  rw [← UInt64.toNat_inj, UInt64.toNat_shiftRight, Nat.shiftRight_eq_div_pow]
  change far.toNat / 2 ^ 32 = 0
  unfold InChip at chip
  omega

theorem InChip.scsi (chip : InChip far) : scsiArea options far = false := by
  simp [scsiArea, @InChip.below _ chip 0x00da0000 (by decide)]

/-- What the handler stores on the bus for a write to Chip RAM. -/
theorem write_chip (chip : InChip (unwrap far)) :
    (sysWriteValToAddr (memoryWires floating) options value value2 size far state memory).2.2 =
      if swallowed options (unwrap far) then memory
      else store (located (trapdoorAddress options (unwrap far)).toUInt32
        (writtenBytes value value2 size)) memory := by
  have window : unwrap far < Probe.probeBase := UInt64.not_le.mp (chip.below (by decide))
  have sent : ∀ before, driveWrite options value (unwrap far) before = (value, before) :=
    fun before => if_neg fun both => chip.ne (by decide) both.1
  have waiting : ∀ before, waitingBoard options (unwrap far) before = none :=
    fun before => if_neg fun within => chip.below (by decide) within.2.1
  have serial : ¬(unwrap far = 0xdeadbeef ∧ size = 1) :=
    fun both => chip.ne (by decide) both.1
  have unmapped : ¬ 0x1000000 ≤ unwrap far := chip.below (by decide)
  simp only [sysWriteValToAddr, writeAround, chip.upper, chip.scsi, Probe.busWrite, if_pos (Or.inl window),
    writeMapped, if_neg serial, if_neg unmapped, sent, waiting, busAddress_chip chip,
    ne_eq, not_true_eq_false, if_false, Bool.false_eq_true]
  cases swallowed options (unwrap far) with
  | true => rfl
  | false => exact (writeSized_writes value value2 size _).stores floating memory

/-- What it stores for any other write. -/
theorem write_elsewhere :
    (sysWriteValToAddr (memoryWires floating) options value value2 size far state memory).2.2 =
      memory ∨
    ∃ sent bus, unwrap far < 0x1000000 ∧ busAddress options (unwrap far) = some bus ∧
      (sysWriteValToAddr (memoryWires floating) options value value2 size far state memory).2.2 =
        store (located bus.toUInt32 (writtenBytes sent value2 size)) memory := by
  simp only [sysWriteValToAddr, writeAround]
  split
  · exact .inl rfl
  split
  · exact .inl rfl
  generalize (if unwrap far = intreq then shadowIntreq _ value else _) = before
  split
  · exact .inl rfl
  simp only [writeMapped]
  split_ifs with serial unmapped
  · exact .inl rfl
  · exact .inl rfl
  · cases waitingBoard options (unwrap far) _ with
    | some board => exact .inl rfl
    | none =>
        cases reached : busAddress options (unwrap far) with
        | none => exact .inl rfl
        | some bus =>
            exact .inr ⟨_, bus, UInt64.not_le.mp unmapped, rfl,
              (writeSized_writes _ value2 size bus).stores floating memory⟩

/-- What the handler reads from Chip RAM, where no ROM is laid over it. -/
theorem read_chip (chip : InChip (unwrap far))
    (bare : ¬(options.romMapped ∧ state.overlay ≠ 0 ∧ (unwrap far).toNat < 0x80000)) :
    sysReadValFromAddr (memoryWires floating) options value value2 size far state memory =
      (true, (readSized (memoryWires floating) value value2 size
          (trapdoorAddress options (unwrap far)) memory).1,
        (readSized (memoryWires floating) value value2 size
          (trapdoorAddress options (unwrap far)) memory).2.1, state,
        (readSized (memoryWires floating) value value2 size
          (trapdoorAddress options (unwrap far)) memory).2.2) := by
  have slow : slowArea (unwrap far) = false := by
    simp [slowArea, @InChip.below _ chip 0xc00000 (by decide)]
  have zorro : zorroRead options size (unwrap far) = false := by
    simp [zorroRead, @InChip.below _ chip 0xe80000 (by decide)]
  have unmapped : ¬ 0x1000000 ≤ unwrap far := chip.below (by decide)
  have overlaid : ¬(options.romMapped ∧ state.overlay ≠ 0 ∧ unwrap far < 0x80000) :=
    fun both => bare ⟨both.1, both.2.1, UInt64.lt_iff_toNat_lt.mp both.2.2⟩
  have probe : Probe.busRead state.metrics size far = none := by
    refine if_pos (or_iff_not_imp_left.mpr fun above => ?_)
    by_contra below
    have least : 0xdeadb000 ≤ far.toNat := UInt64.le_iff_toNat_le.mp (UInt64.not_lt.mp above)
    have most : far.toNat < 0xdeadb200 := UInt64.lt_iff_toNat_lt.mp (UInt64.not_le.mp below)
    have low : (far >>> 32).toNat = 0 := by
      rw [UInt64.toNat_shiftRight, Nat.shiftRight_eq_div_pow]
      change far.toNat / 2 ^ 32 = 0
      omega
    have same : unwrap far = far := by
      refine if_neg ?_
      rintro (one | ones)
      · rw [one] at low
        cases low
      · rw [ones] at low
        cases low
    rw [same, InChip] at chip
    omega
  have corrected : ∀ value, readCorrected options size (trapdoorAddress options (unwrap far)) value
      state = (value, state) := by
    intro value
    have reached : (trapdoorAddress options (unwrap far)).toNat < 0x200000 ∨
        (0xC00000 ≤ (trapdoorAddress options (unwrap far)).toNat ∧
          (trapdoorAddress options (unwrap far)).toNat < 0xC80000) := by
      rw [trapdoorAddress_toNat, place]
      unfold InChip at chip
      split <;> omega
    have ne : ∀ address : UInt64, (0x200000 ≤ address.toNat ∧ address.toNat < 0xC00000) ∨
        0xC80000 ≤ address.toNat → trapdoorAddress options (unwrap far) ≠ address := by
      rintro address outside same
      rw [same] at reached
      omega
    have masked : ∀ address : UInt64, 0xC80000 ≤ address.toNat →
        trapdoorAddress options (unwrap far) &&& ~~~(1 : UInt64) ≠ address := by
      rintro address outside rfl
      have smaller : (trapdoorAddress options (unwrap far) &&& ~~~(1 : UInt64)).toNat ≤
          (trapdoorAddress options (unwrap far)).toNat := by
        rw [UInt64.toNat_and]
        exact Nat.and_le_left
      omega
    simp only [readCorrected, if_neg (masked intenar (by decide)),
      if_neg (masked intreqr (by decide)), ne ciaapra (by decide), ne ciabprb (by decide),
      ne vposr (by decide), false_and, if_false]
  simp only [sysReadValFromAddr, readAround, probe, chip.upper, chip.scsi, readMapped, slow, skipDisabled, zorro,
    romBoard, corrected, ne_eq, not_true_eq_false, if_false, Bool.false_and, Bool.and_false,
    Bool.false_eq_true, if_neg unmapped, if_neg overlaid]

/-- The values that a read returns are those that the bytes found spell. -/
def Spells (memory : Nat → UInt8) (address : UInt32) (size : Nat) (value value2 : UInt64)
    (read : UInt64 × UInt64) : Prop :=
  match size with
  | 1 | 2 | 4 | 8 => read.1.toNat = ofBigEndian (fetch memory address size) ∧ read.2 = value2
  | 16 => read.1.toNat = ofBigEndian (fetch memory address 8) ∧
      read.2.toNat = ofBigEndian (fetch memory (address + 8) 8)
  | _ => read = (value, value2)

theorem readSized_unknown {State : Type u} (wires : Wires State) (unknown : size ∉ knownSizes)
    (bus : State) : readSized wires value value2 size far bus = (value, value2, bus) := by
  simp only [knownSizes, List.mem_cons, List.not_mem_nil, or_false, not_or] at unknown
  obtain ⟨one, two, four, eight, sixteen⟩ := unknown
  unfold readSized
  split <;> first | contradiction | rfl

theorem spells_unknown (unknown : size ∉ knownSizes) (address : UInt32) :
    Spells memory address size value value2 (value, value2) := by
  simp only [knownSizes, List.mem_cons, List.not_mem_nil, or_false, not_or] at unknown
  obtain ⟨one, two, four, eight, sixteen⟩ := unknown
  unfold Spells
  split <;> first | contradiction | rfl

theorem readSized_spells (value value2 : UInt64) (size : Nat) (far : UInt64) :
    let seen := readSized (memoryWires floating) value value2 size far memory
    Spells memory far.toUInt32 size value value2 (seen.1, seen.2.1) ∧ seen.2.2 = memory := by
  by_cases known : size ∈ knownSizes
  · simp only [knownSizes, List.mem_cons, List.not_mem_nil, or_false] at known
    rcases known with rfl | rfl | rfl | rfl | rfl
    · obtain ⟨read, same⟩ := psRead8_fetch floating memory far.toUInt32
      exact ⟨show _ ∧ _ from ⟨(UInt32.toNat_toUInt64 _).trans read, rfl⟩, same⟩
    · obtain ⟨read, same⟩ := psRead16_fetch floating memory far.toUInt32
      exact ⟨show _ ∧ _ from ⟨(UInt32.toNat_toUInt64 _).trans read, rfl⟩, same⟩
    · obtain ⟨read, same⟩ := psRead32_fetch floating memory far.toUInt32
      exact ⟨show _ ∧ _ from ⟨(UInt32.toNat_toUInt64 _).trans read, rfl⟩, same⟩
    · obtain ⟨read, same⟩ := psRead64_fetch floating memory far.toUInt32
      exact ⟨show _ ∧ _ from ⟨read, rfl⟩, same⟩
    · obtain ⟨read, read2, same⟩ := psRead128_fetch floating memory far.toUInt32
      exact ⟨show _ ∧ _ from ⟨read, read2⟩, same⟩
  · simp only [readSized_unknown _ known]
    exact ⟨spells_unknown memory known _, trivial⟩

/-- A read leaves the memory alone. -/
theorem read_memory : (sysReadValFromAddr (memoryWires floating) options value value2 size far state
    memory).2.2.2.2 = memory := by
  have sized := fun value value2 far => (readSized_spells floating memory value value2 size far).2
  simp only [sysReadValFromAddr, readAround]
  split
  · rfl
  split
  · rfl
  split
  · rfl
  split
  · rfl
  simp only [readMapped]
  split
  · rfl
  split
  · rfl
  split
  · rfl
  split
  · rfl
  exact sized _ _ _

end Handlers

/-- The handlers' variables, the memory on the bus, and what the guest last stored in Chip RAM. -/
structure Guest where
  sys : State
  memory : Nat → UInt8
  chip : Nat → UInt8

/-- A guest access that a handler serves, or an interrupt of the ARM core. -/
inductive GuestStep where
  | write (write : GuestWrite)
  | read (floating : UInt32 → UInt8) (value value2 : UInt64) (size : Nat) (far : UInt64)
  | interrupt

def Guest.step (options : Options) (step : GuestStep) (guest : Guest) : Option Guest :=
  match step with
  | .write write =>
      let done := sysWriteValToAddr (memoryWires fun _ => 0) options write.value write.value2
        write.size write.far guest.sys guest.memory
      let chip := if swallowed options (unwrap write.far) then guest.chip
        else store write.stores guest.chip
      some ⟨done.2.1, done.2.2, chip⟩
  | .read floating value value2 size far =>
      let done := sysReadValFromAddr (memoryWires floating) options value value2 size far
        guest.sys guest.memory
      some ⟨done.2.2.2.1, done.2.2.2.2, guest.chip⟩
  | .interrupt => some { guest with sys := armInterrupt guest.sys }

def guest (options : Options) : Machine Guest GuestStep := ⟨Guest.step options⟩

/-- The guest has stored nothing yet. -/
def Guest.start (options : Options) (sys : State) (memory : Nat → UInt8) : Guest :=
  ⟨sys, memory, fun address => memory (place options address)⟩

/-- No write straddles a border of the memory map. -/
def GuestStep.whole (step : GuestStep) (_ : Guest) : Prop :=
  match step with
  | .write access => Whole access.size (unwrap access.far)
  | _ => True

instance GuestStep.whole.decidable (step : GuestStep) (guest : Guest) :
    Decidable (step.whole guest) :=
  match step with
  | .write access => Whole.decidable access.size (unwrap access.far)
  | .read .. | .interrupt => .isTrue trivial

section Runs

variable {options : Options} {before after : Guest}

/-- Chip RAM is on the bus, each byte at its place. -/
def Placed (options : Options) (guest : Guest) : Prop :=
  ∀ address < 0x200000, guest.memory (place options address) = guest.chip address

theorem writtenBytes_le (value value2 : UInt64) (size : Nat) :
    (writtenBytes value value2 size).length ≤ size := by
  unfold writtenBytes
  split
  all_goals first
    | exact Nat.zero_le _
    | exact (bigEndian_length _ _).le

/-- The address of a byte of an access. -/
theorem cell_toNat {far : UInt64} {size index : Nat} (inside : index < size)
    (fits : far.toNat + size ≤ 2 ^ 24) :
    ((far.toUInt32 + UInt32.ofNat index) &&& 0xffffff).toNat = far.toNat + index := by
  have small : (UInt32.ofNat index).toNat = index :=
    UInt32.toNat_ofNat_of_lt' (by change index < 2 ^ 32; omega)
  rw [mask_toNat, UInt32.toNat_add, small, UInt64.toNat_toUInt32]
  omega

theorem fits_of_chip {far : UInt64} {size : Nat} (whole : Whole size far) (chip : InChip far) :
    far.toNat + size ≤ 0x200000 := by
  have border := whole 0x200000 (by decide)
  unfold InChip at chip
  omega

theorem trapdoor_chip {far : UInt64} (area : trapdoorArea far = true) : InChip far :=
  Nat.lt_trans (trapdoorArea_iff.mp area).2 (by decide)

/-- An access elsewhere is clear of Chip RAM, to the guest and on the bus. -/
theorem elsewhere_clear {far : UInt64} {size address : Nat} {bytes : List UInt8}
    (whole : Whole size far) (elsewhere : ¬ InChip far) (low : far < 0x1000000)
    (short : bytes.length ≤ size) (inside : address < 0x200000) :
    (∀ cell ∈ located far.toUInt32 bytes, cell.1.toNat ≠ address) ∧
      ∀ bus, busAddress options far = some bus →
        ∀ cell ∈ located bus.toUInt32 bytes, cell.1.toNat ≠ place options address := by
  have bound : far.toNat < 0x1000000 := UInt64.lt_iff_toNat_lt.mp low
  have top := whole 0x1000000 (by decide)
  have slowStart := whole 0xC00000 (by decide)
  unfold InChip at elsewhere
  have straight : trapdoorArea far = false := by
    rw [Bool.eq_false_iff, ne_eq, trapdoorArea_iff]
    omega
  have cells : ∀ cell ∈ located far.toUInt32 bytes, ∃ index < size,
      cell.1.toNat = far.toNat + index := by
    intro cell member
    obtain ⟨index, within, found⟩ := located_address member
    refine ⟨index, Nat.lt_of_lt_of_le within short, ?_⟩
    rw [found, UInt64.toNat_toUInt32]
    omega
  refine ⟨fun cell member same => ?_, fun bus reached cell member same => ?_⟩
  · obtain ⟨index, within, found⟩ := cells cell member
    omega
  · simp only [busAddress, straight, Bool.and_false, Bool.false_eq_true, if_false] at reached
    split at reached
    · cases reached
    next direct =>
      split at reached
      · cases reached
      · cases reached
        obtain ⟨index, within, found⟩ := cells cell member
        simp only [Bool.and_eq_true, slowArea_iff, not_and] at direct
        unfold place at same
        split at same
        next rewritten =>
          have outside := direct rewritten.1
          omega
        · omega

/-- A write to Chip RAM stores on the bus what the guest stores in Chip RAM. -/
theorem write_placed {write : GuestWrite} (placed : Placed options before)
    (whole : Whole write.size (unwrap write.far))
    (taken : (guest options).step (.write write) before = some after) : Placed options after := by
  obtain ⟨value, value2, size, far⟩ := write
  dsimp only at whole
  obtain rfl := Option.some.inj taken
  intro address inside
  have length := writtenBytes_le value value2 size
  change (sysWriteValToAddr (memoryWires fun _ => 0) options value value2 size far before.sys
      before.memory).2.2 (place options address) =
    (if swallowed options (unwrap far) then before.chip
      else store (GuestWrite.stores ⟨value, value2, size, far⟩) before.chip) address
  by_cases chip : InChip (unwrap far)
  · have fits := fits_of_chip whole chip
    have low : unwrap far < 0x1000000 := UInt64.not_le.mp (chip.below (by decide))
    rw [write_chip _ _ chip]
    cases swallowed options (unwrap far) with
    | true => exact placed address inside
    | false =>
        simp only [Bool.false_eq_true, if_false, GuestWrite.stores, if_pos low]
        refine store_located_congr _ (fun index within => ?_) (placed address inside)
        have bus := @trapdoorAddress_toNat options (unwrap far)
        have covered := Nat.lt_of_lt_of_le within length
        have added := @place_add options _ _ whole _ covered
        have bounded : place options (unwrap far).toNat + size ≤ 2 ^ 24 := by
          unfold place
          split <;> omega
        rw [cell_toNat covered (by rw [bus]; exact bounded), cell_toNat covered (by omega), bus,
          ← added]
        exact ⟨fun same => place_injective inside (by omega) same, fun same => by rw [same]⟩
  · have direct : swallowed options (unwrap far) = false := by
      simp [swallowed, Bool.eq_false_iff.mpr fun area => chip (trapdoor_chip area)]
    rw [direct, if_neg Bool.false_ne_true, GuestWrite.stores]
    split
    next low =>
      have clear := fun sent => @elsewhere_clear options _ _ _ (writtenBytes sent value2 size) whole
        chip low (writtenBytes_le sent value2 size) inside
      rw [store_miss (clear value).1 before.chip]
      rcases @write_elsewhere options value value2 far size before.sys (fun _ => 0) before.memory with
        same | ⟨sent, bus, low, reached, stored⟩
      · rw [same, placed address inside]
      · rw [stored, store_miss ((clear sent).2 bus reached), placed address inside]
    next high =>
      rcases @write_elsewhere options value value2 far size before.sys (fun _ => 0) before.memory with
        same | ⟨sent, bus, low, reached, stored⟩
      · rw [same]
        exact placed address inside
      · exact absurd low high

theorem step_placed {step : GuestStep} (placed : Placed options before)
    (permitted : step.whole before) (taken : (guest options).step step before = some after) :
    Placed options after := by
  cases step with
  | write write => exact write_placed placed permitted taken
  | read floating value value2 size far =>
      obtain rfl := Option.some.inj taken
      intro address inside
      change (sysReadValFromAddr (memoryWires floating) options value value2 size far before.sys
        before.memory).2.2.2.2 (place options address) = before.chip address
      rw [read_memory]
      exact placed address inside
  | interrupt =>
      obtain rfl := Option.some.inj taken
      exact placed

/-- The bytes of an access are the same on the bus and in Chip RAM. -/
theorem fetch_placed (placed : Placed options after) {far : UInt64} {size offset count : Nat}
    (whole : Whole size far) (chip : InChip far) (within : offset + count ≤ size) :
    fetch after.memory ((trapdoorAddress options far).toUInt32 + UInt32.ofNat offset) count =
      fetch after.chip (far.toUInt32 + UInt32.ofNat offset) count := by
  have fits := fits_of_chip whole chip
  have bounded : (trapdoorAddress options far).toNat + size ≤ 2 ^ 24 := by
    rw [trapdoorAddress_toNat]
    unfold place
    split <;> omega
  refine fetch_congr fun index inside => ?_
  rw [UInt32.add_assoc, UInt32.add_assoc, ← UInt32.ofNat_add,
    @cell_toNat _ size _ (by omega) bounded, @cell_toNat _ size _ (by omega) (by omega),
    trapdoorAddress_toNat, ← place_add whole (by omega)]
  exact placed _ (by omega)

theorem Spells.placed (placed : Placed options after) {far value value2 : UInt64} {size : Nat}
    {read : UInt64 × UInt64} (whole : Whole size far) (chip : InChip far)
    (spells : Spells after.memory (trapdoorAddress options far).toUInt32 size value value2 read) :
    Spells after.chip far.toUInt32 size value value2 read := by
  have start := fun count => @fetch_placed options after placed far size 0 count whole chip
  have rest := @fetch_placed options after placed far size 8 8 whole chip
  simp only [show UInt32.ofNat 0 = 0 from rfl, UInt32.add_zero, Nat.zero_add] at start
  unfold Spells at spells ⊢
  split at spells
  · rwa [← start 1 (Nat.le_refl 1)]
  · rwa [← start 2 (Nat.le_refl 2)]
  · rwa [← start 4 (Nat.le_refl 4)]
  · rwa [← start 8 (Nat.le_refl 8)]
  · rw [start 8 (by decide)] at spells
    exact ⟨spells.1, spells.2.trans (congrArg ofBigEndian (rest (by decide)))⟩
  · exact spells

/-- After any run of guest accesses and interrupts whose writes are whole, whatever the options and
wherever the accesses are, a read of Chip RAM spells the bytes that the guest last stored there. -/
theorem chip_ram_flat {sys : State} {memory : Nat → UInt8} {steps : List GuestStep}
    (run : (guest options).Runs GuestStep.whole (.start options sys memory) steps after)
    (floating : UInt32 → UInt8) (value value2 : UInt64) {size : Nat} {far : UInt64}
    (chip : InChip (unwrap far)) (whole : Whole size (unwrap far))
    (bare : ¬(options.romMapped ∧ after.sys.overlay ≠ 0 ∧ (unwrap far).toNat < 0x80000)) :
    ∃ read, sysReadValFromAddr (memoryWires floating) options value value2 size far after.sys
        after.memory = (true, read.1, read.2, after.sys, after.memory) ∧
      Spells after.chip (unwrap far).toUInt32 size value value2 read := by
  have placed : Placed options after := run.invariant
    (fun _ _ _ permitted taken placed => step_placed placed permitted taken) fun _ _ => rfl
  obtain ⟨spells, same⟩ := readSized_spells floating after.memory value value2 size
    (trapdoorAddress options (unwrap far))
  exact ⟨_, by rw [read_chip floating after.memory chip bare, same], spells.placed placed whole chip⟩

end Runs

/-- A stock machine but for the trapdoor memory, which is shown in Chip RAM. -/
def expanded : Options := { stock with moveSlowToChip := true, romMapped := true }

/-- A longword through the mirror of the address space, and a word at an odd address in it. -/
def overlappingWrites : List GuestStep :=
  [.write ⟨0x11223344, 0, 4, 0x1000FFFF0⟩, .interrupt, .write ⟨0xAABB, 0, 2, 0xFFFF1⟩]

def blankGuest : Guest := .start expanded (powerOn [] Probe.init).sys fun _ => 0

set_option maxRecDepth 20000 in
theorem chip_ram_flat_of_overlappingWrites : ∃ after read,
    (guest expanded).Runs GuestStep.whole blankGuest overlappingWrites after ∧
    sysReadValFromAddr (memoryWires fun _ => 0xff) expanded 0 0 4 0xFFFF0 after.sys after.memory =
      (true, read, 0, after.sys, after.memory) ∧ read.toNat = 0x11AABB44 := by
  have executed : ((guest expanded).run GuestStep.whole overlappingWrites blankGuest).map
      (fun guest => ofBigEndian (fetch guest.chip 0xFFFF0 4)) = some 0x11AABB44 := by
    decide +kernel
  obtain ⟨after, run, stored⟩ := Machine.runs_of_observed executed
  obtain ⟨⟨read, other⟩, seen, spells, same⟩ :=
    chip_ram_flat run (fun _ => 0xff) 0 0 (show InChip (unwrap 0xFFFF0) by decide +kernel)
      (show Whole 4 (unwrap 0xFFFF0) by decide +kernel) (fun bare => absurd bare.2.2 (by decide +kernel))
  obtain rfl : other = 0 := same
  exact ⟨after, read, run, seen, spells.trans stored⟩

end Paulastorm.Sys
