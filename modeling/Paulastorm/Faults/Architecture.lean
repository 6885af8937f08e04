import Paulastorm.Faults.IntegerStores
import Paulastorm.Sys.GuestMemory

namespace Paulastorm.Faults

/-! The page fault handlers as an A64 processor with Chip RAM.

`Arch` has the registers X0 to X30 and a flat big-endian memory, and executes an integer
load or store as the instruction set says.  The handlers do the same, one fault after the
other, with the registers of the saved frame and the memory on the bus.
-/

open Bus Library Library.Decode Sys

structure Arch where
  register : Nat → UInt64
  chip : Nat → UInt8

namespace Arch

/-- Number 31 is the zero register. -/
def put (arch : Arch) (put : Nat × UInt64) : Arch :=
  if put.1 = 31 then arch
  else { arch with register := Function.update arch.register put.1 put.2 }

def puts (arch : Arch) (puts : List (Nat × UInt64)) : Arch := puts.foldl Arch.put arch

end Arch

namespace Form

/-- What becomes of the bytes of each register. -/
def extension : Form → Extension
  | .pair _ _ | .literal _ | .exclusive _ => .zero
  | .pairSigned _ | .literalSigned => .signed64
  | .single extension _ _ => extension

/-- What the registers of a load are to hold: their own bytes, one after the other. -/
def fetched (opcode : UInt32) (chip : Nat → UInt8) (address : UInt32) (form : Form) :
    List (Nat × UInt64) :=
  (form.destinations opcode).zipIdx.map fun (number, index) =>
    (number, form.extension.apply form.width (UInt64.ofNat (ofBigEndian
      (fetch chip (address + UInt32.ofNat (index * form.width)) form.width))))

def isExclusive : Form → Bool
  | .exclusive _ => true
  | _ => false

/-- The form adds an index register to its base. -/
def isIndexed : Form → Bool
  | .single _ _ mode => mode == .register
  | _ => false

/-- The address that the instruction set gives; that of a literal is `far`. -/
def target (opcode : UInt32) (far : UInt64) (register : Nat → UInt64) (form : Form) : UInt64 :=
  match form with
  | .exclusive _ => register (rn opcode)
  | form => form.address opcode far register

theorem target_eq {opcode : UInt32} {far : UInt64} {register : Nat → UInt64} {form : Form}
    (faulting : form.isExclusive = true → far = register (rn opcode)) :
    form.target opcode far register = form.address opcode far register := by
  cases form with
  | exclusive scale => exact (faulting rfl).symm
  | pair | pairSigned | literal | literalSigned | single => rfl

end Form

namespace Arch

def store (opcode : UInt32) (form : StoreForm) (arch : Arch) : Arch :=
  let address := unwrap (form.address opcode arch.register)
  { arch.puts (form.changed opcode arch.register) with
    chip :=
      if address < 0x1000000 then
        Bus.store (located address.toUInt32 (form.image opcode arch.register)) arch.chip
      else arch.chip }

def load (opcode : UInt32) (form : Form) (far : UInt64) (arch : Arch) : Arch :=
  let address := unwrap (form.target opcode far arch.register)
  arch.puts (form.fetched opcode arch.chip address.toUInt32 ++ form.written opcode arch.register)

end Arch

section Loaded

variable {memory : Nat → UInt8} {address : UInt32} {value value2 : UInt64} {read : UInt64 × UInt64}
  {opcode : UInt32}

/-- The low bytes of a value decide what it is extended to. -/
theorem extension_congr (extension : Extension) {size : Nat} {first second : UInt64}
    (same : first.toNat % 2 ^ (8 * size) = second.toNat % 2 ^ (8 * size)) :
    extension.apply size first = extension.apply size second := by
  have low : first.toBitVec.setWidth (8 * size) = second.toBitVec.setWidth (8 * size) := by
    apply BitVec.eq_of_toNat_eq
    rw [BitVec.toNat_setWidth, BitVec.toNat_setWidth]
    exact same
  unfold Extension.apply
  rw [low]

theorem quad_toNat (memory : Nat → UInt8) (address : UInt32) {size : Nat} (short : size ≤ 8) :
    (UInt64.ofNat (ofBigEndian (fetch memory address size))).toNat =
      ofBigEndian (fetch memory address size) := by
  apply UInt64.toNat_ofNat_of_lt'
  exact (ofBigEndian_fetch_lt memory address size).trans_le
    (Nat.pow_le_pow_right (by decide) short)

theorem Spells.quad {size : Nat} (sized : size = 1 ∨ size = 2 ∨ size = 4 ∨ size = 8)
    (spells : Spells memory address size value value2 read) :
    UInt64.ofNat (ofBigEndian (fetch memory address size)) = read.1 := by
  have found : read.1.toNat = ofBigEndian (fetch memory address size) := by
    rcases sized with rfl | rfl | rfl | rfl <;> exact spells.1
  rw [← found]
  exact UInt64.ofNat_toNat

/-- The words of a quad. -/
theorem quad_words (found : read.1.toNat = ofBigEndian (fetch memory address 8))
    (extension : Extension) :
    extension.apply 4 (read.1 >>> 32) =
        extension.apply 4 (UInt64.ofNat (ofBigEndian (fetch memory address 4))) ∧
      extension.apply 4 read.1 =
        extension.apply 4 (UInt64.ofNat (ofBigEndian (fetch memory (address + 4) 4))) := by
  have split := ofBigEndian_fetch_add memory address 4 4
  rw [← found] at split
  have high := ofBigEndian_fetch_lt memory address 4
  have low := ofBigEndian_fetch_lt memory (address + 4) 4
  constructor <;> apply extension_congr
  · rw [Sys.upper_toNat, quad_toNat memory address (by decide), split]
    change (_ * 2 ^ 32 + ofBigEndian (fetch memory (address + 4) 4)) / 2 ^ 32 % 2 ^ 32 = _ % 2 ^ 32
    omega
  · rw [quad_toNat memory (address + 4) (by decide), split]
    change (_ * 2 ^ 32 + ofBigEndian (fetch memory (address + 4) 4)) % 2 ^ 32 = _ % 2 ^ 32
    omega

theorem zero_apply_quad (value : UInt64) : Extension.zero.apply 8 value = value :=
  (zero_apply_eq_iff (by decide)).mpr value.toNat_lt

/-- What a load makes of the values read is what it makes of the bytes in memory. -/
theorem loaded_eq_fetched {form : Form}
    (spells : Spells memory address form.bytes value value2 read) :
    form.loaded opcode read.1 read.2 = form.fetched opcode memory address := by
  have start : address + UInt32.ofNat 0 = address := UInt32.add_zero address
  have sizes : ∀ scale : Fin 4, 2 ^ scale.val = 1 ∨ 2 ^ scale.val = 2 ∨ 2 ^ scale.val = 4 ∨
      2 ^ scale.val = 8 := by decide
  have one : form.destinations opcode = [rt opcode] →
      UInt64.ofNat (ofBigEndian (fetch memory address form.width)) = read.1 →
      form.fetched opcode memory address =
        [(rt opcode, form.extension.apply form.width read.1)] := by
    intro single found
    simp only [Form.fetched, single, List.zipIdx_cons, List.zipIdx_nil, List.map_cons, List.map_nil,
      Nat.zero_mul, start, found]
  have two : form.destinations opcode = [rt opcode, rt2 opcode] →
      form.fetched opcode memory address =
        [(rt opcode, form.extension.apply form.width
            (UInt64.ofNat (ofBigEndian (fetch memory address form.width)))),
          (rt2 opcode, form.extension.apply form.width (UInt64.ofNat (ofBigEndian
            (fetch memory (address + UInt32.ofNat form.width) form.width))))] := by
    intro both
    simp only [Form.fetched, both, List.zipIdx_cons, List.zipIdx_nil, List.map_cons, List.map_nil,
      Nat.zero_mul, start, Nat.zero_add, Nat.one_mul]
  cases form with
  | pair double indexing =>
      rw [two rfl]
      cases double with
      | false =>
          obtain ⟨high, low⟩ := quad_words spells.1 .zero
          exact congrArg₂ (fun first second => [(rt opcode, first), (rt2 opcode, second)]) high low
      | true =>
          obtain ⟨first, second⟩ : read.1.toNat = ofBigEndian (fetch memory address 8) ∧
            read.2.toNat = ofBigEndian (fetch memory (address + 8) 8) := spells
          change [(rt opcode, read.1), (rt2 opcode, read.2)] =
            [(rt opcode, Extension.zero.apply 8 (UInt64.ofNat (ofBigEndian (fetch memory address 8)))),
              (rt2 opcode, Extension.zero.apply 8
                (UInt64.ofNat (ofBigEndian (fetch memory (address + 8) 8))))]
          rw [zero_apply_quad, zero_apply_quad, ← first, ← second, UInt64.ofNat_toNat,
            UInt64.ofNat_toNat]
  | pairSigned indexing =>
      rw [two rfl]
      obtain ⟨high, low⟩ := quad_words spells.1 .signed64
      exact congrArg₂ (fun first second => [(rt opcode, first), (rt2 opcode, second)]) high low
  | literal double =>
      have sized : (Form.literal double).width = 4 ∨ (Form.literal double).width = 8 := by
        cases double
        · exact .inl rfl
        · exact .inr rfl
      exact (one rfl (Spells.quad (.inr (.inr sized)) spells)).symm
  | literalSigned => exact (one rfl (@Spells.quad memory address value value2 read 4 (by decide) spells)).symm
  | exclusive scale => exact (one rfl (Spells.quad (sizes scale) spells)).symm
  | single extension scale mode => exact (one rfl (Spells.quad (sizes scale) spells)).symm

end Loaded

/-- A fault that a handler serves, or an interrupt of the ARM core.  `stack` and `floating`
are what the handler finds in its variables and on the lanes that carry no byte. -/
inductive Fault where
  | store (opcode : UInt32) (form : StoreForm)
  | load (opcode : UInt32) (form : Form) (far : UInt64) (stack : UInt64 × UInt64)
      (floating : UInt32 → UInt8)
  | interrupt

/-- What the instruction set asks for. -/
def Fault.execute (fault : Fault) (arch : Arch) : Arch :=
  match fault with
  | .store opcode form => arch.store opcode form
  | .load opcode form far _ _ => arch.load opcode form far
  | .interrupt => arch

/-- What the handlers do. -/
def Fault.step (options : Options) (fault : Fault) (machine : Machine (Nat → UInt8)) :
    Option (Machine (Nat → UInt8)) :=
  match fault with
  | .store opcode _ =>
      let wires := memoryWires fun _ => 0
      let outcome := sysPageFaultWriteHandler wires options (integerStore wires options opcode)
        opcode machine
      if outcome.handled then some outcome.machine else none
  | .load opcode _ far stack floating =>
      let wires := memoryWires floating
      let outcome := sysPageFaultReadHandler wires options
        (integerLoad wires options stack opcode far) opcode far machine
      if outcome.handled then some outcome.machine else none
  | .interrupt => some { machine with sys := armInterrupt machine.sys }

def faults (options : Options) : Library.Machine (Machine (Nat → UInt8)) Fault :=
  ⟨Fault.step options⟩

/-- Number 31 stands for no register of the saved frame. -/
def Framed (opcode : UInt32) (form : Form) : Prop :=
  rn opcode ≠ 31 ∧ (form.isIndexed = true → rm opcode ≠ 31)

instance (opcode : UInt32) (form : Form) : Decidable (Framed opcode form) :=
  inferInstanceAs (Decidable (_ ∧ _))

instance (opcode : UInt32) (form : Form) : Decidable (IsIntegerLoad opcode form) :=
  decidable_of_iff (opcode &&& form.mask = form.pattern ∧ form.allocated = true ∧
      (form.destinations opcode).Nodup ∧
      (form.movesBase = true → rn opcode ≠ 31 → rn opcode ∉ form.destinations opcode))
    ⟨fun ⟨encoded, allocated, distinct, base⟩ => ⟨encoded, allocated, distinct, base⟩,
      fun load => ⟨load.encoded, load.allocated, load.distinct, load.base⟩⟩

instance effectiveDecidable (options : Options) (opcode : UInt32) (ptr : UInt64) (form : Form) :
    Decidable (Effective options opcode ptr form) :=
  match form with
  | .literal _ => inferInstanceAs (Decidable (rt opcode = 31))
  | .pair .. | .pairSigned _ | .literalSigned | .exclusive _ | .single .. =>
      inferInstanceAs (Decidable (_ ∧ _))

/-- Stores anywhere, and loads from Chip RAM, by instructions that use the registers of the
saved frame. -/
def Fault.Served (options : Options) (fault : Fault) (machine : Machine (Nat → UInt8)) : Prop :=
  match fault with
  | .store opcode form =>
      let far := unwrap (form.address opcode machine.register)
      IsIntegerStore opcode form ∧ Framed opcode form.load ∧
        (∀ put ∈ form.changed opcode machine.register, put.1 ≠ 31) ∧
        Whole form.bytes far ∧ swallowed options far = false
  | .load opcode form far _ _ =>
      let ptr := form.address opcode far machine.register
      IsIntegerLoad opcode form ∧ Framed opcode form ∧ Effective options opcode ptr form ∧
        (form.isExclusive = true → far = machine.register (rn opcode)) ∧
        Whole form.bytes (unwrap ptr) ∧ InChip (unwrap ptr) ∧
        ¬(options.romMapped ∧ machine.sys.overlay ≠ 0 ∧ (unwrap ptr).toNat < 0x80000)
  | .interrupt => True

instance servedDecidable (options : Options) (fault : Fault) (machine : Machine (Nat → UInt8)) :
    Decidable (fault.Served options machine) :=
  match fault with
  | .store .. => inferInstanceAs (Decidable (_ ∧ _ ∧ _ ∧ _ ∧ _))
  | .load .. => inferInstanceAs (Decidable (_ ∧ _ ∧ _ ∧ _ ∧ _ ∧ _ ∧ _))
  | .interrupt => .isTrue trivial

/-- The processor as the handlers keep it; `below` is the word below the saved frame. -/
structure Represents (options : Options) (below : UInt64) (machine : Machine (Nat → UInt8))
    (arch : Arch) : Prop where
  register : ∀ number < 31, machine.register number = arch.register number
  below : machine.register 31 = below
  chip : Placed options ⟨machine.sys, machine.bus, arch.chip⟩

section Registers

variable {opcode : UInt32} {far : UInt64} {first second : Nat → UInt64}

theorem Framed.base {form : Form} (framed : Framed opcode form)
    (same : ∀ number < 31, first number = second number) : first (rn opcode) = second (rn opcode) := by
  have small : rn opcode < 32 := number_lt _
  have regular := framed.1
  exact same _ (by omega)

theorem Framed.address {form : Form} (framed : Framed opcode form)
    (same : ∀ number < 31, first number = second number) :
    form.address opcode far first = form.address opcode far second := by
  have base := framed.base same
  cases form with
  | pair double indexing => cases indexing <;> simp only [Form.address, base]
  | pairSigned indexing => cases indexing <;> simp only [Form.address, base]
  | literal | literalSigned | exclusive => rfl
  | single extension scale mode =>
      cases mode with
      | register =>
          have small : rm opcode < 32 := number_lt _
          have regular := framed.2 rfl
          have index : first (rm opcode) = second (rm opcode) := same _ (by omega)
          simp only [Form.address, base, index]
      | unscaled | postIndexed | preIndexed | unsignedOffset => simp only [Form.address, base]

theorem Framed.written {form : Form} (framed : Framed opcode form)
    (same : ∀ number < 31, first number = second number) :
    form.written opcode first = form.written opcode second := by
  simp only [Form.written, framed.base same]

theorem stored_congr (same : ∀ number < 31, first number = second number) {number : Nat}
    (small : number < 32) : stored number first = stored number second := by
  unfold stored
  split
  · rfl
  · exact same number (by omega)

theorem image_congr (form : StoreForm) (same : ∀ number < 31, first number = second number) :
    form.image opcode first = form.image opcode second := by
  have one : stored (rt opcode) first = stored (rt opcode) second :=
    stored_congr same (number_lt _)
  have two : stored (rt2 opcode) first = stored (rt2 opcode) second :=
    stored_congr same (number_lt _)
  cases form <;> simp [StoreForm.image, StoreForm.sources, one, two]

theorem Framed.changed {form : StoreForm} (framed : Framed opcode form.load)
    (same : ∀ number < 31, first number = second number) :
    form.changed opcode first = form.changed opcode second := by
  cases form with
  | exclusive => rfl
  | pair | single => exact framed.written same

variable {BusState : Type u}

/-- Putting registers changes nothing else. -/
theorem puts_frame (puts : List (Nat × UInt64)) (machine : Machine BusState) :
    (puts.foldl (fun machine put => sysPutValueToReg machine put.1 put.2) machine).sys =
        machine.sys ∧
      (puts.foldl (fun machine put => sysPutValueToReg machine put.1 put.2) machine).bus =
        machine.bus := by
  induction puts generalizing machine with
  | nil => exact ⟨rfl, rfl⟩
  | cons put rest ih => exact ih (sysPutValueToReg machine put.1 put.2)

theorem Arch.puts_chip (puts : List (Nat × UInt64)) (arch : Arch) :
    (arch.puts puts).chip = arch.chip := by
  induction puts generalizing arch with
  | nil => rfl
  | cons put rest ih =>
      refine (ih (arch.put put)).trans ?_
      unfold Arch.put
      split <;> rfl

theorem puts_represent (puts : List (Nat × UInt64)) {machine : Machine BusState} {arch : Arch}
    (framed : ∀ put ∈ puts, put.1 ≠ 31)
    (same : ∀ number < 31, machine.register number = arch.register number) :
    (∀ number < 31,
      (puts.foldl (fun machine put => sysPutValueToReg machine put.1 put.2) machine).register
        number = (arch.puts puts).register number) ∧
      (puts.foldl (fun machine put => sysPutValueToReg machine put.1 put.2) machine).register 31 =
        machine.register 31 := by
  induction puts generalizing machine arch with
  | nil => exact ⟨same, rfl⟩
  | cons put rest ih =>
      have regular := framed put List.mem_cons_self
      have kept : (sysPutValueToReg machine put.1 put.2).register 31 = machine.register 31 :=
        Function.update_of_ne regular.symm _ _
      obtain ⟨registers, word⟩ := ih (fun later member => framed later (List.mem_cons_of_mem _ member))
        (show ∀ number < 31, (sysPutValueToReg machine put.1 put.2).register number =
            (arch.put put).register number by
          intro number small
          rw [Arch.put, if_neg regular]
          change Function.update machine.register put.1 put.2 number =
            Function.update arch.register put.1 put.2 number
          rw [Function.update_apply, Function.update_apply, same number small])
      exact ⟨registers, word.trans kept⟩

end Registers

section Steps

variable {options : Options} {below : UInt64} {machine next : Machine (Nat → UInt8)} {arch : Arch}

theorem store_represents {opcode : UInt32} {form : StoreForm}
    (represents : Represents options below machine arch)
    (served : (Fault.store opcode form).Served options machine)
    (taken : (faults options).step (.store opcode form) machine = some next) :
    Represents options below next (arch.store opcode form) := by
  obtain ⟨encoded, framed, regular, whole, direct⟩ := served
  have same := represents.register
  have address : form.address opcode machine.register = form.address opcode arch.register := by
    unfold StoreForm.address
    rw [framed.address same, framed.base same]
  simp only [faults, Fault.step, encoded.handler] at taken
  split at taken
  next handled =>
    obtain rfl := Option.some.inj taken
    clear taken handled
    have fits := encoded.fits machine.register
    generalize form.branch.call opcode machine.register = call at fits
    obtain ⟨ptr, size, value, puts⟩ := call
    obtain ⟨placed, sized, stored, made⟩ := fits
    dsimp only at placed sized stored made
    rw [sized] at stored
    subst placed sized made
    let write : GuestWrite := ⟨value.1, value.2, form.bytes, form.address opcode machine.register⟩
    have stores : Bus.store write.stores arch.chip = (arch.store opcode form).chip := by
      have image := @image_congr opcode _ _ form same
      simp only [GuestWrite.stores, write, stored, Arch.store, address, image]
      split <;> rfl
    let done := sysWriteValToAddr (memoryWires fun _ => 0) options value.1 value.2 form.bytes
      (form.address opcode machine.register) machine.sys machine.bus
    let before : Machine (Nat → UInt8) := { machine with sys := done.2.1, bus := done.2.2 }
    obtain ⟨registers, word⟩ := @puts_represent _ _ before arch regular same
    refine ⟨?_, word.trans represents.below, ?_⟩
    · intro number small
      refine (registers number small).trans ?_
      rw [framed.changed same]
      rfl
    · have after := @write_placed options _ _ write represents.chip whole rfl
      intro byte inside
      have here := after byte inside
      change done.2.2 (place options byte) =
        (if swallowed options (unwrap write.far) then arch.chip
          else Bus.store write.stores arch.chip) byte at here
      rw [direct, if_neg Bool.false_ne_true, stores] at here
      refine Eq.trans ?_ here
      exact congrArg (· (place options byte)) (puts_frame _ before).2
  next => cases taken

/-- The calls of an effective load put what the instruction set asks for. -/
theorem effective_puts {opcode : UInt32} {form : Form} {address : UInt32} {ptr value value2 : UInt64}
    {read : UInt64 × UInt64} {memory : Nat → UInt8} (encoded : IsIntegerLoad opcode form)
    (effective : Effective options opcode ptr form) (chip : InChip (unwrap ptr))
    (spells : Spells memory address form.bytes value value2 read) (register : Nat → UInt64)
    (arch : Arch) :
    (∀ put ∈ form.retired opcode read.1 read.2 ++ form.written opcode register, put.1 ≠ 31) ∧
      arch.puts (form.retired opcode read.1 read.2 ++ form.written opcode register) =
        arch.puts (form.fetched opcode memory address ++ form.written opcode register) := by
  rw [← loaded_eq_fetched spells]
  by_cases literal : ∃ double, form = .literal double
  · obtain ⟨double, rfl⟩ := literal
    have none : rt opcode = 31 := effective
    refine ⟨fun put member => absurd member List.not_mem_nil, ?_⟩
    change arch = arch.put (rt opcode, _)
    rw [Arch.put, if_pos none]
  · have kept : ∀ double, form ≠ .literal double := not_exists.mp literal
    have seen : ∀ size, size = 1 ∨ size = 2 ∨ size = 4 → form.bytes = size →
        if scsiArea options (unwrap ptr) then read.1 = 0xffffffff else Fits size read.1 := by
      intro size sized bytes
      rw [chip.scsi, if_neg Bool.false_ne_true, Fits, Nat.pow_mul]
      rw [bytes] at spells
      have found : read.1.toNat = ofBigEndian (fetch memory address size) := by
        rcases sized with rfl | rfl | rfl <;> exact spells.1
      rw [found]
      exact ofBigEndian_fetch_lt memory address size
    have same := (retired_eq_iff read.2 encoded kept seen).mpr fun _ => chip.scsi
    refine ⟨fun put member => ?_, by rw [same]⟩
    apply ((effective_iff kept ptr).mp effective).1
    rw [← (@puts_numbers _ _ read.1 read.2 register kept).1]
    exact List.mem_map_of_mem member

theorem load_represents {opcode : UInt32} {form : Form} {far : UInt64} {stack : UInt64 × UInt64}
    {floating : UInt32 → UInt8} (represents : Represents options below machine arch)
    (served : (Fault.load opcode form far stack floating).Served options machine)
    (taken : (faults options).step (.load opcode form far stack floating) machine = some next) :
    Represents options below next (arch.load opcode form far) := by
  obtain ⟨encoded, framed, effective, faulting, whole, chip, bare⟩ := served
  have same := represents.register
  have address : form.address opcode far machine.register = form.target opcode far arch.register := by
    rw [framed.address same, Form.target_eq]
    exact fun exclusive => (faulting exclusive).trans (framed.base same)
  simp only [faults, Fault.step, encoded.handler] at taken
  split at taken
  next handled =>
    obtain rfl := Option.some.inj taken
    clear taken handled
    have fits := encoded.fits stack far machine.register
    generalize form.branch.call stack opcode far machine.register = call at fits
    obtain ⟨ptr, size, tmp, retire, always⟩ := call
    obtain ⟨placed, sized, made⟩ := fits
    dsimp only at placed sized
    subst placed sized
    obtain ⟨spells, memory⟩ := readSized_spells floating machine.bus tmp.1 tmp.2 form.bytes
      (trapdoorAddress options (unwrap (form.address opcode far machine.register)))
    have read := @read_chip options tmp.1 tmp.2 _ form.bytes machine.sys floating machine.bus chip bare
    rw [memory] at read
    clear memory
    generalize (readSized (memoryWires floating) tmp.1 tmp.2 form.bytes
      (trapdoorAddress options (unwrap (form.address opcode far machine.register))) machine.bus) =
        seen at spells read
    obtain ⟨value, value2, bus⟩ := seen
    dsimp only at spells read
    have shown := spells.placed represents.chip whole chip
    obtain ⟨regular, puts⟩ := effective_puts encoded effective chip shown machine.register arch
    obtain ⟨registers, word⟩ := @puts_represent _ _ machine arch regular same
    simp only [Call.run, Call.made, Call.read, read, made]
    refine ⟨?_, word.trans represents.below, ?_⟩
    · intro number small
      refine (registers number small).trans ?_
      rw [puts, address, framed.written same]
      rfl
    · intro byte inside
      refine (congrArg (· (place options byte)) (puts_frame _ machine).2).trans ?_
      refine (represents.chip byte inside).trans ?_
      exact congrArg (· byte) (Arch.puts_chip _ arch).symm
  next => cases taken

theorem step_represents {fault : Fault} (represents : Represents options below machine arch)
    (served : fault.Served options machine) (taken : (faults options).step fault machine = some next) :
    Represents options below next (fault.execute arch) := by
  cases fault with
  | store opcode form => exact store_represents represents served taken
  | load opcode form far stack floating => exact load_represents represents served taken
  | interrupt =>
      obtain rfl := Option.some.inj taken
      exact ⟨represents.register, represents.below, represents.chip⟩

/-- Over any run of faults, in any order and with interrupts between them, the handlers do
what the instruction set asks of the integer loads and stores. -/
theorem faults_refine_architecture {faulted : List Fault}
    (represents : Represents options below machine arch)
    (run : (faults options).Runs (Fault.Served options) machine faulted next) :
    Represents options below next (faulted.foldl (fun arch fault => fault.execute arch) arch) :=
  run.refines (fun _ _ _ _ served taken represents => step_represents represents served taken)
    represents

end Steps

/-- `x1` holds 0x1234fedc, and every other register points to Chip RAM. -/
def pointers : Machine (Nat → UInt8) :=
  { idle with register := fun number => if number = 1 then 0x1234fedc else 0x1000, bus := fun _ => 0 }

theorem long_scale : 2 < 4 := by decide

theorem word_scale : 1 < 4 := by decide

/-- `str w1, [x2, #4]`, and `ldrsh x3, [x2, #6]` after an interrupt. -/
def storeThenLoad : List Fault :=
  [.store 0xb9000441 (.single ⟨2, long_scale⟩ .unsignedOffset), .interrupt,
    .load 0x79800c43 (.single .signed64 ⟨1, word_scale⟩ .unsignedOffset) 0x1006 (0, 0)
      fun _ => 0xff]

theorem faults_refine_architecture_of_storeThenLoad : ∃ next,
    (faults noOptions).Runs (Fault.Served noOptions) pointers storeThenLoad next ∧
      Represents noOptions 0x1000 next (storeThenLoad.foldl (fun arch fault => fault.execute arch)
        ⟨pointers.register, fun _ => 0⟩) ∧
      next.register 3 = 0xfffffffffffffedc := by
  have initial : Represents noOptions 0x1000 pointers ⟨pointers.register, fun _ => 0⟩ :=
    ⟨fun _ _ => rfl, rfl, fun _ _ => rfl⟩
  have executed : ((faults noOptions).run (Fault.Served noOptions) storeThenLoad pointers).map
      (fun machine => machine.register 3) = some 0xfffffffffffffedc := by decide +kernel
  obtain ⟨next, run, value⟩ := Library.Machine.runs_of_observed executed
  exact ⟨next, run, faults_refine_architecture initial run, value⟩

end Paulastorm.Faults
