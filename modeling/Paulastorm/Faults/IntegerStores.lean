import Paulastorm.Faults.LoadEffect
import Paulastorm.Sys.Samples

namespace Paulastorm.Faults

/-! The integer stores of `SYSPageFaultWriteHandler`, against the A64 encodings. -/

open Bus Library Library.Decode Sys

/-- The branches of the integer stores. -/
inductive StoreBranch where
  | stur
  | strIndexed
  | strImmediate
  | strRegister
  | stxr
  | stp
  | stpPost
  | stpPre
deriving DecidableEq, Repr

def storeBranches : List (Test StoreBranch) :=
  [⟨0x3fe00c00, 0x38000000, .stur⟩, ⟨0x3fe00400, 0x38000400, .strIndexed⟩,
    ⟨0x3fc00000, 0x39000000, .strImmediate⟩, ⟨0x3fe00c00, 0x38200800, .strRegister⟩,
    ⟨0x3fe07c00, 0x08007c00, .stxr⟩, ⟨0x7fc00000, 0x29000000, .stp⟩,
    ⟨0x7fc00000, 0x28800000, .stpPost⟩, ⟨0x7fc00000, 0x29800000, .stpPre⟩]

/-- What a branch asks of `SYSWriteValToAddr`, and its calls of `SYSPutValueToReg`. -/
structure StoreCall where
  ptr : UInt64
  size : Nat
  value : UInt64 × UInt64
  puts : List (Nat × UInt64)

/-- A register that is stored: number 31 is zero. -/
def stored (number : Nat) (register : Nat → UInt64) : UInt64 :=
  if number = 31 then 0 else register number

/-- The size of each register of a pair. -/
def pairSize (opcode : UInt32) : Nat := if opcode &&& 0x80000000 ≠ 0 then 8 else 4

/-- `STP` joins two words to one quad, or writes two quads. -/
def pairValue (opcode : UInt32) (register : Nat → UInt64) : UInt64 × UInt64 :=
  if pairSize opcode = 4 then
    let value := stored (rt opcode) register <<< 32
    (if rt2 opcode ≠ 31 then value ||| (register (rt2 opcode) &&& 0xffffffff) else value, 0)
  else (stored (rt opcode) register, stored (rt2 opcode) register)

/-- The body of a branch. -/
def StoreBranch.call (opcode : UInt32) (register : Nat → UInt64) : StoreBranch → StoreCall :=
  let size := getOPsize opcode
  let base := register (rn opcode)
  let value := (stored (rt opcode) register, 0)
  let pair := pairValue opcode register
  let pairOffset := pairOffset opcode (pairSize opcode)
  fun
  | .stur => { ptr := base + offset opcode, size, value, puts := [] }
  | .strIndexed =>
      let updated := base + offset opcode
      { ptr := if opcode &&& 0x800 ≠ 0 then updated else base, size, value
        puts := [(rn opcode, updated)] }
  | .strImmediate =>
      let offset := (((opcode >>> 10) &&& 0xfff) * UInt32.ofNat size).toUInt16
      { ptr := base + offset.toUInt64, size, value, puts := [] }
  | .strRegister =>
      { ptr := base + indexedInteger opcode size (register (rm opcode)), size, value, puts := [] }
  -- marked as successful before the write
  | .stxr => { ptr := base, size, value, puts := [(rm opcode, 0)] }
  | .stp =>
      { ptr := base + pairOffset, size := 2 * pairSize opcode, value := pair, puts := [] }
  | .stpPost =>
      { ptr := base, size := 2 * pairSize opcode, value := pair
        puts := [(rn opcode, base + pairOffset)] }
  | .stpPre =>
      let ptr := base + pairOffset
      { ptr, size := 2 * pairSize opcode, value := pair, puts := [(rn opcode, ptr)] }

section Handlers

variable {BusState : Type u} (wires : Wires BusState) (options : Options)

/-- The registers are put whether or not the write was handled. -/
def StoreCall.run (call : StoreCall) (machine : Machine BusState) : Outcome BusState :=
  let (handled, sys, bus) :=
    sysWriteValToAddr wires options call.value.1 call.value.2 call.size call.ptr machine.sys machine.bus
  ⟨handled, some (call.ptr, call.size),
    call.puts.foldl (fun machine put => sysPutValueToReg machine put.1 put.2)
      { machine with sys, bus }⟩

/-- The integer stores of `SYSPageFaultWriteHandler`. -/
def integerStore (opcode : UInt32) (machine : Machine BusState) : Outcome BusState :=
  match firstMatch opcode storeBranches with
  | some branch => (branch.call opcode machine.register).run wires options machine
  | none => ⟨false, none, machine⟩

end Handlers

/-- The integer stores. -/
inductive StoreForm where
  | pair (double : Bool) (indexing : Indexing)
  | exclusive (scale : Fin 4)
  | single (scale : Fin 4) (mode : Mode)
deriving DecidableEq

namespace StoreForm

/-- The load with the same addressing bits. -/
def load : StoreForm → Form
  | .pair double indexing => .pair double indexing
  | .exclusive scale => .exclusive scale
  | .single scale mode => .single .zero scale mode

/-- The status register of an exclusive store may be any. -/
def mask : StoreForm → UInt32
  | .exclusive _ => 0xffe07c00
  | form => form.load.mask

def pattern : StoreForm → UInt32
  | .exclusive scale => Form.scaleBits scale ||| (0x08007c00 : UInt32)
  | form => form.load.pattern &&& ~~~(0x00400000 : UInt32)

/-- The bytes of the access. -/
def bytes (form : StoreForm) : Nat := form.load.bytes

/-- The address, over the words that the handlers find for the registers. -/
def address (opcode : UInt32) (register : Nat → UInt64) (form : StoreForm) : UInt64 :=
  form.load.address opcode (register (rn opcode)) register

/-- The registers stored. -/
def sources (opcode : UInt32) : StoreForm → List Nat
  | .pair _ _ => [rt opcode, rt2 opcode]
  | _ => [rt opcode]

/-- What the store leaves in memory: the low bytes of its registers, one after the other. -/
def image (opcode : UInt32) (register : Nat → UInt64) (form : StoreForm) : List UInt8 :=
  (form.sources opcode).flatMap fun number =>
    bigEndian form.load.width (stored number register).toNat

/-- The registers that a store changes: the status of an exclusive one, or a moved base. -/
def changed (opcode : UInt32) (register : Nat → UInt64) (form : StoreForm) : List (Nat × UInt64) :=
  match form with
  | .exclusive _ => [(rm opcode, 0)]
  | form => form.load.written opcode register

/-- The branch of the source. -/
def branch : StoreForm → StoreBranch
  | .pair _ .offset => .stp
  | .pair _ .post => .stpPost
  | .pair _ .pre => .stpPre
  | .exclusive _ => .stxr
  | .single _ .unscaled => .stur
  | .single _ .unsignedOffset => .strImmediate
  | .single _ .register => .strRegister
  | .single _ _ => .strIndexed

end StoreForm

/-- An opcode of a form. -/
def IsIntegerStore (opcode : UInt32) (form : StoreForm) : Prop :=
  opcode &&& form.mask = form.pattern

instance (opcode : UInt32) (form : StoreForm) : Decidable (IsIntegerStore opcode form) :=
  inferInstanceAs (Decidable (_ = _))

/-- The tests for floating-point stores. -/
def floatStores : List (UInt32 × UInt32) :=
  [(0xbfe00c00, 0xbc000000), (0xbfe00400, 0xbc000400), (0xbfc00000, 0xbd000000),
    (0xbfe04c00, 0xbc204800)]

variable {opcode : UInt32} {form : StoreForm}

theorem settle_storeForm (form : StoreForm) :
    settle form.mask form.pattern storeBranches = some form.branch := by
  cases form with
  | pair double indexing => cases double <;> cases indexing <;> decide
  | exclusive scale => revert scale; decide
  | single scale mode => cases mode <;> revert scale <;> decide

theorem floatStore_conflicts (form : StoreForm) :
    conflicts form.mask form.pattern floatStores = true := by
  cases form with
  | pair double indexing => cases double <;> cases indexing <;> decide
  | exclusive scale => revert scale; decide
  | single scale mode => cases mode <;> revert scale <;> decide

theorem IsIntegerStore.branch (store : IsIntegerStore opcode form) :
    firstMatch opcode storeBranches = some form.branch :=
  firstMatch_of_settle store (settle_storeForm form)

theorem IsIntegerStore.bits (store : IsIntegerStore opcode form) {other : UInt32}
    (within : form.mask &&& other = other) : opcode &&& other = form.pattern &&& other :=
  sub_mask store within rfl

/-- The integer stores in their order, by mask and pattern. -/
theorem integerStores_eq :
    integerStores = storeBranches.map fun test => (test.mask, test.pattern) := rfl

/-- A call does what the form asks for. -/
structure StoreCall.Fits (call : StoreCall) (opcode : UInt32) (register : Nat → UInt64)
    (form : StoreForm) : Prop where
  ptr : call.ptr = form.address opcode register
  size : call.size = form.bytes
  image : writtenBytes call.value.1 call.value.2 call.size = form.image opcode register
  puts : call.puts = form.changed opcode register

section Values

/-- A quad is its two halves. -/
theorem bigEndian_quad (high low : Nat) (small : low < 256 ^ 4) :
    bigEndian 8 (high * 256 ^ 4 + low) = bigEndian 4 high ++ bigEndian 4 low := by
  have upper : (high * 256 ^ 4 + low) / 256 ^ 4 = high := by omega
  have lower : (high * 256 ^ 4 + low) % 256 ^ 4 = low := by omega
  rw [bigEndian_add 4 4, upper, ← bigEndian_mod 4 (high * 256 ^ 4 + low) (Nat.dvd_refl _), lower]

theorem pairValue_words (words : pairSize opcode = 4) (register : Nat → UInt64) :
    bigEndian 8 (pairValue opcode register).1.toNat =
      bigEndian 4 (stored (rt opcode) register).toNat ++
        bigEndian 4 (stored (rt2 opcode) register).toNat := by
  have first := (stored (rt opcode) register).toNat_lt
  have shifted : (stored (rt opcode) register <<< 32).toNat =
      2 ^ 32 * ((stored (rt opcode) register).toNat % 2 ^ 32) := by
    rw [UInt64.toNat_shiftLeft, Nat.shiftLeft_eq, Nat.mul_comm]
    change 2 ^ 32 * _ % 2 ^ 64 = _
    omega
  have high : 2 ^ 32 * ((stored (rt opcode) register).toNat % 2 ^ 32) =
      (stored (rt opcode) register).toNat % 256 ^ 4 * 256 ^ 4 := Nat.mul_comm _ _
  have words32 : (2 : Nat) ^ 32 = 256 ^ 4 := by decide
  have value : (pairValue opcode register).1.toNat =
      (stored (rt opcode) register).toNat % 256 ^ 4 * 256 ^ 4 +
        (stored (rt2 opcode) register).toNat % 256 ^ 4 := by
    simp only [pairValue, words, if_true]
    split
    next regular =>
      have second : stored (rt2 opcode) register = register (rt2 opcode) := if_neg regular
      rw [UInt64.toNat_or, shifted, lower_toNat,
        ← Nat.two_pow_add_eq_or_of_lt (Nat.mod_lt _ (by decide)), high, second, words32]
    next zero =>
      have second : stored (rt2 opcode) register = 0 := if_pos (not_not.mp zero)
      rw [second, shifted, high, UInt64.toNat_zero, Nat.zero_mod, Nat.add_zero]
  rw [value, bigEndian_quad _ _ (Nat.mod_lt _ (by decide)), bigEndian_mod 4 _ (Nat.dvd_refl _),
    bigEndian_mod 4 _ (Nat.dvd_refl _)]

theorem bigEndian_octet (first second : UInt64) :
    bigEndian 16 (first.toNat * 2 ^ 64 + second.toNat) =
      bigEndian 8 first.toNat ++ bigEndian 8 second.toNat := by
  have small := second.toNat_lt
  have upper : (first.toNat * 2 ^ 64 + second.toNat) / 256 ^ 8 = first.toNat := by omega
  have lower : (first.toNat * 2 ^ 64 + second.toNat) % 256 ^ 8 = second.toNat := by omega
  rw [bigEndian_add 8 8, upper, ← bigEndian_mod 8 (first.toNat * 2 ^ 64 + second.toNat)
    (Nat.dvd_refl _), lower]

theorem writtenBytes_scale (value : UInt64) :
    ∀ scale : Fin 4, writtenBytes value 0 (2 ^ scale.val) = bigEndian (2 ^ scale.val) value.toNat := by
  intro scale
  fin_cases scale <;> rfl

end Values

section Calls

variable (register : Nat → UInt64)

theorem image_pair (double : Bool) (indexing : Indexing) :
    (StoreForm.pair double indexing).image opcode register =
      bigEndian (Form.pair double indexing).width (stored (rt opcode) register).toNat ++
        bigEndian (Form.pair double indexing).width (stored (rt2 opcode) register).toNat := by
  simp [StoreForm.image, StoreForm.sources, StoreForm.load]

theorem storePair_fits {double : Bool} {indexing : Indexing}
    (store : IsIntegerStore opcode (.pair double indexing)) :
    ((StoreForm.pair double indexing).branch.call opcode register).Fits opcode register
      (.pair double indexing) := by
  have within : (0xffc00000 : UInt32) &&& 0x80000000 = 0x80000000 := by decide
  have width : pairSize opcode = (Form.pair double indexing).width := by
    rw [pairSize, store.bits within]
    cases double <;> cases indexing <;> decide
  have sized : (Form.pair double indexing).width = 4 ∨ (Form.pair double indexing).width = 8 := by
    cases double
    · exact .inl rfl
    · exact .inr rfl
  have offset : pairOffset opcode (pairSize opcode) =
      (Form.pair double indexing).immediate opcode := by
    rw [width]
    exact pairOffset_eq sized
  have image : writtenBytes (pairValue opcode register).1 (pairValue opcode register).2
      (2 * pairSize opcode) = (StoreForm.pair double indexing).image opcode register := by
    cases double with
    | false =>
        have words : pairSize opcode = 4 := width
        rw [words]
        exact (pairValue_words words register).trans (image_pair register false indexing).symm
    | true =>
        have quads : pairSize opcode = 8 := width
        have value : pairValue opcode register =
            (stored (rt opcode) register, stored (rt2 opcode) register) := by
          rw [pairValue, quads]
          rfl
        rw [value, quads]
        exact (bigEndian_octet _ _).trans (image_pair register true indexing).symm
  have bytes : 2 * pairSize opcode = (StoreForm.pair double indexing).bytes := by
    rw [width]
    rfl
  cases indexing with
  | offset =>
      refine ⟨?_, bytes, image, rfl⟩
      simp only [StoreForm.branch, StoreBranch.call, offset]
      rfl
  | post =>
      refine ⟨rfl, bytes, image, ?_⟩
      simp only [StoreForm.branch, StoreBranch.call, offset]
      rfl
  | pre =>
      refine ⟨?_, bytes, image, ?_⟩ <;> simp only [StoreForm.branch, StoreBranch.call, offset] <;> rfl

theorem storeExclusive_fits {scale : Fin 4} (store : IsIntegerStore opcode (.exclusive scale)) :
    ((StoreForm.exclusive scale).branch.call opcode register).Fits opcode register
      (.exclusive scale) := by
  have within : (0xffe07c00 : UInt32) &&& 0xc0000000 = 0xc0000000 := by decide
  have top : ∀ scale : Fin 4,
      (StoreForm.exclusive scale).pattern &&& 0xc0000000 = Form.scaleBits scale := by decide
  have sized : getOPsize opcode = 2 ^ scale.val := size_of_scale ((store.bits within).trans (top scale))
  refine ⟨rfl, sized, ?_, rfl⟩
  change writtenBytes _ 0 (getOPsize opcode) = _
  rw [sized, writtenBytes_scale]
  exact (List.append_nil _).symm

theorem storeOffset_eq {size : Nat} (small : size ≤ 8) :
    ((((opcode >>> 10) &&& 0xfff) * UInt32.ofNat size).toUInt16).toUInt64 =
      scaledOffset opcode size := by
  have low : ((opcode >>> 10) &&& (0xfff : UInt32)).toNat < 4096 := by
    rw [UInt32.toNat_and]
    exact Nat.lt_succ_of_le Nat.and_le_right
  have count : (UInt32.ofNat size).toNat = size :=
    UInt32.toNat_ofNat_of_lt' (small.trans_lt (by decide))
  have product : ((opcode >>> 10) &&& (0xfff : UInt32)).toNat * size < 4096 * 9 :=
    Nat.mul_lt_mul'' low (by omega)
  apply UInt64.toNat_inj.mp
  rw [scaledOffset, UInt16.toNat_toUInt64, UInt32.toNat_toUInt16, UInt32.toNat_toUInt64,
    UInt32.toNat_mul, count]
  omega

theorem storeSingle_top (mode : Mode) : ∀ scale : Fin 4,
    (StoreForm.single scale mode).mask &&& 0xc0000000 = 0xc0000000 ∧
      (StoreForm.single scale mode).pattern &&& 0xc0000000 = Form.scaleBits scale := by
  cases mode <;> decide

theorem storeSingle_pre : ∀ scale : Fin 4,
    (StoreForm.single scale .postIndexed).pattern &&& 0x800 = 0 ∧
      (StoreForm.single scale .preIndexed).pattern &&& 0x800 ≠ 0 := by decide

theorem storeSingle_fits {scale : Fin 4} {mode : Mode}
    (store : IsIntegerStore opcode (.single scale mode)) :
    ((StoreForm.single scale mode).branch.call opcode register).Fits opcode register
      (.single scale mode) := by
  obtain ⟨within, top⟩ := storeSingle_top mode scale
  have sized : getOPsize opcode = 2 ^ scale.val := size_of_scale ((store.bits within).trans top)
  have small : ∀ scale : Fin 4, 2 ^ scale.val ≤ 8 := by decide
  have preBit : (0xffe00c00 : UInt32) &&& 0x800 = 0x800 := by decide
  have image : writtenBytes (stored (rt opcode) register) 0 (getOPsize opcode) =
      (StoreForm.single scale mode).image opcode register := by
    rw [sized, writtenBytes_scale]
    exact (List.append_nil _).symm
  cases mode with
  | unscaled =>
      refine ⟨?_, sized, image, rfl⟩
      simp only [StoreForm.branch, StoreBranch.call, offset_eq_imm9]
      rfl
  | postIndexed =>
      have post : ¬opcode &&& 0x800 ≠ 0 := by
        rw [not_not, store.bits preBit]
        exact (storeSingle_pre scale).1
      refine ⟨?_, sized, image, ?_⟩ <;>
        simp only [StoreForm.branch, StoreBranch.call, offset_eq_imm9, if_neg post] <;> rfl
  | preIndexed =>
      have pre : opcode &&& 0x800 ≠ 0 := by
        rw [store.bits preBit]
        exact (storeSingle_pre scale).2
      refine ⟨?_, sized, image, ?_⟩ <;>
        simp only [StoreForm.branch, StoreBranch.call, offset_eq_imm9, if_pos pre] <;> rfl
  | unsignedOffset =>
      refine ⟨?_, sized, image, rfl⟩
      simp only [StoreForm.branch, StoreBranch.call, sized, storeOffset_eq (small scale)]
      rfl
  | register =>
      refine ⟨?_, sized, image, rfl⟩
      simp only [StoreForm.branch, StoreBranch.call, sized]
      rfl

theorem IsIntegerStore.fits (store : IsIntegerStore opcode form) :
    (form.branch.call opcode register).Fits opcode register form := by
  cases form with
  | pair double indexing => exact storePair_fits register store
  | exclusive scale => exact storeExclusive_fits register store
  | single scale mode => exact storeSingle_fits register store

end Calls

section Handlers

variable {BusState : Type u} (wires : Wires BusState) (options : Options)

/-- The floating-point branches leave every integer store to its own. -/
theorem IsIntegerStore.handler (store : IsIntegerStore opcode form) (machine : Machine BusState) :
    sysPageFaultWriteHandler wires options (integerStore wires options opcode) opcode machine =
      (form.branch.call opcode machine.register).run wires options machine := by
  have float : ∀ test ∈ floatStores, ¬ opcode &&& test.1 = test.2 :=
    not_hit_of_conflicts store (floatStore_conflicts form)
  simp only [floatStores, List.mem_cons, List.not_mem_nil, or_false, forall_eq_or_imp,
    forall_eq] at float
  obtain ⟨stur, indexed, unsigned, register⟩ := float
  have integer : matchesAny opcode integerStores = true := by
    obtain ⟨test, member, hit, _⟩ := firstMatch_mem store.branch
    rw [matchesAny, integerStores_eq, List.any_map, List.any_eq_true]
    exact ⟨test, member, beq_iff_eq.mpr hit⟩
  simp only [sysPageFaultWriteHandler, if_neg stur, if_neg indexed, if_neg unsigned,
    if_neg register, integer, if_true, integerStore, store.branch]

end Handlers

end Paulastorm.Faults
