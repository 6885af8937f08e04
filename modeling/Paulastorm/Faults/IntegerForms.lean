import Mathlib.Tactic.FinCases
import Paulastorm.Faults.IntegerLoads

namespace Paulastorm.Faults

/-! The A64 integer loads, and the branch that each of them takes. -/

open Bus Library.Decode Sys

/-- What a loaded value becomes in its register. -/
inductive Extension where
  | zero
  | signed64
  | signed32
deriving DecidableEq, Repr

def Extension.apply (extension : Extension) (size : Nat) (value : UInt64) : UInt64 :=
  let low := value.toBitVec.setWidth (8 * size)
  match extension with
  | .zero => UInt64.ofBitVec (low.setWidth 64)
  | .signed64 => UInt64.ofBitVec (low.signExtend 64)
  | .signed32 => UInt64.ofBitVec ((low.signExtend 32).setWidth 64)

/-- How a pair moves its base register. -/
inductive Indexing where
  | post
  | offset
  | pre
deriving DecidableEq, Repr

/-- The integer loads; a single register is loaded with `2 ^ scale` bytes. -/
inductive Form where
  | pair (double : Bool) (indexing : Indexing)
  | pairSigned (indexing : Indexing)
  | literal (double : Bool)
  | literalSigned
  | exclusive (scale : Fin 4)
  | single (extension : Extension) (scale : Fin 4) (mode : Mode)
deriving DecidableEq

namespace Form

def mask : Form → UInt32
  | .pair _ _ | .pairSigned _ => 0xffc00000
  | .literal _ | .literalSigned => 0xff000000
  | .exclusive _ => 0xfffffc00
  | .single _ _ .unsignedOffset => 0xffc00000
  | .single _ _ .register => 0xffe04c00
  | .single _ _ _ => 0xffe00c00

def indexingBits : Indexing → UInt32
  | .post => 0x00800000
  | .offset => 0x01000000
  | .pre => 0x01800000

def modeBits : Mode → UInt32
  | .unscaled => 0x38000000
  | .postIndexed => 0x38000400
  | .preIndexed => 0x38000c00
  | .unsignedOffset => 0x39000000
  -- bit 14 leaves the options UXTW, LSL, SXTW and SXTX
  | .register => 0x38204800

def extensionBits : Extension → UInt32
  | .zero => 0x00400000
  | .signed64 => 0x00800000
  | .signed32 => 0x00c00000

def scaleBits (scale : Fin 4) : UInt32 := UInt32.ofNat scale.val <<< 30

def pattern : Form → UInt32
  | .pair double indexing =>
      (if double then 0xa8400000 else 0x28400000) ||| indexingBits indexing
  | .pairSigned indexing => (0x68400000 : UInt32) ||| indexingBits indexing
  | .literal double => if double then 0x58000000 else 0x18000000
  | .literalSigned => 0x98000000
  | .exclusive scale => scaleBits scale ||| (0x085f7c00 : UInt32)
  | .single extension scale mode =>
      scaleBits scale ||| modeBits mode ||| extensionBits extension

/-- There is no load of more bytes than its register has. -/
def allocated : Form → Bool
  | .single .signed64 scale _ => decide (scale.val < 3)
  | .single .signed32 scale _ => decide (scale.val < 2)
  | _ => true

def movesBase : Form → Bool
  | .pair _ indexing | .pairSigned indexing => indexing != .offset
  | .single _ _ mode => mode == .postIndexed || mode == .preIndexed
  | _ => false

def destinations (opcode : UInt32) : Form → List Nat
  | .pair _ _ | .pairSigned _ => [rt opcode, rt2 opcode]
  | _ => [rt opcode]

/-- The bytes of one register. -/
def width : Form → Nat
  | .pair double _ | .literal double => if double then 8 else 4
  | .pairSigned _ | .literalSigned => 4
  | .exclusive scale | .single _ scale _ => 2 ^ scale.val

/-- The bytes of the access. -/
def bytes (form : Form) : Nat :=
  match form with
  | .pair _ _ | .pairSigned _ => 2 * form.width
  | _ => form.width

/-- The signed immediate in bits 21 to 15. -/
def imm7 (opcode : UInt32) : UInt64 :=
  UInt64.ofBitVec ((opcode.toBitVec.extractLsb' 15 7).signExtend 64)

/-- The signed immediate of the forms that can move their base. -/
def immediate (opcode : UInt32) (form : Form) : UInt64 :=
  match form with
  | .pair _ _ | .pairSigned _ => imm7 opcode * UInt64.ofNat form.width
  | _ => imm9 opcode

/-- The address of the access, over the words that the handlers find for the registers. -/
def address (opcode : UInt32) (far : UInt64) (register : Nat → UInt64) (form : Form) : UInt64 :=
  let base := register (rn opcode)
  match form with
  | .pair _ .post | .pairSigned .post | .single _ _ .postIndexed => base
  | .pair _ _ | .pairSigned _ | .single _ _ .unscaled | .single _ _ .preIndexed =>
      base + form.immediate opcode
  | .single _ _ .unsignedOffset => base + scaledOffset opcode form.width
  | .single _ _ .register => base + indexedInteger opcode form.width (register (rm opcode))
  | .literal _ | .literalSigned | .exclusive _ => far

/-- What the form loads, given the values read: words of a pair stand in one quad. -/
def loaded (opcode : UInt32) (value value2 : UInt64) (form : Form) : List (Nat × UInt64) :=
  match form with
  | .pair true _ => [(rt opcode, value), (rt2 opcode, value2)]
  | .pair false _ =>
      [(rt opcode, Extension.zero.apply 4 (value >>> 32)), (rt2 opcode, Extension.zero.apply 4 value)]
  | .pairSigned _ =>
      [(rt opcode, Extension.signed64.apply 4 (value >>> 32)),
        (rt2 opcode, Extension.signed64.apply 4 value)]
  | .literal _ | .exclusive _ => [(rt opcode, Extension.zero.apply form.width value)]
  | .literalSigned => [(rt opcode, Extension.signed64.apply 4 value)]
  | .single extension scale _ => [(rt opcode, extension.apply (2 ^ scale.val) value)]

/-- What is left in the base register. -/
def written (opcode : UInt32) (register : Nat → UInt64) (form : Form) : List (Nat × UInt64) :=
  if form.movesBase then [(rn opcode, register (rn opcode) + form.immediate opcode)] else []

/-- The branch of the source. -/
def branch : Form → Branch
  | .pair _ .offset => .ldp
  | .pair _ _ => .ldpIndexed
  | .pairSigned .offset => .ldpsw
  | .pairSigned .post => .ldpswPost
  | .pairSigned .pre => .ldpswPre
  | .literal _ | .literalSigned => .ldrLiteral
  | .exclusive _ => .ldxr
  | .single .zero _ .unscaled => .ldur
  | .single .zero _ .unsignedOffset => .ldrImmediate
  | .single .zero _ .register => .ldrRegister
  | .single .zero _ _ => .ldrIndexed
  | .single _ _ .unscaled => .ldurs
  | .single _ _ .unsignedOffset => .ldrsImmediate
  | .single _ _ .register => .ldrsRegister
  | .single _ _ _ => .ldrsIndexed

/-- A short access to a register that is filled up with zeros. -/
def narrow : Form → Bool
  | .exclusive scale | .single .zero scale _ => decide (scale.val < 2)
  | _ => false

/-- The registers that a form changes. -/
def numbers (opcode : UInt32) (form : Form) : List Nat :=
  form.destinations opcode ++ if form.movesBase then [rn opcode] else []

end Form

/-- An opcode of a form.  A64 leaves it unpredictable to load one register twice, and to
load a base register that is written back. -/
structure IsIntegerLoad (opcode : UInt32) (form : Form) : Prop where
  encoded : opcode &&& form.mask = form.pattern
  allocated : form.allocated = true
  distinct : (form.destinations opcode).Nodup
  base : form.movesBase = true → rn opcode ≠ 31 → rn opcode ∉ form.destinations opcode

variable {opcode : UInt32} {form : Form}

theorem settle_form (form : Form) (allocated : form.allocated = true) :
    settle form.mask form.pattern integerBranches = some form.branch := by
  cases form with
  | pair double indexing => cases double <;> cases indexing <;> decide
  | pairSigned indexing => cases indexing <;> decide
  | literal double => cases double <;> decide
  | literalSigned => decide
  | exclusive scale => revert scale; decide
  | single extension scale mode =>
      cases extension <;> cases mode <;> revert scale <;> decide

theorem IsIntegerLoad.bits (load : IsIntegerLoad opcode form) {other : UInt32}
    (within : form.mask &&& other = other) : opcode &&& other = form.pattern &&& other :=
  sub_mask load.encoded within rfl

theorem IsIntegerLoad.branch (load : IsIntegerLoad opcode form) :
    firstMatch opcode integerBranches = some form.branch :=
  firstMatch_of_settle load.encoded (settle_form form load.allocated)

theorem shifted_eq_imm7 (opcode : UInt32) :
    ((opcode >>> 6).toUInt16.toInt16 >>> 9).toBitVec =
      (opcode.toBitVec.extractLsb' 15 7).signExtend 16 := by
  simp
  apply BitVec.eq_of_getLsbD_eq
  intro index inside
  rw [BitVec.getLsbD_signExtend, BitVec.getLsbD_sshiftRight, BitVec.msb_eq_getLsbD_last,
    BitVec.msb_eq_getLsbD_last]
  by_cases low : index < 7
  · simp [low, inside, show 9 + index < 16 by omega, ← Nat.add_assoc, show ¬ 16 ≤ index by omega]
  · simp [low, inside, show ¬ 9 + index < 16 by omega, show ¬ 16 ≤ index by omega]

/-- The shifts of the source sign-extend the immediate, and its product does not wrap. -/
theorem pairOffset_eq {size : Nat} (sized : size = 4 ∨ size = 8) :
    pairOffset opcode size = Form.imm7 opcode * UInt64.ofNat size := by
  have shifted := shifted_eq_imm7 opcode
  have lower := BitVec.le_toInt (opcode.toBitVec.extractLsb' 15 7)
  have upper := BitVec.toInt_lt (x := opcode.toBitVec.extractLsb' 15 7)
  apply UInt64.toBitVec_inj.mp
  apply BitVec.eq_of_toInt_eq
  rw [pairOffset, Form.imm7]
  generalize opcode.toBitVec.extractLsb' 15 7 = field at shifted lower upper
  change ((((opcode >>> 6).toUInt16.toInt16 >>> 9).toBitVec *
    (Int16.ofNat size).toBitVec).signExtend 64).toInt =
      (field.signExtend 64 * BitVec.ofNat 64 size).toInt
  rw [shifted, BitVec.toInt_signExtend_of_le (by decide), BitVec.toInt_mul, BitVec.toInt_mul,
    BitVec.toInt_signExtend_of_le (by decide), BitVec.toInt_signExtend_of_le (by decide)]
  rcases sized with rfl | rfl
  · change (field.toInt * 4).bmod (2 ^ 16) = (field.toInt * 4).bmod (2 ^ 64)
    rw [Int.bmod_eq_of_le, Int.bmod_eq_of_le] <;> omega
  · change (field.toInt * 8).bmod (2 ^ 16) = (field.toInt * 8).bmod (2 ^ 64)
    rw [Int.bmod_eq_of_le, Int.bmod_eq_of_le] <;> omega

theorem size_of_scale {scale : Fin 4} (top : opcode &&& 0xc0000000 = Form.scaleBits scale) :
    getOPsize opcode = 2 ^ scale.val := by
  rw [getOPsize, top]
  clear top
  revert scale
  decide

/-- The calls of `SYSPutValueToReg` for what a form loads. -/
def Form.retired (opcode : UInt32) (value value2 : UInt64) (form : Form) : List (Nat × UInt64) :=
  match form with
  | .pair _ _ => pairPuts opcode form.width value value2
  | .pairSigned _ => signedPairPuts opcode value value2
  | .literal _ => []
  | .literalSigned => [(rt opcode, signExtendWord value)]
  | .exclusive _ | .single .zero _ _ => [(rt opcode, value)]
  | .single _ scale _ => [(rt opcode, signExtended opcode (2 ^ scale.val) value)]

/-- A call does what the form asks for, but for the values that it puts. -/
structure Call.Fits (call : Call) (opcode : UInt32) (far : UInt64) (register : Nat → UInt64)
    (form : Form) : Prop where
  ptr : call.ptr = form.address opcode far register
  size : call.size = form.bytes
  puts : ∀ value value2, call.puts true value value2 =
    form.retired opcode value value2 ++ form.written opcode register

theorem exclusive_top : ∀ scale : Fin 4,
    (Form.exclusive scale).pattern &&& 0xc0000000 = Form.scaleBits scale := by decide

theorem single_top (extension : Extension) (mode : Mode) : ∀ scale : Fin 4,
    (Form.single extension scale mode).mask &&& 0xc0000000 = 0xc0000000 ∧
      (Form.single extension scale mode).pattern &&& 0xc0000000 = Form.scaleBits scale := by
  cases extension <;> cases mode <;> decide

theorem single_size {extension : Extension} {scale : Fin 4} {mode : Mode}
    (load : IsIntegerLoad opcode (.single extension scale mode)) :
    getOPsize opcode = 2 ^ scale.val := by
  obtain ⟨within, top⟩ := single_top extension mode scale
  exact size_of_scale ((load.bits within).trans top)

/-- The bit that tells a pre-indexed load from a post-indexed one. -/
theorem single_pre (extension : Extension) : ∀ scale : Fin 4,
    (Form.single extension scale .postIndexed).pattern &&& 0x800 = 0 ∧
      (Form.single extension scale .preIndexed).pattern &&& 0x800 ≠ 0 := by
  cases extension <;> decide

theorem wideOffset_eq {size : Nat} (small : size ≤ 8) :
    ((opcode >>> 10) &&& (0xfff : UInt32)).toUInt64 * UInt64.ofNat size = scaledOffset opcode size := by
  have low : ((opcode >>> 10) &&& (0xfff : UInt32)).toNat < 4096 := by
    rw [UInt32.toNat_and]
    exact Nat.lt_succ_of_le Nat.and_le_right
  have count : (UInt32.ofNat size).toNat = size :=
    UInt32.toNat_ofNat_of_lt' (small.trans_lt (by decide))
  have count64 : (UInt64.ofNat size).toNat = size :=
    UInt64.toNat_ofNat_of_lt' (small.trans_lt (by decide))
  have product : ((opcode >>> 10) &&& (0xfff : UInt32)).toNat * size < 4096 * 9 :=
    Nat.mul_lt_mul'' low (by omega)
  apply UInt64.toNat_inj.mp
  rw [scaledOffset, UInt64.toNat_mul, UInt32.toNat_toUInt64, UInt32.toNat_toUInt64, UInt32.toNat_mul,
    count, count64, Nat.mod_eq_of_lt (by omega), Nat.mod_eq_of_lt (by omega)]

section Calls

variable (stack : UInt64 × UInt64) (far : UInt64) (register : Nat → UInt64)

theorem pair_fits {double : Bool} {indexing : Indexing}
    (load : IsIntegerLoad opcode (.pair double indexing)) :
    ((Form.pair double indexing).branch.call stack opcode far register).Fits opcode far register
      (.pair double indexing) := by
  have within : (0xffc00000 : UInt32) &&& 0x80000000 = 0x80000000 := by decide
  have width : (if opcode &&& 0x80000000 ≠ 0 then 8 else 4) = (Form.pair double indexing).width := by
    rw [load.bits within]
    cases double <;> cases indexing <;> decide
  have sized : (Form.pair double indexing).width = 4 ∨ (Form.pair double indexing).width = 8 := by
    cases double
    · exact .inl rfl
    · exact .inr rfl
  have offset : pairOffset opcode (Form.pair double indexing).width =
      (Form.pair double indexing).immediate opcode := pairOffset_eq sized
  have preBit : (0xffc00000 : UInt32) &&& 0x01000000 = 0x01000000 := by decide
  have pre : opcode &&& 0x01000000 ≠ 0 ↔ indexing ≠ .post := by
    rw [load.bits preBit]
    cases double <;> cases indexing <;> decide
  cases indexing with
  | offset =>
      constructor
      · simp only [Form.branch, Branch.call, width, offset]
        rfl
      · simp only [Form.branch, Branch.call, width]
        rfl
      · intro value value2
        simp only [Form.branch, Branch.call, width]
        rfl
  | post =>
      have back : ¬opcode &&& 0x01000000 ≠ 0 := fun bit => pre.mp bit rfl
      constructor
      · simp only [Form.branch, Branch.call, if_neg back]
        rfl
      · simp only [Form.branch, Branch.call, width]
        rfl
      · intro value value2
        simp only [Form.branch, Branch.call, width, offset]
        rfl
  | pre =>
      have ahead : opcode &&& 0x01000000 ≠ 0 := pre.mpr (by decide)
      constructor
      · simp only [Form.branch, Branch.call, if_pos ahead, width, offset]
        rfl
      · simp only [Form.branch, Branch.call, width]
        rfl
      · intro value value2
        simp only [Form.branch, Branch.call, width, offset]
        rfl

theorem pairSigned_fits {indexing : Indexing} (load : IsIntegerLoad opcode (.pairSigned indexing)) :
    ((Form.pairSigned indexing).branch.call stack opcode far register).Fits opcode far register
      (.pairSigned indexing) := by
  have offset : pairOffset opcode 4 = (Form.pairSigned indexing).immediate opcode :=
    pairOffset_eq (.inl rfl)
  cases indexing <;>
    refine ⟨?_, rfl, fun value value2 => ?_⟩ <;> simp only [Form.branch, Branch.call, offset] <;> rfl

theorem literal_fits {double : Bool} (load : IsIntegerLoad opcode (.literal double)) :
    ((Form.literal double).branch.call stack opcode far register).Fits opcode far register
      (.literal double) := by
  have sizeBit : (0xff000000 : UInt32) &&& 0x40000000 = 0x40000000 := by decide
  have signBit : (0xff000000 : UInt32) &&& 0x80000000 = 0x80000000 := by decide
  have unsigned : ¬opcode &&& 0x80000000 ≠ 0 := by
    rw [load.bits signBit]
    cases double <;> decide
  refine ⟨rfl, ?_, fun value value2 => ?_⟩
  · simp only [Form.branch, Branch.call]
    rw [load.bits sizeBit]
    cases double <;> decide
  · simp only [Form.branch, Branch.call, if_neg unsigned]
    rfl

theorem literalSigned_fits (load : IsIntegerLoad opcode .literalSigned) :
    (Form.literalSigned.branch.call stack opcode far register).Fits opcode far register
      .literalSigned := by
  have sizeBit : (0xff000000 : UInt32) &&& 0x40000000 = 0x40000000 := by decide
  have signBit : (0xff000000 : UInt32) &&& 0x80000000 = 0x80000000 := by decide
  have signed : opcode &&& 0x80000000 ≠ 0 := by
    rw [load.bits signBit]
    decide
  refine ⟨rfl, ?_, fun value value2 => ?_⟩
  · simp only [Form.branch, Branch.call]
    rw [load.bits sizeBit]
    decide
  · simp only [Form.branch, Branch.call, if_pos signed]
    rfl

theorem exclusive_fits {scale : Fin 4} (load : IsIntegerLoad opcode (.exclusive scale)) :
    ((Form.exclusive scale).branch.call stack opcode far register).Fits opcode far register
      (.exclusive scale) := by
  have within : (0xfffffc00 : UInt32) &&& 0xc0000000 = 0xc0000000 := by decide
  have top : opcode &&& 0xc0000000 = Form.scaleBits scale := by
    rw [load.bits within]
    exact exclusive_top scale
  exact ⟨rfl, size_of_scale top, fun value value2 => rfl⟩

theorem single_fits {extension : Extension} {scale : Fin 4} {mode : Mode}
    (load : IsIntegerLoad opcode (.single extension scale mode)) :
    ((Form.single extension scale mode).branch.call stack opcode far register).Fits opcode far
      register (.single extension scale mode) := by
  have sized := single_size load
  have small : ∀ scale : Fin 4, 2 ^ scale.val ≤ 8 := by decide
  have preBit : (0xffe00c00 : UInt32) &&& 0x800 = 0x800 := by decide
  cases mode with
  | unscaled =>
      cases extension <;>
        refine ⟨?_, sized, fun value value2 => ?_⟩ <;>
        simp only [Form.branch, Branch.call, offset_eq_imm9, sized] <;> rfl
  | postIndexed =>
      have post : ¬opcode &&& 0x800 ≠ 0 := by
        rw [not_not, load.bits preBit]
        exact (single_pre extension scale).1
      cases extension <;>
        refine ⟨?_, sized, fun value value2 => ?_⟩ <;>
        simp only [Form.branch, Branch.call, offset_eq_imm9, sized, if_neg post] <;> rfl
  | preIndexed =>
      have pre : opcode &&& 0x800 ≠ 0 := by
        rw [load.bits preBit]
        exact (single_pre extension scale).2
      cases extension <;>
        refine ⟨?_, sized, fun value value2 => ?_⟩ <;>
        simp only [Form.branch, Branch.call, offset_eq_imm9, sized, if_pos pre] <;> rfl
  | unsignedOffset =>
      cases extension <;>
        refine ⟨?_, sized, fun value value2 => ?_⟩ <;>
        simp only [Form.branch, Branch.call, wideOffset_eq (small scale), sized] <;> rfl
  | register =>
      cases extension <;>
        refine ⟨?_, sized, fun value value2 => ?_⟩ <;>
        simp only [Form.branch, Branch.call, sized] <;> rfl

theorem IsIntegerLoad.fits (load : IsIntegerLoad opcode form) :
    (form.branch.call stack opcode far register).Fits opcode far register form := by
  cases form with
  | pair double indexing => exact pair_fits stack far register load
  | pairSigned indexing => exact pairSigned_fits stack far register load
  | literal double => exact literal_fits stack far register load
  | literalSigned => exact literalSigned_fits stack far register load
  | exclusive scale => exact exclusive_fits stack far register load
  | single extension scale mode => exact single_fits stack far register load

end Calls

theorem float_conflicts (form : Form) :
    conflicts form.mask form.pattern floatLoads = true := by
  cases form with
  | pair double indexing => cases double <;> cases indexing <;> decide
  | pairSigned indexing => cases indexing <;> decide
  | literal double => cases double <;> decide
  | literalSigned => decide
  | exclusive scale => revert scale; decide
  | single extension scale mode =>
      cases extension <;> cases mode <;> revert scale <;> decide

/-- The integer loads in their order, by mask and pattern. -/
theorem integerLoads_eq : integerLoads = integerBranches.map fun test => (test.mask, test.pattern) :=
  rfl

section Handlers

variable {BusState : Type u} (wires : Wires BusState) (options : Options)

/-- The floating-point branches leave every integer load to its own. -/
theorem IsIntegerLoad.handler (load : IsIntegerLoad opcode form) (stack : UInt64 × UInt64)
    (far : UInt64) (machine : Machine BusState) :
    sysPageFaultReadHandler wires options (integerLoad wires options stack opcode far) opcode far
        machine =
      (form.branch.call stack opcode far machine.register).run wires options machine := by
  have float : ∀ test ∈ floatLoads, ¬ opcode &&& test.1 = test.2 :=
    not_hit_of_conflicts load.encoded (float_conflicts form)
  simp only [floatLoads, List.mem_cons, List.not_mem_nil, or_false, forall_eq_or_imp,
    forall_eq] at float
  obtain ⟨flds, fldsUnsigned, fldsPre, fldsPost, fldd, flddUnsigned, flddReg, flddPre⟩ := float
  have integer : matchesAny opcode integerLoads = true := by
    obtain ⟨test, member, hit, _⟩ := firstMatch_mem load.branch
    rw [matchesAny, integerLoads_eq, List.any_map, List.any_eq_true]
    exact ⟨test, member, beq_iff_eq.mpr hit⟩
  simp only [sysPageFaultReadHandler, if_neg flds, if_neg fldsUnsigned, if_neg fldsPre,
    if_neg fldsPost, if_neg fldd, if_neg flddUnsigned, if_neg flddReg, if_neg flddPre, integer,
    if_true, integerLoad, load.branch]

end Handlers

end Paulastorm.Faults
