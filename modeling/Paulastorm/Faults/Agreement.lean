import Paulastorm.Faults
import Paulastorm.Library.Decode
import Paulastorm.Library.Word

namespace Paulastorm.Faults

/-! Which faulting floating-point loads the read handler treats as the write handler
treats the matching stores. -/

open Bus Library.Decode Sys

inductive Mode where
  | unscaled
  | postIndexed
  | preIndexed
  | unsignedOffset
  | register
deriving DecidableEq

/-- The A64 encodings of a single (`double = false`) or double precision load. -/
def IsLoad (opcode : UInt32) (double : Bool) : Mode → Prop
  | .unscaled => opcode &&& 0xffe00c00 = if double then 0xfc400000 else 0xbc400000
  | .postIndexed => opcode &&& 0xffe00c00 = if double then 0xfc400400 else 0xbc400400
  | .preIndexed => opcode &&& 0xffe00c00 = if double then 0xfc400c00 else 0xbc400c00
  | .unsignedOffset => opcode &&& 0xffc00000 = if double then 0xfd400000 else 0xbd400000
  -- bit 14 leaves the options UXTW, LSL, SXTW and SXTX
  | .register => opcode &&& 0xffe04c00 = if double then 0xfc604800 else 0xbc604800

instance (opcode : UInt32) (double : Bool) (mode : Mode) : Decidable (IsLoad opcode double mode) := by
  cases mode <;> exact inferInstanceAs (Decidable (_ = _))

/-- The store with the same addressing bits: `opc` is 00 instead of 01. -/
def storeOf (opcode : UInt32) : UInt32 := opcode &&& ~~~(0x00400000 : UInt32)

def sizeOf (double : Bool) : Nat := if double then 8 else 4

/-- The signed immediate in bits 20 to 12. -/
def imm9 (opcode : UInt32) : UInt64 :=
  UInt64.ofBitVec ((opcode.toBitVec.extractLsb' 12 9).signExtend 64)

/-- The address that an encoding gives over the values of its base and index registers. -/
def addressing (opcode : UInt32) (double : Bool) (base index : UInt64) : Mode → UInt64
  | .unscaled | .preIndexed => base + imm9 opcode
  | .postIndexed => base
  | .unsignedOffset => base + scaledOffset opcode (sizeOf double)
  | .register => base + indexed opcode (sizeOf double) index

/-- What an indexed form leaves in its base register. -/
def writeBack (opcode : UInt32) (base : UInt64) : Mode → Option UInt64
  | .postIndexed | .preIndexed => some (base + imm9 opcode)
  | _ => none

/-- The architecture's address: number 31 is the stack pointer as a base and zero as an index. -/
def effectiveAddress (opcode : UInt32) (double : Bool) (mode : Mode) (sp : UInt64)
    (register : Nat → UInt64) : UInt64 :=
  addressing opcode double (if rn opcode = 31 then sp else register (rn opcode))
    (if rm opcode = 31 then 0 else register (rm opcode)) mode

/-- The address over the words that the handlers find for the two registers. -/
def slotAddress (opcode : UInt32) (double : Bool) (mode : Mode) (register : Nat → UInt64) :
    UInt64 :=
  addressing opcode double (register (rn opcode)) (register (rm opcode)) mode

/-- The load was treated as the store: same access, same base register, and handled
where the store is. -/
structure Agree {BusState : Type u} (opcode : UInt32) (load store : Outcome BusState) : Prop where
  access : load.access = store.access
  base : load.machine.register (rn opcode) = store.machine.register (rn opcode)
  handled : store.handled = true → load.handled = true

/-- The slots stand for the architecture's registers. -/
def Faithful (opcode : UInt32) (double : Bool) (mode : Mode) (sp : UInt64)
    (register : Nat → UInt64) : Prop :=
  effectiveAddress opcode double mode sp register = slotAddress opcode double mode register

/-- The loads that the read handler treats as it should. -/
def Handles (opcode : UInt32) (double : Bool) (mode : Mode) (sp : UInt64)
    (register : Nat → UInt64) : Prop :=
  match mode with
  | .unscaled => Faithful opcode double mode sp register
  | .unsignedOffset => opcode &&& 0x00200c00 = 0 → Faithful opcode double mode sp register
  | .postIndexed => imm9 opcode = 0
  | .preIndexed => double = false ∧ imm9 opcode = 0
  | .register => double = true ∧ Faithful opcode double mode sp register

variable {opcode : UInt32} {double : Bool} {mode : Mode}

section Masks

variable {mask pattern : UInt32}

theorem conflict_all {patterns : List (UInt32 × UInt32)} (known : opcode &&& mask = pattern)
    (differ : conflicts mask pattern patterns = true) : matchesAny opcode patterns = false := by
  rw [matchesAny, List.any_eq_false]
  intro test member hit
  exact not_hit_of_conflicts known differ test member (beq_iff_eq.mp hit)

/-- The store shows the load's bits but for one. -/
theorem store_mask (known : opcode &&& mask = pattern) :
    storeOf opcode &&& mask = pattern &&& ~~~(0x00400000 : UInt32) := by
  rw [storeOf, UInt32.and_assoc, UInt32.and_comm (~~~_), ← UInt32.and_assoc, known]

theorem store_field (count : UInt32)
    (clear : ((~~~0x00400000 : UInt32) >>> count) &&& mask = mask) :
    (storeOf opcode >>> count) &&& mask = (opcode >>> count) &&& mask := by
  rw [storeOf, UInt32.shiftRight_and, UInt32.and_assoc, clear]

end Masks

theorem storeOf_rn (opcode : UInt32) : rn (storeOf opcode) = rn opcode :=
  congrArg UInt32.toNat (store_field 5 (by decide))

theorem storeOf_rm (opcode : UInt32) : rm (storeOf opcode) = rm opcode :=
  congrArg UInt32.toNat (store_field 16 (by decide))

theorem storeOf_scaledOffset (opcode : UInt32) (size : Nat) :
    scaledOffset (storeOf opcode) size = scaledOffset opcode size := by
  rw [scaledOffset, store_field 10 (by decide), scaledOffset]

theorem storeOf_indexed (opcode : UInt32) (size : Nat) (index : UInt64) :
    indexed (storeOf opcode) size index = indexed opcode size index := by
  have scale : storeOf opcode &&& 0x1000 = opcode &&& 0x1000 := by
    rw [storeOf, UInt32.and_assoc]
    rfl
  simp only [indexed, store_field 13 (show ((~~~0x00400000 : UInt32) >>> 13) &&& 7 = 7 by decide),
    scale]

/-- The shifts of the source sign-extend the immediate. -/
theorem offset_eq_imm9 (opcode : UInt32) : offset opcode = imm9 opcode := by
  rw [offset, imm9, ← UInt64.toBitVec_inj]
  simp
  apply BitVec.eq_of_getLsbD_eq
  intro index inside
  rw [BitVec.getLsbD_signExtend, BitVec.getLsbD_signExtend, BitVec.getLsbD_sshiftRight,
    BitVec.msb_sshiftRight, BitVec.msb_eq_getLsbD_last, BitVec.msb_eq_getLsbD_last]
  by_cases low : index < 9
  · simp [low, inside, show index < 16 by omega, show 7 + index < 16 by omega, ← Nat.add_assoc,
      show ¬ 16 ≤ index by omega]
  · by_cases middle : index < 16
    · simp [low, inside, middle, show ¬ 7 + index < 16 by omega, show ¬ 16 ≤ index by omega]
    · simp [low, inside, middle]

theorem storeOf_offset (opcode : UInt32) : offset (storeOf opcode) = imm9 opcode := by
  have bits : (storeOf opcode >>> 5).toUInt16 = (opcode >>> 5).toUInt16 := by
    have low : ∀ word : UInt32, (word &&& 0xffff).toUInt16 = word.toUInt16 := by
      intro word
      rw [UInt32.toUInt16_and]
      exact UInt16.and_neg_one
    rw [← low, ← low (opcode >>> 5), store_field 5 (by decide)]
  rw [← offset_eq_imm9, offset, bits, offset]

section Handlers

variable {BusState : Type u} (wires : Wires BusState) (options : Options)
  (integer : Machine BusState → Outcome BusState) (machine : Machine BusState)

theorem storeOf_size (isLoad : IsLoad opcode double mode) :
    getOPsize (storeOf opcode) = sizeOf double := by
  have top : storeOf opcode &&& 0xc0000000 = if double then 0xc0000000 else 0x80000000 := by
    cases double <;> cases mode <;>
      exact sub_mask (store_mask isLoad) (by decide) (by decide)
  cases double
  · simp [getOPsize, top, sizeOf]
  · simp [getOPsize, top, sizeOf]

/-- Both bus handlers refuse exactly the addresses outside the single wrap. -/
theorem write_handled (value value2 : UInt64) (size : Nat) (far : UInt64) (state : State)
    (bus : BusState) :
    (sysWriteValToAddr wires options value value2 size far state bus).1 =
      decide (unwrap far >>> 32 = 0) := by
  by_cases low : unwrap far >>> 32 = 0
  · rw [decide_eq_true low]
    simp only [sysWriteValToAddr, writeAround]
    rw [if_neg (not_not.mpr low)]
    split_ifs <;> rfl
  · rw [decide_eq_false low]
    simp only [sysWriteValToAddr, writeAround]
    rw [if_pos low]

theorem read_handled (value value2 : UInt64) (size : Nat) (far : UInt64) (state : State)
    (bus : BusState) (low : unwrap far >>> 32 = 0) :
    (sysReadValFromAddr wires options value value2 size far state bus).1 = true := by
  simp only [sysReadValFromAddr, readAround]
  cases Probe.busRead state.metrics size far with
  | some word => rfl
  | none =>
      dsimp only
      rw [if_neg (not_not.mpr low)]
      split_ifs <;> rfl

theorem storeFp_base (ptr : UInt64) (after : Option UInt64) :
    (storeFp wires options opcode ptr after machine).machine.register (rn opcode) =
      after.getD (machine.register (rn opcode)) := by
  cases after with
  | none => rfl
  | some base => exact Function.update_self _ _ _

theorem loadFp_base (size : Nat) (ptr : UInt64) (after : Option UInt64) :
    (loadFp wires options opcode size ptr after machine).machine.register (rn opcode) =
      if (loadFp wires options opcode size ptr after machine).handled then
        after.getD (machine.register (rn opcode))
      else machine.register (rn opcode) := by
  have fpKept : ∀ (before : Machine BusState) number value,
      (setFpn before size number value).register = before.register := by
    intro before number value
    unfold setFpn
    split <;> rfl
  simp only [loadFp]
  split
  next => cases after with
    | none => simp only [fpKept, Option.getD_none]
    | some base => exact Function.update_self _ _ _
  next => rfl

/-- Loads and stores at one address agree when both leave the base register. -/
theorem agree_of_access {ptr : UInt64} {loadAfter storeAfter : Option UInt64} {size : Nat}
    (sized : getOPsize (storeOf opcode) = size)
    (loadKept : loadAfter.getD (machine.register (rn opcode)) = machine.register (rn opcode))
    (storeKept : storeAfter.getD (machine.register (rn opcode)) = machine.register (rn opcode)) :
    Agree opcode (loadFp wires options opcode size ptr loadAfter machine)
      (storeFp wires options (storeOf opcode) ptr storeAfter machine) where
  access := by
    change some (ptr, size) = some (ptr, getOPsize (storeOf opcode))
    rw [sized]
  base := by
    have stored := @storeFp_base (storeOf opcode) _ wires options machine ptr storeAfter
    rw [storeOf_rn] at stored
    rw [loadFp_base, stored, loadKept, storeKept, ite_self]
  handled := by
    intro stored
    change (sysWriteValToAddr wires options _ 0 _ ptr machine.sys machine.bus).1 = true at stored
    rw [write_handled, decide_eq_true_eq] at stored
    exact read_handled wires options 0 0 size ptr machine.sys machine.bus stored

/-- What the write handler does with each mode. -/
theorem write_branch (isLoad : IsLoad opcode double mode) :
    sysPageFaultWriteHandler wires options integer (storeOf opcode) machine =
      storeFp wires options (storeOf opcode) (slotAddress opcode double mode machine.register)
        (writeBack opcode (machine.register (rn opcode)) mode) machine := by
  have sized := storeOf_size isLoad
  cases mode with
  | unscaled =>
      have here : storeOf opcode &&& 0xbfe00c00 = 0xbc000000 := by
        cases double <;> exact sub_mask (store_mask isLoad) (by decide) (by decide)
      simp only [sysPageFaultWriteHandler, if_pos here, storeOf_rn, storeOf_offset]
      rfl
  | postIndexed =>
      have unscaled : ¬ storeOf opcode &&& 0xbfe00c00 = 0xbc000000 := by
        cases double <;> exact conflict (store_mask isLoad) (by decide)
      have here : storeOf opcode &&& 0xbfe00400 = 0xbc000400 := by
        cases double <;> exact sub_mask (store_mask isLoad) (by decide) (by decide)
      have post : ¬ storeOf opcode &&& 0x800 ≠ 0 := by
        rw [not_not]
        cases double <;> exact sub_mask (store_mask isLoad) (by decide) (by decide)
      simp only [sysPageFaultWriteHandler, if_neg unscaled, if_pos here, if_neg post, storeOf_rn,
        storeOf_offset]
      rfl
  | preIndexed =>
      have unscaled : ¬ storeOf opcode &&& 0xbfe00c00 = 0xbc000000 := by
        cases double <;> exact conflict (store_mask isLoad) (by decide)
      have here : storeOf opcode &&& 0xbfe00400 = 0xbc000400 := by
        cases double <;> exact sub_mask (store_mask isLoad) (by decide) (by decide)
      have pre : storeOf opcode &&& 0x800 ≠ 0 := by
        cases double <;> exact conflict (store_mask isLoad) (by decide)
      simp only [sysPageFaultWriteHandler, if_neg unscaled, if_pos here, if_pos pre, storeOf_rn,
        storeOf_offset]
      rfl
  | unsignedOffset =>
      have unscaled : ¬ storeOf opcode &&& 0xbfe00c00 = 0xbc000000 := by
        cases double <;> exact conflict (store_mask isLoad) (by decide)
      have indexed : ¬ storeOf opcode &&& 0xbfe00400 = 0xbc000400 := by
        cases double <;> exact conflict (store_mask isLoad) (by decide)
      have here : storeOf opcode &&& 0xbfc00000 = 0xbd000000 := by
        cases double <;> exact sub_mask (store_mask isLoad) (by decide) (by decide)
      simp only [sysPageFaultWriteHandler, if_neg unscaled, if_neg indexed, if_pos here, storeOf_rn,
        storeOf_scaledOffset, sized]
      rfl
  | register =>
      have unscaled : ¬ storeOf opcode &&& 0xbfe00c00 = 0xbc000000 := by
        cases double <;> exact conflict (store_mask isLoad) (by decide)
      have indexed : ¬ storeOf opcode &&& 0xbfe00400 = 0xbc000400 := by
        cases double <;> exact conflict (store_mask isLoad) (by decide)
      have unsigned : ¬ storeOf opcode &&& 0xbfc00000 = 0xbd000000 := by
        cases double <;> exact conflict (store_mask isLoad) (by decide)
      have here : storeOf opcode &&& 0xbfe04c00 = 0xbc204800 := by
        cases double <;> exact sub_mask (store_mask isLoad) (by decide) (by decide)
      simp only [sysPageFaultWriteHandler, if_neg unscaled, if_neg indexed, if_neg unsigned,
        if_pos here, storeOf_rn, storeOf_rm, storeOf_indexed, sized]
      rfl

/-- The tests for floating-point loads; the last of the source repeats the fourth. -/
def floatLoads : List (UInt32 × UInt32) :=
  [(0xfee00c00, 0xbc400000), (0xff400000, 0xbd400000), (0xfee00c00, 0xbc400400),
    (0xfee00c00, 0xbc400c00), (0xfee00c00, 0xfc400000), (0xff400000, 0xfd400000),
    (0xfee00c00, 0xfc600800), (0xfee00c00, 0xfc400400)]

/-- The tests for single precision fail on a double precision opcode. -/
theorem not_single {mask pattern : UInt32} (known : opcode &&& mask = pattern)
    (top : mask &&& 0xfe000000 = 0xfe000000) (double : pattern &&& 0xfe000000 = 0xfc000000) :
    ¬ opcode &&& 0xfee00c00 = 0xbc400000 ∧ ¬ opcode &&& 0xff400000 = 0xbd400000 ∧
      ¬ opcode &&& 0xfee00c00 = 0xbc400400 ∧ ¬ opcode &&& 0xfee00c00 = 0xbc400c00 := by
  have high : opcode &&& 0xfe000000 = 0xfc000000 := sub_mask known top double
  exact ⟨conflict high (by decide), conflict high (by decide), conflict high (by decide),
    conflict high (by decide)⟩

theorem read_unscaled (far : UInt64) (isLoad : IsLoad opcode double .unscaled) :
    sysPageFaultReadHandler wires options integer opcode far machine =
      loadFp wires options opcode (sizeOf double) far none machine := by
  cases double with
  | false =>
      have here : opcode &&& 0xfee00c00 = 0xbc400000 := sub_mask isLoad (by decide) (by decide)
      simp only [sysPageFaultReadHandler, if_pos here]
      rfl
  | true =>
      obtain ⟨flds, fldsUnsigned, fldsPre, fldsPost⟩ := not_single isLoad (by decide) (by decide)
      have here : opcode &&& 0xfee00c00 = 0xfc400000 := sub_mask isLoad (by decide) (by decide)
      simp only [sysPageFaultReadHandler, if_neg flds, if_neg fldsUnsigned, if_neg fldsPre,
        if_neg fldsPost, if_pos here]
      rfl

/-- The branch the source calls pre-index sees the post-indexed encoding. -/
theorem read_postIndexed (far : UInt64) (isLoad : IsLoad opcode double .postIndexed) :
    sysPageFaultReadHandler wires options integer opcode far machine =
      loadFp wires options opcode (sizeOf double) (machine.register (rn opcode) + imm9 opcode)
        (some (machine.register (rn opcode) + imm9 opcode)) machine := by
  cases double with
  | false =>
      have flds : ¬ opcode &&& 0xfee00c00 = 0xbc400000 := conflict isLoad (by decide)
      have fldsUnsigned : ¬ opcode &&& 0xff400000 = 0xbd400000 := conflict isLoad (by decide)
      have here : opcode &&& 0xfee00c00 = 0xbc400400 := sub_mask isLoad (by decide) (by decide)
      simp only [sysPageFaultReadHandler, if_neg flds, if_neg fldsUnsigned, if_pos here,
        offset_eq_imm9]
      rfl
  | true =>
      obtain ⟨flds, fldsUnsigned, fldsPre, fldsPost⟩ := not_single isLoad (by decide) (by decide)
      have fldd : ¬ opcode &&& 0xfee00c00 = 0xfc400000 := conflict isLoad (by decide)
      have flddUnsigned : ¬ opcode &&& 0xff400000 = 0xfd400000 := conflict isLoad (by decide)
      have flddReg : ¬ opcode &&& 0xfee00c00 = 0xfc600800 := conflict isLoad (by decide)
      have here : opcode &&& 0xfee00c00 = 0xfc400400 := sub_mask isLoad (by decide) (by decide)
      simp only [sysPageFaultReadHandler, if_neg flds, if_neg fldsUnsigned, if_neg fldsPre,
        if_neg fldsPost, if_neg fldd, if_neg flddUnsigned, if_neg flddReg, if_pos here,
        offset_eq_imm9]
      rfl

/-- The branch the source calls post-index sees the pre-indexed encoding. -/
theorem read_preIndexed_single (far : UInt64) (isLoad : IsLoad opcode false .preIndexed) :
    sysPageFaultReadHandler wires options integer opcode far machine =
      loadFp wires options opcode 4 (machine.register (rn opcode))
        (some (machine.register (rn opcode) + imm9 opcode)) machine := by
  have flds : ¬ opcode &&& 0xfee00c00 = 0xbc400000 := conflict isLoad (by decide)
  have fldsUnsigned : ¬ opcode &&& 0xff400000 = 0xbd400000 := conflict isLoad (by decide)
  have fldsPre : ¬ opcode &&& 0xfee00c00 = 0xbc400400 := conflict isLoad (by decide)
  have here : opcode &&& 0xfee00c00 = 0xbc400c00 := sub_mask isLoad (by decide) (by decide)
  simp only [sysPageFaultReadHandler, if_neg flds, if_neg fldsUnsigned, if_neg fldsPre,
    if_pos here, offset_eq_imm9]

/-- An opcode that contradicts every test is not handled. -/
theorem read_unhandled (far : UInt64) {mask pattern : UInt32} (known : opcode &&& mask = pattern)
    (differ : conflicts mask pattern (floatLoads ++ integerLoads) = true) :
    sysPageFaultReadHandler wires options integer opcode far machine =
      ⟨false, none, machine⟩ := by
  rw [conflicts, List.all_append, Bool.and_eq_true] at differ
  have float : ∀ test ∈ floatLoads, ¬ opcode &&& test.1 = test.2 :=
    not_hit_of_conflicts known differ.1
  simp only [floatLoads, List.mem_cons, List.not_mem_nil, or_false, forall_eq_or_imp,
    forall_eq] at float
  obtain ⟨flds, fldsUnsigned, fldsPre, fldsPost, fldd, flddUnsigned, flddReg, flddPre⟩ := float
  have others : matchesAny opcode integerLoads = false :=
    conflict_all known differ.2
  simp only [sysPageFaultReadHandler, if_neg flds, if_neg fldsUnsigned, if_neg fldsPre,
    if_neg fldsPost, if_neg fldd, if_neg flddUnsigned, if_neg flddReg, if_neg flddPre, others,
    Bool.false_eq_true, if_false]

/-- The test for the unscaled form forgets bit 24, so it takes some unsigned offsets too. -/
theorem read_unsignedOffset (far : UInt64) (isLoad : IsLoad opcode double .unsignedOffset) :
    sysPageFaultReadHandler wires options integer opcode far machine =
      loadFp wires options opcode (sizeOf double)
        (if opcode &&& 0x00200c00 = 0 then far
          else machine.register (rn opcode) + scaledOffset opcode (sizeOf double))
        none machine := by
  have shadowed : ∀ top, top &&& 0x00200c00 = 0 → opcode &&& 0xfec00000 = top →
      (opcode &&& 0xfee00c00 = top ↔ opcode &&& 0x00200c00 = 0) := by
    intro top clean high
    constructor
    · intro hit
      exact sub_mask hit (by decide) clean
    · intro zero
      have joined := Library.Word.or_and_distrib32 0xfec00000 0x00200c00 opcode
      rw [UInt32.and_comm _ opcode, UInt32.and_comm _ opcode, UInt32.and_comm _ opcode, high, zero,
        UInt32.or_zero] at joined
      exact joined
  cases double with
  | false =>
      have branch := shadowed 0xbc400000 (by decide) (sub_mask isLoad (by decide) (by decide))
      have unsigned : opcode &&& 0xff400000 = 0xbd400000 :=
        sub_mask isLoad (by decide) (by decide)
      simp only [sysPageFaultReadHandler, branch, if_pos unsigned]
      split <;> rfl
  | true =>
      obtain ⟨flds, fldsUnsigned, fldsPre, fldsPost⟩ := not_single isLoad (by decide) (by decide)
      have branch := shadowed 0xfc400000 (by decide) (sub_mask isLoad (by decide) (by decide))
      have unsigned : opcode &&& 0xff400000 = 0xfd400000 :=
        sub_mask isLoad (by decide) (by decide)
      simp only [sysPageFaultReadHandler, if_neg flds, if_neg fldsUnsigned, if_neg fldsPre,
        if_neg fldsPost, branch, if_pos unsigned]
      split <;> rfl

theorem read_register_double (far : UInt64) (isLoad : IsLoad opcode true .register) :
    sysPageFaultReadHandler wires options integer opcode far machine =
      loadFp wires options opcode 8 far none machine := by
  obtain ⟨flds, fldsUnsigned, fldsPre, fldsPost⟩ := not_single isLoad (by decide) (by decide)
  have fldd : ¬ opcode &&& 0xfee00c00 = 0xfc400000 := conflict isLoad (by decide)
  have flddUnsigned : ¬ opcode &&& 0xff400000 = 0xfd400000 := conflict isLoad (by decide)
  have here : opcode &&& 0xfee00c00 = 0xfc600800 := sub_mask isLoad (by decide) (by decide)
  simp only [sysPageFaultReadHandler, if_neg flds, if_neg fldsUnsigned, if_neg fldsPre,
    if_neg fldsPost, if_neg fldd, if_neg flddUnsigned, if_pos here]

/-- Accesses at different addresses do not agree. -/
theorem loadFp_agree_iff (ptr slot : UInt64) (loadAfter storeAfter : Option UInt64) {size : Nat}
    (sized : getOPsize (storeOf opcode) = size)
    (loadKept : ptr = slot → loadAfter.getD (machine.register (rn opcode)) =
      machine.register (rn opcode))
    (storeKept : ptr = slot → storeAfter.getD (machine.register (rn opcode)) =
      machine.register (rn opcode)) :
    Agree opcode (loadFp wires options opcode size ptr loadAfter machine)
      (storeFp wires options (storeOf opcode) slot storeAfter machine) ↔ ptr = slot := by
  constructor
  · intro agree
    have same : some (ptr, size) = some (slot, getOPsize (storeOf opcode)) := agree.access
    exact congrArg Prod.fst (Option.some.inj same)
  · intro same
    have loaded := loadKept same
    have stored := storeKept same
    rw [← same]
    exact agree_of_access wires options machine sized loaded stored

theorem not_agree_unhandled {slot : UInt64} {storeAfter : Option UInt64} :
    ¬ Agree opcode ⟨false, none, machine⟩
      (storeFp wires options (storeOf opcode) slot storeAfter machine) := by
  intro agree
  cases agree.access

/-- The read handler treats a floating-point load as the write handler treats the store
with the same addressing bits exactly when `Handles` says so. -/
theorem fp_faults_agree_iff {sp far : UInt64} (isLoad : IsLoad opcode double mode)
    (faulting : far = effectiveAddress opcode double mode sp machine.register) :
    Agree opcode (sysPageFaultReadHandler wires options integer opcode far machine)
        (sysPageFaultWriteHandler wires options integer (storeOf opcode) machine) ↔
      Handles opcode double mode sp machine.register := by
  have sized := storeOf_size isLoad
  rw [write_branch wires options integer machine isLoad]
  have agree : ∀ ptr, Agree opcode (loadFp wires options opcode (sizeOf double) ptr none machine)
      (storeFp wires options (storeOf opcode) (slotAddress opcode double mode machine.register)
        none machine) ↔ ptr = slotAddress opcode double mode machine.register :=
    fun ptr => loadFp_agree_iff wires options machine ptr _ none none sized (fun _ => rfl)
      (fun _ => rfl)
  have agreeIndexed : ∀ ptr slot, (ptr = slot ↔ imm9 opcode = 0) →
      (Agree opcode
          (loadFp wires options opcode (sizeOf double) ptr
            (some (machine.register (rn opcode) + imm9 opcode)) machine)
          (storeFp wires options (storeOf opcode) slot
            (some (machine.register (rn opcode) + imm9 opcode)) machine) ↔ imm9 opcode = 0) := by
    intro ptr slot zero
    have kept : ptr = slot → machine.register (rn opcode) + imm9 opcode =
        machine.register (rn opcode) := by
      intro same
      rw [zero.mp same, UInt64.add_zero]
    exact (loadFp_agree_iff wires options machine ptr slot (some _) (some _) sized kept kept).trans zero
  have unmoved : machine.register (rn opcode) + imm9 opcode = machine.register (rn opcode) ↔
      imm9 opcode = 0 := by
    rw [UInt64.add_eq_left]
  cases mode with
  | unscaled =>
      rw [read_unscaled wires options integer machine far isLoad, faulting]
      exact agree _
  | postIndexed =>
      rw [read_postIndexed wires options integer machine far isLoad]
      exact agreeIndexed _ _ unmoved
  | preIndexed =>
      cases double with
      | false =>
          rw [read_preIndexed_single wires options integer machine far isLoad]
          exact (agreeIndexed _ _ (eq_comm.trans unmoved)).trans (and_iff_right rfl).symm
      | true =>
          rw [read_unhandled wires options integer machine far isLoad (by decide)]
          constructor
          · exact fun agree => absurd agree (not_agree_unhandled wires options machine)
          · exact fun handles => absurd handles.1 (by decide)
  | unsignedOffset =>
      rw [read_unsignedOffset wires options integer machine far isLoad]
      apply (agree _).trans
      rw [faulting]
      simp only [Handles]
      split
      next shadowed =>
        constructor
        · exact fun same _ => same
        · exact fun same => same shadowed
      next visible =>
        constructor
        · exact fun _ shadowed => absurd shadowed visible
        · exact fun _ => rfl
  | register =>
      cases double with
      | false =>
          rw [read_unhandled wires options integer machine far isLoad (by decide)]
          constructor
          · exact fun agree => absurd agree (not_agree_unhandled wires options machine)
          · exact fun handles => absurd handles.1 (by decide)
      | true =>
          rw [read_register_double wires options integer machine far isLoad, faulting]
          exact (agree _).trans (and_iff_right rfl).symm

end Handlers

def noOptions : Options := ⟨false, false, 0, false, false, false, fun _ => 0, false, false⟩

/-- Every register points to Chip RAM. -/
def idle : Machine Unit :=
  ⟨fun _ => 0x1000, fun _ => 0, ⟨⟨0, 0, false⟩, 0, 0, false, 0, [], Probe.init⟩, ()⟩

def refuse (machine : Machine Unit) : Outcome Unit := ⟨false, none, machine⟩

/-- `ldr s1, [x2, #4]`. -/
theorem fp_faults_agree_iff_of_ldrUnsigned :
    Agree 0xbd400441 (sysPageFaultReadHandler deadWires noOptions refuse 0xbd400441 0x1004 idle)
      (sysPageFaultWriteHandler deadWires noOptions refuse (storeOf 0xbd400441) idle) := by
  have isLoad : IsLoad 0xbd400441 false .unsignedOffset := by decide
  have faulting : 0x1004 = effectiveAddress 0xbd400441 false .unsignedOffset 0 idle.register := by
    decide
  apply (fp_faults_agree_iff deadWires noOptions refuse idle isLoad faulting).mpr
  intro _
  exact faulting.symm.trans (by decide)

/-- `ldr d0, [x1], #8` skips the word at its base. -/
theorem postIndexed_load_differs :
    IsLoad 0xfc408420 true .postIndexed ∧
      effectiveAddress 0xfc408420 true .postIndexed 0 idle.register = 0x1000 ∧
      (sysPageFaultReadHandler deadWires noOptions refuse 0xfc408420 0x1000 idle).access =
        some (0x1008, 8) ∧
      (sysPageFaultWriteHandler deadWires noOptions refuse (storeOf 0xfc408420) idle).access =
        some (0x1000, 8) ∧
      ¬ Agree 0xfc408420 (sysPageFaultReadHandler deadWires noOptions refuse 0xfc408420 0x1000 idle)
        (sysPageFaultWriteHandler deadWires noOptions refuse (storeOf 0xfc408420) idle) := by
  have isLoad : IsLoad 0xfc408420 true .postIndexed := by decide
  rw [read_postIndexed deadWires noOptions refuse idle 0x1000 isLoad,
    write_branch deadWires noOptions refuse idle isLoad]
  have loaded : idle.register (rn 0xfc408420) + imm9 0xfc408420 = 0x1008 := by decide
  have sized : getOPsize (storeOf 0xfc408420) = 8 := by decide
  refine ⟨isLoad, by decide, congrArg some (congrArg (·, 8) loaded),
    congrArg some (congrArg (slotAddress 0xfc408420 true .postIndexed idle.register, ·) sized),
    fun agree => ?_⟩
  have same : some (_, 8) = some (_, getOPsize (storeOf 0xfc408420)) := agree.access
  rw [loaded] at same
  exact absurd (congrArg Prod.fst (Option.some.inj same)) (by decide)

/-- `ldr d0, [x1, #8]!` and `ldr s0, [x1, x2]` are refused. -/
example :
    (sysPageFaultReadHandler deadWires noOptions refuse 0xfc408c20 0x1008 idle).handled = false ∧
      (sysPageFaultReadHandler deadWires noOptions refuse 0xbc626820 0x2000 idle).handled = false :=
  ⟨rfl, rfl⟩

end Paulastorm.Faults
