import Paulastorm.Faults.IntegerForms
import Paulastorm.Sys.ReadWidth

namespace Paulastorm.Faults

/-! Which faulting integer loads take effect. -/

open Bus Library.Decode Sys

section Context

variable {context other : Context} {first second number : Nat} {value : UInt64}
  {puts : List (Nat × UInt64)}

/-- Two numbers share a place only if they are the same. -/
theorem place_injective :
    ∀ first second : Fin 32, isLive first.val = false → isLive second.val = false →
      slot first.val = slot second.val → first = second := by decide +kernel

theorem get_put (firstNumber : first < 32) (secondNumber : second < 32) :
    (context.put first value).get second = if second = first then value else context.get second := by
  unfold Context.put Context.get
  by_cases same : second = first
  · rw [if_pos same, same]
    split
    next => exact Function.update_self first value context.live
    next => exact Function.update_self (slot first) value context.ctx
  · rw [if_neg same]
    cases firstLive : isLive first <;> cases secondLive : isLive second <;>
      simp only [Bool.false_eq_true, if_false, if_true]
    · have apart : slot second ≠ slot first := by
        intro shared
        have equal := place_injective ⟨second, secondNumber⟩ ⟨first, firstNumber⟩ secondLive
          firstLive shared
        exact same (congrArg Fin.val equal)
      exact Function.update_of_ne apart value context.ctx
    · exact Function.update_of_ne same value context.live

theorem puts_cons (put : Nat × UInt64) :
    context.puts (put :: puts) = (context.put put.1 put.2).puts puts := rfl

theorem puts_get_of_not_mem (numbers : ∀ put ∈ puts, put.1 < 32) (small : number < 32)
    (absent : number ∉ puts.map Prod.fst) : (context.puts puts).get number = context.get number := by
  induction puts generalizing context with
  | nil => rfl
  | cons put rest ih =>
      rw [List.map_cons, List.mem_cons, not_or] at absent
      rw [puts_cons, ih (fun later member => numbers later (List.mem_cons_of_mem _ member)) absent.2,
        get_put (numbers put List.mem_cons_self) small, if_neg absent.1]

/-- A register that is put holds its value, whatever was there before. -/
theorem puts_get_of_mem (numbers : ∀ put ∈ puts, put.1 < 32) (distinct : (puts.map Prod.fst).Nodup) :
    ∀ put ∈ puts, (context.puts puts).get put.1 = put.2 := by
  induction puts generalizing context with
  | nil => exact fun put member => absurd member List.not_mem_nil
  | cons head rest ih =>
      have later : ∀ put ∈ rest, put.1 < 32 :=
        fun put member => numbers put (List.mem_cons_of_mem _ member)
      rw [List.map_cons, List.nodup_cons] at distinct
      intro put member
      rw [puts_cons]
      rcases List.mem_cons.mp member with now | after
      · have small := numbers put member
        rw [puts_get_of_not_mem later small (now ▸ distinct.1), now,
          get_put (now ▸ small) (now ▸ small), if_pos rfl]
      · exact ih later distinct.2 put after

theorem puts_agree (numbers : ∀ put ∈ puts, put.1 < 32) (written : number ∈ puts.map Prod.fst) :
    (context.puts puts).get number = (other.puts puts).get number := by
  induction puts generalizing context other with
  | nil => exact absurd written List.not_mem_nil
  | cons put rest ih =>
      have later : ∀ put ∈ rest, put.1 < 32 :=
        fun put member => numbers put (List.mem_cons_of_mem _ member)
      by_cases again : number ∈ rest.map Prod.fst
      · exact ih later again
      · rw [List.map_cons, List.mem_cons] at written
        have own : number = put.1 := written.resolve_right again
        have small := numbers put List.mem_cons_self
        rw [own] at again ⊢
        rw [puts_cons, puts_cons, puts_get_of_not_mem later small again,
          puts_get_of_not_mem later small again, get_put small small, get_put small small, if_pos rfl,
          if_pos rfl]

/-- Only number 31 has its place outside the saved frame. -/
theorem slot_inside : ∀ number : Fin 32, number.val ≠ 31 → isLive number.val = false →
    0 ≤ slot number.val ∧ slot number.val < 20 := by decide +kernel

theorem puts_inside (numbers : ∀ put ∈ puts, put.1 < 32) (inside : ∀ put ∈ puts, put.1 ≠ 31)
    {index : Int} (outside : index < 0 ∨ 20 ≤ index) :
    (context.puts puts).ctx index = context.ctx index := by
  induction puts generalizing context with
  | nil => rfl
  | cons put rest ih =>
      rw [puts_cons, ih (fun later member => numbers later (List.mem_cons_of_mem _ member))
        (fun later member => inside later (List.mem_cons_of_mem _ member))]
      unfold Context.put
      cases live : isLive put.1 with
      | true => rfl
      | false =>
          have place := slot_inside ⟨put.1, numbers put List.mem_cons_self⟩
            (inside put List.mem_cons_self) live
          simp only [Bool.false_eq_true, if_false]
          dsimp only at place
          have apart : index ≠ slot put.1 := by omega
          exact Function.update_of_ne apart put.2 context.ctx

end Context

/-- A load took effect: every register it loads holds its value, a written-back base its
address, and nothing else changed, in the saved frame or around it. -/
structure TakesEffect (loaded written puts : List (Nat × UInt64)) : Prop where
  registers : ∀ context : Context, ∀ put ∈ loaded, put.1 ≠ 31 →
    (context.puts puts).get put.1 = put.2
  base : ∀ context : Context, ∀ put ∈ written, put.1 ≠ 31 →
    (context.puts puts).get put.1 = put.2
  others : ∀ (context : Context) (number : Nat), number < 31 →
    number ∉ (loaded ++ written).map Prod.fst →
    (context.puts puts).get number = context.get number
  outside : ∀ (context : Context) (index : Int), index < 0 ∨ 20 ≤ index →
    (context.puts puts).ctx index = context.ctx index

section Effect

variable {loaded written puts wanted : List (Nat × UInt64)}

theorem TakesEffect.inside (effect : TakesEffect loaded written puts)
    (numbers : ∀ put ∈ puts, put.1 < 32) : ∀ put ∈ puts, put.1 ≠ 31 := by
  intro put member stray
  have written : 31 ∈ puts.map Prod.fst := stray ▸ List.mem_map_of_mem member
  have agree := @puts_agree ⟨fun _ => 0, fun _ => 0⟩ ⟨fun _ => 1, fun _ => 0⟩ 31 puts
    numbers written
  have first := effect.outside ⟨fun _ => 0, fun _ => 0⟩ (-1) (by decide)
  have second := effect.outside ⟨fun _ => 1, fun _ => 0⟩ (-1) (by decide)
  have shown : ∀ context : Context, context.get 31 = context.ctx (-1) := fun _ => rfl
  rw [shown, shown, first, second] at agree
  exact absurd agree (by decide)

theorem eq_map_of_values {values : Nat → UInt64} (shown : ∀ put ∈ wanted, values put.1 = put.2) :
    wanted = (wanted.map Prod.fst).map fun number => (number, values number) := by
  rw [List.map_map]
  symm
  refine (List.map_congr_left fun put member => ?_).trans (List.map_id wanted)
  exact Prod.ext rfl (shown put member)

/-- Where the numbers are those wanted, only the values and number 31 can go wrong. -/
theorem takesEffect_iff (numbers : ∀ put ∈ puts, put.1 < 32)
    (same : puts.map Prod.fst = (loaded ++ written).map Prod.fst)
    (distinct : (∀ put ∈ puts, put.1 ≠ 31) → (puts.map Prod.fst).Nodup) :
    TakesEffect loaded written puts ↔
      (∀ put ∈ puts, put.1 ≠ 31) ∧ puts = loaded ++ written := by
  constructor
  · intro effect
    have inside := effect.inside numbers
    refine ⟨inside, ?_⟩
    let context : Context := ⟨fun _ => 0, fun _ => 0⟩
    have wanted : ∀ put ∈ loaded ++ written, (context.puts puts).get put.1 = put.2 := by
      intro put member
      have regular : put.1 ≠ 31 := by
        have number : put.1 ∈ puts.map Prod.fst := same ▸ List.mem_map_of_mem member
        obtain ⟨made, among, equal⟩ := List.mem_map.mp number
        exact equal ▸ inside made among
      rcases List.mem_append.mp member with load | base
      · exact effect.registers context put load regular
      · exact effect.base context put base regular
    rw [eq_map_of_values wanted, ← same]
    exact eq_map_of_values (puts_get_of_mem numbers (distinct inside))
  · rintro ⟨inside, exact⟩
    have put : ∀ context : Context, ∀ put ∈ puts, (context.puts puts).get put.1 = put.2 :=
      fun _ => puts_get_of_mem numbers (distinct inside)
    constructor
    · intro context load member _
      exact put context load (exact ▸ List.mem_append_left _ member)
    · intro context base member _
      exact put context base (exact ▸ List.mem_append_right _ member)
    · intro context number regular absent
      exact puts_get_of_not_mem numbers (by omega) (same ▸ absent)
    · exact fun context index => puts_inside numbers inside

end Effect

section Extensions

theorem signExtend_setWidth {width target : Nat} (low : BitVec width) (wide : width ≤ target)
    (fits : target ≤ 64) :
    (low.signExtend target).setWidth 64 = low.setWidth 64 |||
      if low.msb then ((BitVec.allOnes target).setWidth 64) <<< width &&& (BitVec.allOnes target).setWidth 64
        else 0 := by
  apply BitVec.eq_of_getLsbD_eq
  intro index inside
  rw [BitVec.getLsbD_or, BitVec.getLsbD_setWidth, BitVec.getLsbD_setWidth, BitVec.getLsbD_signExtend]
  cases low.msb with
  | false =>
      simp
      grind
  | true =>
      simp
      grind

/-- Setting the upper bits under a test of the sign bit extends the sign. -/
theorem extend_of_fits {value : UInt64} (mask ones : UInt64) (sign target : Nat)
    (fits : value.toNat < 2 ^ (sign + 1)) (wide : sign + 1 ≤ target) (narrow : target ≤ 64)
    (bit : mask.toBitVec = BitVec.twoPow 64 sign)
    (upper : ones.toBitVec =
      ((BitVec.allOnes target).setWidth 64) <<< (sign + 1) &&&
        (BitVec.allOnes target).setWidth 64) :
    UInt64.ofBitVec (((value.toBitVec.setWidth (sign + 1)).signExtend target).setWidth 64) =
      if value &&& mask ≠ 0 then value ||| ones else value := by
  have whole : (value.toBitVec.setWidth (sign + 1)).setWidth 64 = value.toBitVec := by
    apply BitVec.eq_of_toNat_eq
    rw [BitVec.toNat_setWidth, BitVec.toNat_setWidth, UInt64.toNat_toBitVec,
      Nat.mod_eq_of_lt fits, Nat.mod_eq_of_lt value.toNat_lt]
  have msb : (value.toBitVec.setWidth (sign + 1)).msb = value.toBitVec.getLsbD sign := by
    rw [BitVec.msb_eq_getLsbD_last, BitVec.getLsbD_setWidth]
    simp
  have test : value &&& mask ≠ 0 ↔ value.toBitVec.getLsbD sign = true := by
    rw [ne_eq, ← UInt64.toBitVec_inj, UInt64.toBitVec_and, bit, BitVec.and_twoPow]
    split
    next set =>
      refine iff_of_true ?_ set
      intro zero
      have shown := congrArg (fun word : BitVec 64 => word.getLsbD sign) zero
      simp at shown
      omega
    next clear => exact iff_of_false (fun differs => differs rfl) clear
  apply UInt64.toBitVec_inj.mp
  rw [signExtend_setWidth _ wide narrow, whole, msb]
  by_cases set : value.toBitVec.getLsbD sign = true
  · rw [if_pos (test.mpr set), if_pos set, UInt64.toBitVec_or, upper]
  · rw [if_neg (mt test.mp set), if_neg set]
    simp

variable {opcode : UInt32} {value : UInt64}

theorem signExtendWord_eq (fits : Fits 4 value) :
    signExtendWord value = Extension.signed64.apply 4 value := by
  have extended := extend_of_fits 0x80000000 0xffffffff00000000 31 64 fits (by decide) (by decide)
    (by decide) (by decide)
  rw [BitVec.setWidth_eq] at extended
  exact extended.symm

theorem signExtended_wide (wide : opcode &&& ((1 : UInt32) <<< 22) = 0) (value : UInt64) :
    (signExtended opcode 1 value =
      if value &&& 0x80 ≠ 0 then value ||| 0xffffffffffffff00 else value) ∧
    (signExtended opcode 2 value =
      if value &&& 0x8000 ≠ 0 then value ||| 0xffffffffffff0000 else value) ∧
    signExtended opcode 4 value =
      if value &&& 0x80000000 ≠ 0 then value ||| 0xffffffff00000000 else value := by
  have joined : ∀ low high : UInt64, value ||| low ||| high = value ||| (low ||| high) :=
    fun low high => UInt64.or_assoc value low high
  refine ⟨?_, ?_, ?_⟩ <;> simp only [signExtended, wide, bne_iff_ne, and_true] <;> split <;>
    simp only [joined] <;> rfl

theorem signExtended_narrow (narrow : opcode &&& ((1 : UInt32) <<< 22) ≠ 0) (value : UInt64) :
    (signExtended opcode 1 value =
      if value &&& 0x80 ≠ 0 then value ||| 0xffffff00 else value) ∧
    signExtended opcode 2 value =
      if value &&& 0x8000 ≠ 0 then value ||| 0xffff0000 else value := by
  refine ⟨?_, ?_⟩ <;> simp only [signExtended, narrow, and_false, if_false]

/-- The bit that tells an extension to 64 bits from one to 32. -/
theorem single_wide (mode : Mode) : ∀ scale : Fin 4,
    (Form.single .signed64 scale mode).mask &&& ((1 : UInt32) <<< 22) = (1 : UInt32) <<< 22 ∧
      (Form.single .signed64 scale mode).pattern &&& ((1 : UInt32) <<< 22) = 0 ∧
      (Form.single .signed32 scale mode).mask &&& ((1 : UInt32) <<< 22) = (1 : UInt32) <<< 22 ∧
      (Form.single .signed32 scale mode).pattern &&& ((1 : UInt32) <<< 22) ≠ 0 := by
  cases mode <;> decide

theorem signExtended_eq {extension : Extension} {scale : Fin 4} {mode : Mode}
    (load : IsIntegerLoad opcode (.single extension scale mode)) (signed : extension ≠ .zero)
    (fits : Fits (2 ^ scale.val) value ∨ value = 0xffffffff) :
    signExtended opcode (2 ^ scale.val) value = extension.apply (2 ^ scale.val) value := by
  obtain ⟨wideMask, wide, narrowMask, narrow⟩ := single_wide mode scale
  cases extension with
  | zero => exact absurd rfl signed
  | signed64 =>
      rw [← load.bits wideMask] at wide
      obtain ⟨byte, half, word⟩ := signExtended_wide wide value
      have few : scale.val < 3 := of_decide_eq_true load.allocated
      fin_cases scale
      · rcases fits with fits | rfl
        · exact byte.trans (extend_of_fits 0x80 0xffffffffffffff00 7 64 fits (by decide) (by decide)
            (by decide) (by decide)).symm
        · exact byte.trans (by decide)
      · rcases fits with fits | rfl
        · exact half.trans (extend_of_fits 0x8000 0xffffffffffff0000 15 64 fits (by decide)
            (by decide) (by decide) (by decide)).symm
        · exact half.trans (by decide)
      · rcases fits with fits | rfl
        · exact word.trans (extend_of_fits 0x80000000 0xffffffff00000000 31 64 fits (by decide)
            (by decide) (by decide) (by decide)).symm
        · exact word.trans (by decide)
      · exact absurd few (by decide)
  | signed32 =>
      rw [← load.bits narrowMask] at narrow
      obtain ⟨byte, half⟩ := signExtended_narrow narrow value
      have few : scale.val < 2 := of_decide_eq_true load.allocated
      fin_cases scale
      · rcases fits with fits | rfl
        · exact byte.trans (extend_of_fits 0x80 0xffffff00 7 32 fits (by decide) (by decide)
            (by decide) (by decide)).symm
        · exact byte.trans (by decide)
      · rcases fits with fits | rfl
        · exact half.trans (extend_of_fits 0x8000 0xffff0000 15 32 fits (by decide) (by decide)
            (by decide) (by decide)).symm
        · exact half.trans (by decide)
      · exact absurd few (by decide)
      · exact absurd few (by decide)

theorem zero_apply_eq_iff {size : Nat} (whole : size ≤ 8) :
    Extension.zero.apply size value = value ↔ Fits size value := by
  have low : (Extension.zero.apply size value).toNat = value.toNat % 2 ^ (8 * size) := by
    change ((value.toBitVec.setWidth (8 * size)).setWidth 64).toNat = _
    rw [BitVec.toNat_setWidth, BitVec.toNat_setWidth, UInt64.toNat_toBitVec]
    refine Nat.mod_eq_of_lt ((Nat.mod_lt _ (Nat.two_pow_pos _)).trans_le ?_)
    exact Nat.pow_le_pow_right (by decide) (by omega)
  rw [← UInt64.toNat_inj, low, Fits]
  constructor
  · intro same
    rw [← same]
    exact Nat.mod_lt _ (Nat.two_pow_pos _)
  · exact Nat.mod_eq_of_lt

end Extensions

/-- The loads that take effect: none of their registers is number 31, the value is not
dropped, and a short one is not read from the SCSI area.  A literal that is not sign-extended
is dropped. -/
def Effective (options : Options) (opcode : UInt32) (ptr : UInt64) : Form → Prop
  | .literal _ => rt opcode = 31
  | form => (∀ number ∈ form.numbers opcode, number ≠ 31) ∧
      (form.narrow = true → scsiArea options (unwrap ptr) = false)

section Handlers

variable {BusState : Type u} {wires : Wires BusState} {options : Options} {opcode : UInt32}
  {form : Form}

theorem number_lt (word : UInt32) : (word &&& 31).toNat < 32 := by
  rw [UInt32.toNat_and]
  exact Nat.lt_succ_of_le Nat.and_le_right

theorem numbers_lt (opcode : UInt32) (form : Form) : ∀ number ∈ form.numbers opcode, number < 32 := by
  have base : rn opcode < 32 := number_lt _
  have first : rt opcode < 32 := number_lt _
  have second : rt2 opcode < 32 := number_lt _
  intro number member
  rcases List.mem_append.mp member with destination | moved
  · cases form <;> simp only [Form.destinations, List.mem_cons, List.not_mem_nil, or_false]
      at destination <;> omega
  · split at moved
    · rw [List.mem_singleton.mp moved]
      exact base
    · exact absurd moved List.not_mem_nil

theorem loaded_numbers (opcode : UInt32) (value value2 : UInt64) (form : Form) :
    (form.loaded opcode value value2).map Prod.fst = form.destinations opcode := by
  cases form with
  | pair double indexing => cases double <;> rfl
  | pairSigned | literal | literalSigned | exclusive | single => rfl

theorem retired_numbers (opcode : UInt32) (value value2 : UInt64)
    (kept : ∀ double, form ≠ .literal double) :
    (form.retired opcode value value2).map Prod.fst = form.destinations opcode := by
  cases form with
  | pair double indexing => cases double <;> rfl
  | literal double => exact absurd rfl (kept double)
  | single extension scale mode => cases extension <;> rfl
  | pairSigned | literalSigned | exclusive => rfl

theorem written_numbers (opcode : UInt32) (register : Nat → UInt64) (form : Form) :
    (form.written opcode register).map Prod.fst = if form.movesBase then [rn opcode] else [] := by
  unfold Form.written
  split <;> rfl

/-- A register is changed twice only by way of number 31. -/
theorem IsIntegerLoad.nodup (load : IsIntegerLoad opcode form)
    (inside : ∀ number ∈ form.numbers opcode, number ≠ 31) : (form.numbers opcode).Nodup := by
  rw [Form.numbers] at inside ⊢
  cases moves : form.movesBase with
  | false =>
      rw [if_neg Bool.false_ne_true, List.append_nil]
      exact load.distinct
  | true =>
      rw [moves, if_pos rfl] at inside
      rw [if_pos rfl]
      have regular := inside (rn opcode) (List.mem_append_right _ List.mem_cons_self)
      refine List.Nodup.append load.distinct (List.nodup_singleton _) ?_
      rw [List.disjoint_singleton]
      exact load.base moves regular

/-- The words of a pair. -/
theorem pair_values (value : UInt64) :
    value >>> 32 = Extension.zero.apply 4 (value >>> 32) ∧
      value &&& 0xffffffff = Extension.zero.apply 4 value ∧
      signExtendWord (value >>> 32) = Extension.signed64.apply 4 (value >>> 32) ∧
      signExtendWord (value &&& 0xffffffff) = Extension.signed64.apply 4 value := by
  have high : Fits 4 (value >>> 32) := by
    rw [Fits, upper_toNat]
    have bound := value.toNat_lt
    omega
  have low : Fits 4 (value &&& 0xffffffff) := by
    rw [Fits, lower_toNat]
    exact Nat.mod_lt _ (by decide)
  have same : (value &&& 0xffffffff).toBitVec.setWidth (8 * 4) = value.toBitVec.setWidth (8 * 4) := by
    apply BitVec.eq_of_toNat_eq
    rw [BitVec.toNat_setWidth, BitVec.toNat_setWidth, UInt64.toNat_toBitVec, UInt64.toNat_toBitVec,
      lower_toNat]
    exact Nat.mod_mod _ _
  refine ⟨((zero_apply_eq_iff (by decide)).mpr high).symm, ?_, signExtendWord_eq high, ?_⟩
  · rw [← (zero_apply_eq_iff (by decide)).mpr low, Extension.apply, Extension.apply, same]
  · rw [signExtendWord_eq low, Extension.apply, Extension.apply, same]

/-- A register filled up with zeros holds what was read unless that was too long. -/
theorem zero_value {area : Bool} {scale : Fin 4} {value : UInt64}
    (seen : scale.val < 3 → if area then value = 0xffffffff else Fits (2 ^ scale.val) value) :
    value = Extension.zero.apply (2 ^ scale.val) value ↔ (scale.val < 2 → area = false) := by
  have whole : 2 ^ scale.val ≤ 2 ^ 3 := Nat.pow_le_pow_right (by decide) (by omega)
  have long : ∀ scale : Fin 4, scale.val < 3 →
      (Fits (2 ^ scale.val) 0xffffffff ↔ ¬scale.val < 2) := by decide
  rw [eq_comm, zero_apply_eq_iff whole]
  by_cases short : scale.val < 3
  · cases area with
    | false => exact iff_of_true (seen short) fun _ => rfl
    | true =>
        rw [seen short, long scale short]
        exact ⟨fun wide narrow => absurd narrow wide, fun wide narrow => absurd (wide narrow) (by decide)⟩
  · have full : scale = 3 := Fin.ext (by omega)
    rw [full]
    exact iff_of_true value.toNat_lt fun narrow => absurd narrow (by decide)

/-- The values put are those wanted unless a short one is too long. -/
theorem retired_eq_iff {area : Bool} {value : UInt64} (value2 : UInt64)
    (load : IsIntegerLoad opcode form) (kept : ∀ double, form ≠ .literal double)
    (seen : ∀ size, size = 1 ∨ size = 2 ∨ size = 4 → form.bytes = size →
      if area then value = 0xffffffff else Fits size value) :
    form.retired opcode value value2 = form.loaded opcode value value2 ↔
      (form.narrow = true → area = false) := by
  have wide : form.narrow = false → (form.narrow = true → area = false) := by
    intro wide narrow
    rw [wide] at narrow
    cases narrow
  have one : ∀ first second : UInt64,
      [(rt opcode, first)] = [(rt opcode, second)] ↔ first = second := by
    simp
  have sizes : ∀ scale : Fin 4, scale.val < 3 →
      2 ^ scale.val = 1 ∨ 2 ^ scale.val = 2 ∨ 2 ^ scale.val = 4 := by decide
  obtain ⟨highWord, lowWord, highSigned, lowSigned⟩ := pair_values value
  cases form with
  | pair double indexing =>
      refine iff_of_true ?_ (wide rfl)
      cases double with
      | false =>
          change [(_, value >>> 32), (_, value &&& 0xffffffff)] =
            [(_, Extension.zero.apply 4 (value >>> 32)), (_, Extension.zero.apply 4 value)]
          rw [← highWord, ← lowWord]
      | true => rfl
  | pairSigned indexing =>
      refine iff_of_true ?_ (wide rfl)
      change [(_, signExtendWord (value >>> 32)), (_, signExtendWord (value &&& 0xffffffff))] = _
      rw [highSigned, lowSigned]
      rfl
  | literal double => exact absurd rfl (kept double)
  | literalSigned =>
      refine iff_of_true ((one _ _).mpr (signExtendWord_eq ?_)) (wide rfl)
      have word := seen 4 (by decide) rfl
      cases area with
      | false => exact word
      | true =>
          have all : value = 0xffffffff := word
          rw [all]
          decide
  | exclusive scale =>
      refine ((one _ _).trans (zero_value fun short => seen _ (sizes scale short) rfl)).trans ?_
      rw [Form.narrow, decide_eq_true_eq]
  | single extension scale mode =>
      cases extension with
      | zero =>
          refine ((one _ _).trans (zero_value fun short => seen _ (sizes scale short) rfl)).trans ?_
          rw [Form.narrow, decide_eq_true_eq]
      | signed64 =>
          have few : scale.val < 3 := of_decide_eq_true load.allocated
          have value := seen _ (sizes scale few) rfl
          refine iff_of_true ((one _ _).mpr (signExtended_eq load (by decide) ?_)) (wide rfl)
          cases area with
          | false => exact .inl value
          | true => exact .inr value
      | signed32 =>
          have few : scale.val < 2 := of_decide_eq_true load.allocated
          have value := seen _ (sizes scale (by omega)) rfl
          refine iff_of_true ((one _ _).mpr (signExtended_eq load (by decide) ?_)) (wide rfl)
          cases area with
          | false => exact .inl value
          | true => exact .inr value

theorem fold_register (puts : List (Nat × UInt64)) (machine : Machine BusState) (context : Context)
    (numbers : ∀ put ∈ puts, put.1 < 32)
    (same : ∀ number < 32, machine.register number = context.get number) :
    ∀ number < 32,
      (puts.foldl (fun machine put => sysPutValueToReg machine put.1 put.2) machine).register number =
        (context.puts puts).get number := by
  induction puts generalizing machine context with
  | nil => exact same
  | cons put rest ih =>
      apply ih
      · exact fun later member => numbers later (List.mem_cons_of_mem _ member)
      · intro number small
        rw [get_put (numbers put List.mem_cons_self) small, ← same number small]
        exact Function.update_apply machine.register put.1 put.2 number

/-- A literal that is not sign-extended is not put anywhere. -/
theorem dropped_iff (double : Bool) (value value2 : UInt64) (register : Nat → UInt64) :
    TakesEffect ((Form.literal double).loaded opcode value value2)
      ((Form.literal double).written opcode register) [] ↔ rt opcode = 31 := by
  constructor
  · intro effect
    by_contra regular
    have put : (rt opcode, Extension.zero.apply (Form.literal double).width value) ∈
        (Form.literal double).loaded opcode value value2 := List.mem_cons_self
    have shown : ∀ word, Context.get ⟨fun _ => word, fun _ => word⟩ (rt opcode) = word := by
      intro word
      unfold Context.get
      split <;> rfl
    have first := effect.registers ⟨fun _ => 0, fun _ => 0⟩ _ put regular
    have second := effect.registers ⟨fun _ => 1, fun _ => 1⟩ _ put regular
    have differ : (0 : UInt64) = 1 :=
      (shown 0).symm.trans ((first.trans second.symm).trans (shown 1))
    exact absurd differ (by decide)
  · intro none
    constructor
    · intro context put member regular
      rw [List.mem_singleton.mp member] at regular
      exact absurd none regular
    · exact fun context put member => absurd member List.not_mem_nil
    · exact fun context number small absent => rfl
    · exact fun context index outside => rfl

theorem effective_iff (kept : ∀ double, form ≠ .literal double) (ptr : UInt64) :
    Effective options opcode ptr form ↔ (∀ number ∈ form.numbers opcode, number ≠ 31) ∧
      (form.narrow = true → scsiArea options (unwrap ptr) = false) := by
  cases form with
  | literal double => exact absurd rfl (kept double)
  | pair | pairSigned | literalSigned | exclusive | single => rfl

theorem puts_numbers (value value2 : UInt64) (register : Nat → UInt64)
    (kept : ∀ double, form ≠ .literal double) :
    (form.retired opcode value value2 ++ form.written opcode register).map Prod.fst =
        form.numbers opcode ∧
      (form.loaded opcode value value2 ++ form.written opcode register).map Prod.fst =
        form.numbers opcode := by
  rw [List.map_append, List.map_append, written_numbers, loaded_numbers,
    retired_numbers opcode value value2 kept]
  exact ⟨rfl, rfl⟩

theorem mem_puts {call : Call} {handled : Bool} {value value2 : UInt64} {put : Nat × UInt64}
    (member : put ∈ call.puts handled value value2) : put ∈ call.puts true value value2 := by
  cases handled with
  | false => exact List.mem_append_right _ member
  | true => exact member

theorem made_lt (load : IsIntegerLoad opcode form) (stack : UInt64 × UInt64) (far : UInt64)
    (machine : Machine BusState) :
    ∀ put ∈ (form.branch.call stack opcode far machine.register).made wires options machine,
      put.1 < 32 := by
  intro put member
  have among := mem_puts member
  rw [(load.fits stack far machine.register).puts] at among
  apply numbers_lt opcode form
  by_cases literal : ∃ double, form = .literal double
  · obtain ⟨double, rfl⟩ := literal
    exact absurd among List.not_mem_nil
  · have kept : ∀ double, form ≠ .literal double := not_exists.mp literal
    rw [← (puts_numbers _ _ machine.register kept).1]
    exact List.mem_map_of_mem among

/-- The calls of a handled load take effect exactly when `Effective` says so. -/
theorem retired_takesEffect_iff {ptr value : UInt64} (value2 : UInt64)
    (load : IsIntegerLoad opcode form) (register : Nat → UInt64)
    (seen : ∀ size, size = 1 ∨ size = 2 ∨ size = 4 → form.bytes = size →
      if scsiArea options (unwrap ptr) then value = 0xffffffff else Fits size value) :
    TakesEffect (form.loaded opcode value value2) (form.written opcode register)
      (form.retired opcode value value2 ++ form.written opcode register) ↔
      Effective options opcode ptr form := by
  by_cases literal : ∃ double, form = .literal double
  · obtain ⟨double, rfl⟩ := literal
    exact dropped_iff double value value2 register
  · have kept : ∀ double, form ≠ .literal double := not_exists.mp literal
    obtain ⟨numbers, wanted⟩ := @puts_numbers opcode form value value2 register kept
    have small : ∀ put ∈ form.retired opcode value value2 ++ form.written opcode register,
        put.1 < 32 := by
      intro put member
      apply numbers_lt opcode form
      rw [← numbers]
      exact List.mem_map_of_mem member
    have inside : (∀ put ∈ form.retired opcode value value2 ++ form.written opcode register,
        put.1 ≠ 31) ↔ ∀ number ∈ form.numbers opcode, number ≠ 31 := by
      rw [← numbers, List.forall_mem_map]
    have distinct : (∀ put ∈ form.retired opcode value value2 ++ form.written opcode register,
        put.1 ≠ 31) → ((form.retired opcode value value2 ++
          form.written opcode register).map Prod.fst).Nodup := by
      intro regular
      rw [numbers]
      exact load.nodup (inside.mp regular)
    rw [takesEffect_iff small (numbers.trans wanted.symm) distinct, effective_iff kept, inside,
      List.append_left_inj, retired_eq_iff value2 load kept seen]

/-- A handled integer load takes effect exactly when `Effective` says so. -/
theorem integer_load_takes_effect_iff (load : IsIntegerLoad opcode form)
    (drives : options.swapDf0WithDfx ≤ 3) (stack : UInt64 × UInt64) (far : UInt64)
    (machine : Machine BusState) :
    let outcome := sysPageFaultReadHandler wires options
      (integerLoad wires options stack opcode far) opcode far machine
    let ptr := form.address opcode far machine.register
    let call := form.branch.call stack opcode far machine.register
    let read := call.read wires options machine
    let puts := call.made wires options machine
    outcome.access = some (ptr, form.bytes) ∧
    (outcome.handled = true ↔ unwrap ptr >>> 32 = 0) ∧
    (∀ context : Context, (∀ number < 32, machine.register number = context.get number) →
      ∀ number < 32, outcome.machine.register number = (context.puts puts).get number) ∧
    ((outcome.handled = true →
        TakesEffect (form.loaded opcode read.2.1 read.2.2.1)
          (form.written opcode machine.register) puts) ↔
      (unwrap ptr >>> 32 = 0 → Effective options opcode ptr form)) := by
  intro outcome ptr call read puts
  have fits : call.Fits opcode far machine.register form := load.fits stack far machine.register
  have small : ∀ put ∈ puts, put.1 < 32 := made_lt load stack far machine
  have run : outcome = call.run wires options machine := load.handler wires options stack far machine
  have place : call.ptr = ptr := fits.ptr
  have answered : read.1 = decide (unwrap ptr >>> 32 = 0) := by
    rw [← place]
    exact sysReadValFromAddr_handled wires options _ _ _ _ _
  have handled : outcome.handled = true ↔ unwrap ptr >>> 32 = 0 := by
    rw [run]
    change read.1 = true ↔ _
    rw [answered, decide_eq_true_eq]
  refine ⟨?_, handled, ?_, imp_congr_ctx handled fun low => ?_⟩
  · rw [run]
    change some (call.ptr, call.size) = _
    rw [place, fits.size]
  · intro context same
    rw [run]
    exact fold_register puts _ context small same
  · have made : puts = form.retired opcode read.2.1 read.2.2.1 ++
        form.written opcode machine.register := by
      rw [← fits.puts]
      change call.puts read.1 read.2.1 read.2.2.1 = _
      rw [answered, decide_eq_true low]
    rw [made]
    apply retired_takesEffect_iff read.2.2.1 load
    intro size sized bytes
    have value := sysReadValFromAddr_value wires options sized drives call.tmp.1 call.tmp.2 ptr
      machine.sys machine.bus low
    rw [← bytes, ← fits.size, ← place] at value
    rw [← bytes, ← fits.size, ← place]
    exact value

end Handlers

/-- `ldr w1, label` is handled, and `w1` keeps what it held; `ldr xzr, [x1]` writes the word
below the saved frame; and where the SCSI area is hidden, `ldrb w0, [x1]` loads a long. -/
theorem literal_load_dropped :
    let literal := sysPageFaultReadHandler deadWires noOptions
      (integerLoad deadWires noOptions (0, 0) 0x18000041 0x1004) 0x18000041 0x1004 idle
    let zero := Branch.ldrImmediate.call (0, 0) 0xf940003f 0x1000 idle.register
    let hidden : Options := { noOptions with disableScsi := true }
    let scsi := sysPageFaultReadHandler deadWires hidden
      (integerLoad deadWires hidden (0, 0) 0x39400020 0xda0000) 0x39400020 0xda0000
      { idle with register := fun _ => 0xda0000 }
    (IsIntegerLoad 0x18000041 (.literal false) ∧ literal.handled = true ∧
      (sysReadValFromAddr deadWires noOptions 0 0 4 0x1004 idle.sys ()).2.1 = 0 ∧
      literal.machine.register 1 = 0x1000) ∧
    (IsIntegerLoad 0xf940003f (.single .zero 3 .unsignedOffset) ∧
      zero.made deadWires noOptions idle = [(31, 0)] ∧ slot 31 = -1) ∧
    (IsIntegerLoad 0x39400020 (.single .zero 0 .unsignedOffset) ∧ scsi.handled = true ∧
      scsi.machine.register 0 = 0xffffffff) := by
  refine ⟨⟨⟨?_, ?_, ?_, ?_⟩, ?_, ?_, ?_⟩, ⟨⟨?_, ?_, ?_, ?_⟩, ?_, ?_⟩, ⟨?_, ?_, ?_, ?_⟩, ?_, ?_⟩ <;>
    decide +kernel

/-- `ldr w1, [x2, #4]`. -/
theorem integer_load_takes_effect_iff_of_ldr :
    let form := Form.single .zero 2 .unsignedOffset
    let call := form.branch.call (0, 0) 0xb9400441 0x1004 idle.register
    let read := call.read deadWires noOptions idle
    (sysPageFaultReadHandler deadWires noOptions
        (integerLoad deadWires noOptions (0, 0) 0xb9400441 0x1004) 0xb9400441 0x1004
        idle).handled = true ∧
      TakesEffect (form.loaded 0xb9400441 read.2.1 read.2.2.1)
        (form.written 0xb9400441 idle.register) (call.made deadWires noOptions idle) := by
  intro form call read
  have load : IsIntegerLoad 0xb9400441 form := by
    constructor <;> decide
  have drives : noOptions.swapDf0WithDfx ≤ 3 := by decide
  have effect := @integer_load_takes_effect_iff Unit deadWires noOptions 0xb9400441 form load drives (0, 0) 0x1004 idle
  have handled := effect.2.1.mpr (by decide)
  exact ⟨handled, effect.2.2.2.mpr (fun _ => ⟨by decide, by decide⟩) handled⟩

end Paulastorm.Faults
