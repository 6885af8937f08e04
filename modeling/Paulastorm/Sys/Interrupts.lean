import Mathlib.Tactic.IntervalCases
import Paulastorm.Library.Transition
import Paulastorm.Library.Word
import Paulastorm.Bus.Observed
import Paulastorm.Sys

namespace Paulastorm.Sys

/-! The interrupt shadow beside the chipset it mirrors. -/

open Library Bus

/-- The interrupt registers of the chipset, and the words that reached `INTREQ` in the
access under way. -/
structure Chipset where
  intena : UInt16
  intreq : UInt16
  requested : List UInt16
deriving Repr, DecidableEq

/-- SET/CLR as the chipset does it. -/
def Chipset.setClr (register word : UInt16) : UInt16 :=
  if word &&& 0x8000 ≠ 0 then register ||| (word &&& 0x7fff)
  else register &&& ~~~(word &&& 0x7fff)

/-- The chipset on the bus; `floating` is what every other address shows.  A wait for the blitter
would not show here: the reads change nothing. -/
def chipset (floating : UInt32 → UInt16) : Wires Chipset where
  write transaction chipset :=
    let register := transaction.address &&& ~~~(1 : UInt32)
    if register = 0xDFF09A then
      { chipset with intena := Chipset.setClr chipset.intena transaction.data }
    else if register = 0xDFF09C then
      { chipset with
        intreq := Chipset.setClr chipset.intreq transaction.data
        requested := chipset.requested ++ [transaction.data] }
    else chipset
  read address _ chipset :=
    let register := address &&& ~~~(1 : UInt32)
    (if register = 0xDFF01C then chipset.intena
      else if register = 0xDFF01E then chipset.intreq
      else floating address, chipset)
  capture _ _ _ chipset := chipset
  invalidate _ _ chipset := chipset

/-- The handlers and the chipset. -/
structure Amiga where
  sys : State
  chipset : Chipset

inductive Access where
  | write (value : UInt64) (size : Nat) (far : UInt64)
  | read (size : Nat) (far : UInt64) (floating : UInt32 → UInt16)
  | interrupt

/-- One guest access or one ARM interrupt. -/
def Access.perform (options : Options) (amiga : Amiga) : Access → Amiga
  | .write value size far =>
      let (_, sys, chip) :=
        sysWriteValToAddr (chipset fun _ => 0) options value 0 size far amiga.sys
          { amiga.chipset with requested := [] }
      ⟨sys, chip⟩
  | .read size far floating =>
      let (_, _, _, sys, chip) :=
        sysReadValFromAddr (chipset floating) options 0 0 size far amiga.sys
          { amiga.chipset with requested := [] }
      ⟨sys, chip⟩
  | .interrupt => ⟨armInterrupt amiga.sys, { amiga.chipset with requested := [] }⟩

def interrupts (options : Options) : Machine Amiga Access where
  step access amiga := some (access.perform options amiga)

/-- The machine before the first access. -/
def powerOn (board : List Board) (metrics : Probe.Metrics) : Amiga where
  sys := ⟨⟨0, 0, false⟩, 0, 1, false, 0, board, metrics⟩
  chipset := ⟨0, 0, []⟩

/-- The shadow is the register, and the guest sees an ARM interrupt when one is pending
and enabled. -/
structure Tracks (amiga : Amiga) : Prop where
  intena : amiga.sys.shadow.intena = amiga.chipset.intena
  arm : amiga.sys.arm ≠ 0 ↔
    amiga.sys.shadow.armPending = true ∧ armEnabled amiga.sys.shadow.intena = true

/-- A word that takes the ARM interrupt back. -/
def acknowledges (word : UInt16) : Bool := word &&& 0xa000 == 0x2000

/-- The access ends the pending ARM interrupt exactly when it delivered such a word. -/
def Acknowledged (before after : Amiga) : Prop :=
  after.sys.shadow.armPending =
    (before.sys.shadow.armPending && !after.chipset.requested.any acknowledges)

/-- No byte of the access lies in `INTENA` or `INTREQ`. -/
def Clear (size : Nat) (far : UInt64) : Prop :=
  far.toNat + size ≤ 0xDFF09A ∨ 0xDFF09E ≤ far.toNat

instance (size : Nat) (far : UInt64) : Decidable (Clear size far) :=
  inferInstanceAs (Decidable (_ ∨ _))

/-- The guest's access sizes. -/
def Sized (size : Nat) : Prop := size = 1 ∨ size = 2 ∨ size = 4 ∨ size = 8

instance (size : Nat) : Decidable (Sized size) := inferInstanceAs (Decidable (_ ∨ _))

/-- The accesses that the exact-address tests of the handlers describe rightly: a write
of a whole word to `INTENA` or `INTREQ` or one clear of both, and a read that is not
wider than the `INTENAR` word it starts in. -/
def Described (access : Access) (_ : Amiga) : Prop :=
  match access with
  | .write _ size far =>
      Sized size ∧ (Clear size (unwrap far) ∨
        size = 2 ∧ (unwrap far = intena ∨ unwrap far = intreq))
  | .read size far _ =>
      Sized size ∧ (unwrap far &&& ~~~(1 : UInt64) = intenar →
        size = 1 ∨ size = 2 ∧ unwrap far = intenar)
  | .interrupt => True

section Words

variable (register : UInt16) (value : UInt64)

theorem setClr_intena :
    setClr register value 0x7fff = Chipset.setClr register (value.toUInt32 &&& 0xffff).toUInt16 := by
  have word : (value.toUInt32 &&& 0xffff).toUInt16 = value.toUInt16 := by
    simp only [UInt32.toUInt16_and, UInt64.toUInt16_toUInt32]
    exact UInt16.and_neg_one
  have set : value &&& 0x8000 = 0 ↔ value.toUInt16 &&& 0x8000 = 0 :=
    Word.and_narrow_eq_iff value 0x8000 0
  rw [word, setClr, Chipset.setClr]
  simp only [ne_eq, set]
  split
  · simp
  · simp

theorem acknowledges_iff :
    value &&& 0xa000 = 0x2000 ↔ acknowledges (value.toUInt32 &&& 0xffff).toUInt16 = true := by
  have word : (value.toUInt32 &&& 0xffff).toUInt16 = value.toUInt16 := by
    simp only [UInt32.toUInt16_and, UInt64.toUInt16_toUInt32]
    exact UInt16.and_neg_one
  rw [word, acknowledges, beq_iff_eq]
  exact Word.and_narrow_eq_iff value 0xa000 0x2000

theorem withLow_self :
    withLow register (register.toUInt32 &&& 0xff).toUInt64 = register := by
  rw [withLow, ← UInt16.toBitVec_inj]
  apply BitVec.eq_of_getLsbD_eq
  intro index inside
  interval_cases index <;> simp

theorem withHigh_self :
    withHigh register ((register.toUInt32 >>> 8) &&& 0xff).toUInt64 = register := by
  rw [withHigh, ← UInt16.toBitVec_inj]
  apply BitVec.eq_of_getLsbD_eq
  intro index inside
  interval_cases index <;> simp

end Words

section Writes

variable {options : Options} {state : State} {value value2 far : UInt64} {size : Nat}
  {floating : UInt32 → UInt16} {chip : Chipset}

theorem clear_low_toNat (address : UInt32) :
    (address &&& ~~~(1 : UInt32)).toNat = address.toNat / 2 * 2 := by
  have bounded := address.toNat_lt
  have shifted : address &&& ~~~(1 : UInt32) = (address >>> 1) <<< 1 := by
    rw [← UInt32.toBitVec_inj]
    exact Word.and_not_low address.toBitVec 1
  rw [shifted]
  simp [Nat.shiftRight_eq_div_pow, Nat.shiftLeft_eq]
  omega

theorem clear_low_toNat64 (far : UInt64) :
    (far &&& ~~~(1 : UInt64)).toNat = far.toNat / 2 * 2 := by
  have bounded := far.toNat_lt
  have shifted : far &&& ~~~(1 : UInt64) = (far >>> 1) <<< 1 := by
    rw [← UInt64.toBitVec_inj]
    exact Word.and_not_low far.toBitVec 1
  rw [shifted]
  simp [Nat.shiftRight_eq_div_pow, Nat.shiftLeft_eq]
  omega

theorem chipset_steady : Steady (chipset floating) := fun _ _ _ => rfl

/-- Cycles that miss both registers leave the chipset alone. -/
theorem writes_miss {waits : Prop} {call : (State : Type) → Wires State → State → State}
    {stored : List (UInt32 × UInt8)} (written : Writes waits call stored)
    (miss : ∀ cell ∈ stored, cell.1.toNat < 0xDFF09A ∨ 0xDFF09E ≤ cell.1.toNat) :
    call Chipset (chipset floating) chip = chip := by
  obtain ⟨observations, -, bytes, performed⟩ := written.steady
  rw [performed _ _ chipset_steady]
  clear performed written
  subst bytes
  induction observations with
  | nil => rfl
  | cons observation rest ih =>
      have here : observation.address.toNat < 0xDFF09A ∨ 0xDFF09E ≤ observation.address.toNat := by
        have first : (observation.address,
            lane observation.address observation.transaction.data) ∈
            observation.transaction.bytes := by
          unfold Transaction.bytes
          split
          · exact List.mem_cons_self
          · exact List.mem_cons_self
        exact miss _ (List.mem_flatMap.mpr ⟨observation, List.mem_cons_self, first⟩)
      have place := clear_low_toNat observation.address
      have intenaMissed : observation.address &&& ~~~(1 : UInt32) ≠ 0xDFF09A := by
        intro hit
        rw [hit] at place
        change 0xDFF09A = _ at place
        omega
      have intreqMissed : observation.address &&& ~~~(1 : UInt32) ≠ 0xDFF09C := by
        intro hit
        rw [hit] at place
        change 0xDFF09C = _ at place
        omega
      have kept : observation.perform (chipset floating) chip = chip :=
        (if_neg intenaMissed).trans (if_neg intreqMissed)
      rw [List.foldl_cons, kept]
      apply ih
      intro cell member
      exact miss cell (List.mem_append_right _ member)

theorem located_miss {count : Nat} (low : far < 0x1000000) (clear : Clear size far)
    (short : size ≤ 8) :
    ∀ cell ∈ located far.toUInt32 (bigEndian size count),
      cell.1.toNat < 0xDFF09A ∨ 0xDFF09E ≤ cell.1.toNat := by
  intro cell member
  obtain ⟨index, inside, place⟩ := located_address member
  have below : far.toNat < 2 ^ 24 := UInt64.lt_iff_toNat_lt.mp low
  rw [bigEndian_length] at inside
  rw [place, UInt64.toNat_toUInt32]
  unfold Clear at clear
  omega

theorem writeSized_miss (sized : Sized size) (low : far < 0x1000000) (clear : Clear size far) :
    writeSized (chipset floating) value value2 size far chip = chip := by
  rcases sized with rfl | rfl | rfl | rfl
  · exact writes_miss (psWrite8_writes _ _) (located_miss low clear (by decide))
  · exact writes_miss (psWrite16_writes _ _) (located_miss low clear (by decide))
  · exact writes_miss (psWrite32_writes _ _) (located_miss low clear (by decide))
  · exact writes_miss (psWrite64_writes _ _) (located_miss low clear (by decide))

theorem busAddress_clear {bus : UInt64} (reached : busAddress options far = some bus)
    (sized : Sized size) (low : far < 0x1000000) (clear : Clear size far) :
    bus < 0x1000000 ∧ Clear size bus := by
  have moved : trapdoorArea far = true →
      far + 0xB80000 < 0x1000000 ∧ Clear size (far + 0xB80000) := by
    intro trapdoor
    simp only [trapdoorArea, Bool.and_eq_true, decide_eq_true_eq, UInt64.le_iff_toNat_le] at trapdoor
    have place : (far + 0xB80000).toNat = far.toNat + 0xB80000 := by
      rw [UInt64.toNat_add]
      change (far.toNat + 0xB80000) % 2 ^ 64 = _
      have upper : far.toNat ≤ 0x0FFFFF := trapdoor.2
      omega
    have upper : far.toNat ≤ 0x0FFFFF := trapdoor.2
    rw [UInt64.lt_iff_toNat_lt, Clear, place]
    change far.toNat + 0xB80000 < 0x1000000 ∧ _
    unfold Sized at sized
    omega
  simp only [busAddress] at reached
  split_ifs at reached with trapdoor
  · rw [← Option.some.inj reached]
    exact moved (Bool.and_eq_true_iff.mp trapdoor).2
  · rw [← Option.some.inj reached]
    exact ⟨low, clear⟩

/-- Nothing behind the interrupt shadow touches it. -/
theorem writeMapped_shadow (options : Options) (value value2 : UInt64) (size : Nat) (far : UInt64)
    (state : State) {BusState : Type} (wires : Wires BusState) (bus : BusState) :
    (writeMapped wires options value value2 size far state bus).1.shadow = state.shadow ∧
      (writeMapped wires options value value2 size far state bus).1.arm = state.arm := by
  have overlaid : (overlayWrite value size far state).shadow = state.shadow ∧
      (overlayWrite value size far state).arm = state.arm := by
    unfold overlayWrite
    split <;> exact ⟨rfl, rfl⟩
  have driven : ∀ before, (driveWrite options value far before).2.shadow = before.shadow ∧
      (driveWrite options value far before).2.arm = before.arm := by
    intro before
    simp only [driveWrite]
    split <;> exact ⟨rfl, rfl⟩
  have configured : ∀ before board sent, (autoconfig before board sent far).shadow = before.shadow ∧
      (autoconfig before board sent far).arm = before.arm := by
    intro before board sent
    simp only [autoconfig]
    split_ifs <;> exact ⟨rfl, rfl⟩
  have sent := driven (overlayWrite value size far state)
  rw [overlaid.1, overlaid.2] at sent
  simp only [writeMapped]
  split_ifs
  · exact ⟨rfl, rfl⟩
  · exact ⟨rfl, rfl⟩
  · cases waitingBoard options far _ with
    | some board =>
        exact ⟨(configured _ board _).1.trans sent.1,
          (configured _ board _).2.trans sent.2⟩
    | none =>
        cases busAddress options far with
        | none => exact sent
        | some bus => exact sent

theorem writeMapped_miss (sized : Sized size) (clear : Clear size far) :
    (writeMapped (chipset floating) options value value2 size far state chip).2 = chip := by
  simp only [writeMapped]
  split_ifs with serial unmapped
  · rfl
  · rfl
  · cases waitingBoard options far _ with
    | some board => rfl
    | none =>
        cases reached : busAddress options far with
        | none => rfl
        | some bus =>
            have landed := busAddress_clear reached sized (UInt64.not_le.mp unmapped) clear
            exact writeSized_miss sized landed.1 landed.2

/-- A word written to one of the two registers goes to the bus as it is. -/
theorem writeMapped_register (register : far = intena ∨ far = intreq) :
    writeMapped (chipset floating) options value value2 2 far state chip =
      (state, psWrite16 (chipset floating) far.toUInt32 value.toUInt32 chip) := by
  have overlaid : overlayWrite value 2 far state = state := if_neg fun hit => by cases hit.2
  have driven : driveWrite options value far state = (value, state) := by
    apply if_neg
    rintro ⟨hit, -⟩
    rcases register with rfl | rfl <;> cases hit
  have bare : waitingBoard options far state = none := by
    apply if_neg
    rintro ⟨-, lower, -⟩
    rcases register with rfl | rfl <;> exact absurd lower (by decide)
  have reached : busAddress options far = some far := by
    have outside : trapdoorArea far = false ∧ slowArea far = false := by
      rcases register with rfl | rfl <;> decide
    simp [busAddress, outside]
  have mapped : ¬ 0x1000000 ≤ far := by
    rcases register with rfl | rfl <;> decide
  simp only [writeMapped, if_neg mapped, overlaid, driven, bare, reached]
  rw [if_neg fun hit => by cases hit.2]
  rfl

/-- Both exact-address tests fail away from the registers. -/
theorem clear_ne (sized : Sized size) (clear : Clear size far) : far ≠ intena ∧ far ≠ intreq := by
  constructor
  · rintro rfl
    unfold Clear Sized at *
    change 0xDFF09A + size ≤ 0xDFF09A ∨ 0xDFF09E ≤ 0xDFF09A at clear
    omega
  · rintro rfl
    unfold Clear Sized at *
    change 0xDFF09C + size ≤ 0xDFF09A ∨ 0xDFF09E ≤ 0xDFF09C at clear
    omega

/-- A write away from both registers leaves shadow and chipset alone. -/
theorem write_miss (options : Options) (state : State) (value value2 : UInt64)
    (floating : UInt32 → UInt16) (chip : Chipset) (sized : Sized size)
    (clear : Clear size (unwrap far)) :
    let done := sysWriteValToAddr (chipset floating) options value value2 size far state chip
    done.2.1.shadow = state.shadow ∧ done.2.1.arm = state.arm ∧ done.2.2 = chip := by
  obtain ⟨intenaMissed, intreqMissed⟩ := clear_ne sized clear
  simp only [sysWriteValToAddr, writeAround, if_neg intenaMissed, if_neg intreqMissed]
  split_ifs with high scsi consumed
  · exact ⟨rfl, rfl, rfl⟩
  · exact ⟨rfl, rfl, rfl⟩
  · exact ⟨rfl, rfl, rfl⟩
  · have kept := writeMapped_shadow options value value2 size (unwrap far)
      { state with metrics := (Probe.busWrite state.metrics value size (unwrap far)).2 }
      (chipset floating) chip
    exact ⟨kept.1, kept.2, writeMapped_miss sized clear⟩

/-- A word written to one of the two registers goes past the probe. -/
theorem write_register (options : Options) (state : State) (value value2 : UInt64)
    (floating : UInt32 → UInt16) (chip : Chipset)
    (register : unwrap far = intena ∨ unwrap far = intreq) :
    sysWriteValToAddr (chipset floating) options value value2 2 far state chip =
      (true,
        (if unwrap far = intena then shadowIntena state value else shadowIntreq state value),
        psWrite16 (chipset floating) (unwrap far).toUInt32 value.toUInt32 chip) := by
  have low : ¬ unwrap far >>> 32 ≠ 0 := by
    rcases register with here | here <;> rw [here] <;> decide
  have scsi : ¬ scsiArea options (unwrap far) = true := by
    have outside : ¬ unwrap far ≤ 0x00da7fff := by
      rcases register with here | here <;> rw [here] <;> decide
    simp [scsiArea, outside]
  have unprobed : ∀ metrics, Probe.busWrite metrics value 2 (unwrap far) = (false, metrics) := by
    intro metrics
    apply if_pos
    left
    rcases register with here | here <;> rw [here] <;> decide
  simp only [sysWriteValToAddr, writeAround, if_neg low, if_neg scsi, unprobed, writeMapped_register register,
    Bool.false_eq_true, if_false]
  rcases register with here | here
  · have other : ¬ unwrap far = intreq := by rw [here]; decide
    simp only [if_pos here, if_neg other]
  · have other : ¬ unwrap far = intena := by rw [here]; decide
    simp only [if_pos here, if_neg other]

theorem chipset_intena (data : UInt32) :
    psWrite16 (chipset floating) intena.toUInt32 data chip =
      { chip with intena := Chipset.setClr chip.intena (data &&& 0xffff).toUInt16 } := by
  have place : intena.toUInt32 &&& 0xffffff &&& ~~~(1 : UInt32) = 0xDFF09A := by decide
  rw [psWrite16, checkBlitActive_steady chipset_steady, psWrite16Int_cycle _ (by decide)]
  exact if_pos place

theorem chipset_intreq (data : UInt32) :
    psWrite16 (chipset floating) intreq.toUInt32 data chip =
      { chip with
        intreq := Chipset.setClr chip.intreq (data &&& 0xffff).toUInt16
        requested := chip.requested ++ [(data &&& 0xffff).toUInt16] } := by
  have place : intreq.toUInt32 &&& 0xffffff &&& ~~~(1 : UInt32) = 0xDFF09C := by decide
  have other : intreq.toUInt32 &&& 0xffffff &&& ~~~(1 : UInt32) ≠ 0xDFF09A := by decide
  rw [psWrite16, checkBlitActive_steady chipset_steady, psWrite16Int_cycle _ (by decide)]
  exact (if_neg other).trans (if_pos place)

end Writes

section Reads

variable {options : Options} {state : State} {value value2 far : UInt64} {size : Nat}
  {floating : UInt32 → UInt16} {chip : Chipset}

/-- Reads leave the chipset as it is. -/
theorem psRead8_chip (address : UInt32) : (psRead8 (chipset floating) address chip).2 = chip := by
  simp only [psRead8]
  split <;> rfl

theorem psRead16_chip (address : UInt32) : (psRead16 (chipset floating) address chip).2 = chip := by
  simp only [psRead16]
  split
  · rw [psRead8_chip, psRead8_chip]
  · rfl

theorem psRead32_chip (address : UInt32) : (psRead32 (chipset floating) address chip).2 = chip := by
  simp only [psRead32]
  split
  · rw [psRead8_chip, psRead16_chip, psRead8_chip]
  · rw [psRead16_chip, psRead16_chip]

theorem readSized_chip (sized : Sized size) :
    (readSized (chipset floating) value value2 size far chip).2.2 = chip := by
  rcases sized with rfl | rfl | rfl | rfl
  · exact psRead8_chip _
  · exact psRead16_chip _
  · exact psRead32_chip _
  · change (psRead32 (chipset floating) _ (psRead32 (chipset floating) _ chip).2).2 = chip
    rw [psRead32_chip, psRead32_chip]

theorem readIntreqr_kept (shadow : IntShadow) :
    (readIntreqr size far value shadow).2.intena = shadow.intena ∧
      (readIntreqr size far value shadow).2.armPending = shadow.armPending := by
  unfold readIntreqr
  split_ifs <;> exact ⟨rfl, rfl⟩

/-- The corrections keep what the read at `INTENAR`, if it is one, leaves. -/
theorem readCorrected_kept (options : Options) (size : Nat) (far value : UInt64) (state : State) :
    (readCorrected options size far value state).2.shadow.intena =
        (if far &&& ~~~(1 : UInt64) = intenar then readIntenar size far value state.shadow
          else state.shadow).intena ∧
      (readCorrected options size far value state).2.shadow.armPending = state.shadow.armPending ∧
      (readCorrected options size far value state).2.arm = state.arm := by
  have pending : ∀ shadow, (readIntenar size far value shadow).armPending = shadow.armPending := by
    intro shadow
    unfold readIntenar
    split_ifs <;> rfl
  simp only [readCorrected]
  split_ifs
  all_goals simp only [(readIntreqr_kept _).1, (readIntreqr_kept _).2, pending, and_self]

/-- A read at `INTENAR` that stays in the word returns what the shadow then keeps. -/
theorem readIntenar_self (agrees : state.shadow.intena = chip.intena)
    (here : far &&& ~~~(1 : UInt64) = intenar) (within : size = 1 ∨ size = 2 ∧ far = intenar) :
    (readIntenar size far (readSized (chipset floating) value value2 size far chip).1
      state.shadow).intena = chip.intena := by
  have place := clear_low_toNat64 far
  rw [here] at place
  have which : far = intenar ∨ far = intenar + 1 := by
    have value : intenar.toNat = 0xDFF01C := rfl
    rw [value] at place
    rcases Nat.lt_or_ge far.toNat 0xDFF01D with low | high
    · left
      apply UInt64.toNat_inj.mp
      omega
    · right
      apply UInt64.toNat_inj.mp
      change far.toNat = 0xDFF01D
      omega
  rcases within with rfl | ⟨rfl, rfl⟩
  · rcases which with rfl | rfl
    · have upper : (psRead8 (chipset floating) intenar.toUInt32 chip).1 =
          (chip.intena.toUInt32 >>> 8) &&& 0xff := by
        simp only [psRead8]
        rw [if_pos (by decide)]
        simp only [chipset]
        rw [if_pos (by decide)]
      change (readIntenar 1 intenar (psRead8 (chipset floating) intenar.toUInt32 chip).1.toUInt64
        state.shadow).intena = _
      rw [readIntenar, if_neg (by decide), if_neg (by decide), upper, agrees]
      exact withHigh_self _
    · have lower : (psRead8 (chipset floating) (intenar + 1).toUInt32 chip).1 =
          chip.intena.toUInt32 &&& 0xff := by
        simp only [psRead8]
        rw [if_neg (by decide)]
        simp only [chipset]
        rw [if_pos (by decide)]
      change (readIntenar 1 (intenar + 1)
        (psRead8 (chipset floating) (intenar + 1).toUInt32 chip).1.toUInt64 state.shadow).intena = _
      rw [readIntenar, if_neg (by decide), if_pos (by decide), lower, agrees]
      exact withLow_self _
  · have word : (psRead16 (chipset floating) intenar.toUInt32 chip).1 = chip.intena.toUInt32 := by
      simp only [psRead16]
      rw [if_neg (by decide)]
      simp only [chipset]
      rw [if_pos (by decide)]
    change (readIntenar 2 intenar (psRead16 (chipset floating) intenar.toUInt32 chip).1.toUInt64
      state.shadow).intena = _
    rw [readIntenar, if_pos rfl, word]
    simp

/-- The trapdoor is nowhere near the registers. -/
theorem trapdoor_within (options : Options)
    (within : far &&& ~~~(1 : UInt64) = intenar → size = 1 ∨ size = 2 ∧ far = intenar) :
    trapdoorAddress options far &&& ~~~(1 : UInt64) = intenar →
      size = 1 ∨ size = 2 ∧ trapdoorAddress options far = intenar := by
  unfold trapdoorAddress
  split
  next trapdoor =>
    intro hit
    have area := (Bool.and_eq_true_iff.mp trapdoor).2
    simp only [trapdoorArea, Bool.and_eq_true, decide_eq_true_eq, UInt64.le_iff_toNat_le] at area
    have upper : far.toNat ≤ 0x0FFFFF := area.2
    have place := clear_low_toNat64 (far + 0xB80000)
    rw [hit, UInt64.toNat_add] at place
    change 0xDFF01C = (far.toNat + 0xB80000) % 2 ^ 64 / 2 * 2 at place
    omega
  next => exact within

/-- What a read leaves of the shadow and of the chipset. -/
structure ReadKept (state : State) (chip : Chipset) (after : State) (chipAfter : Chipset) :
    Prop where
  intena : after.shadow.intena = state.shadow.intena
  pending : after.shadow.armPending = state.shadow.armPending
  arm : after.arm = state.arm
  chipset : chipAfter = chip

theorem ReadKept.after {middle after : State} {chipAfter : Chipset}
    (same : middle.shadow = state.shadow ∧ middle.arm = state.arm)
    (kept : ReadKept middle chip after chipAfter) : ReadKept state chip after chipAfter where
  intena := kept.intena.trans (congrArg _ same.1)
  pending := kept.pending.trans (congrArg _ same.1)
  arm := kept.arm.trans same.2
  chipset := kept.chipset

theorem busRead_kept (options : Options) (floating : UInt32 → UInt16) (value value2 : UInt64)
    (agrees : state.shadow.intena = chip.intena) (sized : Sized size)
    (within : far &&& ~~~(1 : UInt64) = intenar → size = 1 ∨ size = 2 ∧ far = intenar) :
    let seen := readSized (chipset floating) value value2 size far chip
    ReadKept state chip (readCorrected options size far seen.1 state).2 seen.2.2 := by
  intro seen
  obtain ⟨intenaAfter, pendingAfter, armAfter⟩ :=
    readCorrected_kept options size far seen.1 state
  refine ⟨?_, pendingAfter, armAfter, readSized_chip sized⟩
  rw [intenaAfter]
  split
  next here => rw [readIntenar_self agrees here (within here), agrees]
  next => rfl

theorem readMapped_kept (agrees : state.shadow.intena = chip.intena) (sized : Sized size)
    (within : far &&& ~~~(1 : UInt64) = intenar → size = 1 ∨ size = 2 ∧ far = intenar) :
    let done := readMapped (chipset floating) options value value2 size far state chip
    ReadKept state chip done.2.2.1 done.2.2.2 := by
  have skipped : (skipDisabled options size far state).shadow = state.shadow ∧
      (skipDisabled options size far state).arm = state.arm := by
    unfold skipDisabled
    split <;> exact ⟨rfl, rfl⟩
  have unchanged : ReadKept state chip (skipDisabled options size far state) chip :=
    ⟨congrArg _ skipped.1, congrArg _ skipped.1, skipped.2, rfl⟩
  simp only [readMapped]
  split_ifs with blocked overlaid slow
  · exact ⟨rfl, rfl, rfl, rfl⟩
  all_goals
    cases romBoard options size far (skipDisabled options size far state) with
    | some board => exact unchanged
    | none => ?_
  · exact unchanged
  · exact unchanged
  · have kept := busRead_kept options floating value value2 ((congrArg _ skipped.1).trans agrees)
      sized (trapdoor_within options within)
    exact kept.after skipped

theorem read_kept (options : Options) (floating : UInt32 → UInt16) (value value2 : UInt64)
    (agrees : state.shadow.intena = chip.intena) (sized : Sized size)
    (within : unwrap far &&& ~~~(1 : UInt64) = intenar →
      size = 1 ∨ size = 2 ∧ unwrap far = intenar) :
    let done := sysReadValFromAddr (chipset floating) options value value2 size far state chip
    ReadKept state chip done.2.2.2.1 done.2.2.2.2 := by
  simp only [sysReadValFromAddr, readAround]
  cases Probe.busRead state.metrics size far with
  | some word => exact ⟨rfl, rfl, rfl, rfl⟩
  | none =>
      dsimp only
      split_ifs
      · exact ⟨rfl, rfl, rfl, rfl⟩
      · exact ⟨rfl, rfl, rfl, rfl⟩
      · exact ⟨rfl, rfl, rfl, rfl⟩
      · exact readMapped_kept agrees sized within

end Reads

section Run

variable {options : Options} {before after : Amiga}

theorem write_tracks {value : UInt64} {size : Nat} {far : UInt64} (tracks : Tracks before)
    (described : Described (.write value size far) before) :
    Tracks (Access.perform options before (.write value size far)) ∧
      Acknowledged before (Access.perform options before (.write value size far)) := by
  obtain ⟨intenaBefore, armBefore⟩ := tracks
  obtain ⟨sized, clear | ⟨rfl, register⟩⟩ := described
  · obtain ⟨shadow, arm, chip⟩ := write_miss options before.sys value 0 (fun _ => 0)
      { before.chipset with requested := [] } sized clear
    simp only [Access.perform, Acknowledged]
    refine ⟨⟨?_, ?_⟩, ?_⟩
    · rw [shadow, chip, intenaBefore]
    · rw [shadow, arm]
      exact armBefore
    · rw [shadow, chip, List.any_nil, Bool.not_false, Bool.and_true]
  · have written := write_register options before.sys value 0 (fun _ => 0)
      { before.chipset with requested := [] } register
    simp only [Access.perform, Acknowledged, written]
    rcases register with here | here
    · rw [if_pos here, here, chipset_intena]
      refine ⟨⟨?_, ?_⟩, ?_⟩
      · change setClr before.sys.shadow.intena value 0x7fff = _
        rw [setClr_intena, intenaBefore]
      · change (if before.sys.shadow.armPending then _ else _) ≠ 0 ↔ _ ∧ _
        cases pending : before.sys.shadow.armPending with
        | true =>
            simp only [if_true, shadowIntena, pending, true_and]
            cases armEnabled (setClr before.sys.shadow.intena value 0x7fff) <;> decide
        | false =>
            rw [pending] at armBefore
            simpa [shadowIntena, pending] using armBefore
      · rw [List.any_nil, Bool.not_false, Bool.and_true]
        rfl
    · have other : ¬ unwrap far = intena := by rw [here]; decide
      rw [if_neg other, here, chipset_intreq]
      have taken := acknowledges_iff value
      cases acknowledged : acknowledges (value.toUInt32 &&& 0xffff).toUInt16 with
      | true =>
          rw [acknowledged] at taken
          have matched := taken.mpr rfl
          refine ⟨⟨?_, ?_⟩, ?_⟩
          · simp only [shadowIntreq, if_pos matched]
            exact intenaBefore
          · simp only [shadowIntreq, if_pos matched]
            simp
          · simp only [shadowIntreq, if_pos matched, List.nil_append, List.any_cons, acknowledged]
            simp
      | false =>
          rw [acknowledged] at taken
          have unmatched : ¬ value &&& 0xa000 = 0x2000 := fun hit => by cases taken.mp hit
          refine ⟨⟨?_, ?_⟩, ?_⟩
          · simp only [shadowIntreq, if_neg unmatched]
            exact intenaBefore
          · simp only [shadowIntreq, if_neg unmatched]
            exact armBefore
          · simp only [shadowIntreq, if_neg unmatched, List.nil_append, List.any_cons, acknowledged]
            simp

theorem read_tracks {size : Nat} {far : UInt64} {floating : UInt32 → UInt16}
    (tracks : Tracks before) (described : Described (.read size far floating) before) :
    Tracks (Access.perform options before (.read size far floating)) ∧
      Acknowledged before (Access.perform options before (.read size far floating)) := by
  obtain ⟨intenaBefore, armBefore⟩ := tracks
  obtain ⟨sized, within⟩ := described
  obtain ⟨kept, pending, arm, chip⟩ := read_kept options floating 0 0
    (show before.sys.shadow.intena = { before.chipset with requested := [] }.intena
      from intenaBefore) sized within
  simp only [Access.perform, Acknowledged]
  refine ⟨⟨?_, ?_⟩, ?_⟩
  · rw [kept, chip, intenaBefore]
  · rw [kept, pending, arm]
    exact armBefore
  · rw [pending, chip, List.any_nil, Bool.not_false, Bool.and_true]

theorem interrupt_tracks (tracks : Tracks before) :
    Tracks (Access.perform options before .interrupt) := by
  obtain ⟨intenaBefore, armBefore⟩ := tracks
  refine ⟨intenaBefore, ?_⟩
  change (if armEnabled before.sys.shadow.intena then 6 else before.sys.arm) ≠ 0 ↔
    true = true ∧ armEnabled before.sys.shadow.intena = true
  cases enabled : armEnabled before.sys.shadow.intena with
  | true => simp
  | false =>
      rw [enabled] at armBefore
      simpa using armBefore

/-- What one access keeps: the shadow, and the pending interrupt unless the access
takes it back. -/
theorem step_tracks {access : Access} (tracks : Tracks before)
    (described : Described access before) :
    Tracks (access.perform options before) ∧
      (access ≠ .interrupt → Acknowledged before (access.perform options before)) := by
  cases access with
  | write value size far =>
      obtain ⟨kept, acknowledged⟩ := @write_tracks options before value size far tracks described
      exact ⟨kept, fun _ => acknowledged⟩
  | read size far floating =>
      obtain ⟨kept, acknowledged⟩ := @read_tracks options before size far floating tracks described
      exact ⟨kept, fun _ => acknowledged⟩
  | interrupt => exact ⟨interrupt_tracks tracks, fun absurdity => absurd rfl absurdity⟩

end Run

/-- In every run of accesses that the exact-address tests describe, the shadow tracks
the chipset after every access, and the next access takes the ARM interrupt back
exactly when it delivers the word that does. -/
theorem interrupt_shadow_tracks {options : Options} {board : List Board} {metrics : Probe.Metrics}
    {accesses : List Access} {amiga : Amiga}
    (run : (interrupts options).Runs Described (powerOn board metrics) accesses amiga) :
    Tracks amiga ∧ ∀ access, Described access amiga → access ≠ .interrupt →
      Acknowledged amiga (access.perform options amiga) := by
  have tracks : Tracks amiga := by
    apply run.invariant (motive := Tracks)
    · intro access before after described stepped tracks
      cases stepped
      exact (step_tracks tracks described).1
    · exact ⟨rfl, show (0 : UInt8) ≠ 0 ↔ false = true ∧ armEnabled 0 = true by decide⟩
  exact ⟨tracks, fun access described guest => (step_tracks tracks described).2 guest⟩

/-- No boot option is set. -/
def stock : Options :=
  ⟨false, false, 0, false, false, false, fun _ => 0, false, false⟩

/-- The guest enables `INTEN` and `EXTER`, an ARM interrupt arrives, the guest reads it
and takes it back, the last access through a mirror of the address space. -/
def servedInterrupt : List Access :=
  [.write 0xE000 2 0xDFF09A, .read 1 0xDFF01C fun _ => 0, .interrupt,
    .read 2 0xDFF01E fun _ => 0, .write 0x12345678 4 0xDFF180, .write 0x2000 2 0x100DFF09C]

set_option maxRecDepth 20000 in
theorem interrupt_shadow_tracks_of_servedInterrupt :
    ∃ amiga, (interrupts stock).Runs Described (powerOn [] Probe.init) servedInterrupt amiga ∧
      Tracks amiga ∧
      (amiga.sys.shadow.intena, amiga.sys.arm, amiga.chipset.requested) = (0x6000, 0, [0x2000]) := by
  have first : (interrupts stock).Runs Described (powerOn [] Probe.init) servedInterrupt
      (servedInterrupt.foldl (Access.perform stock) (powerOn [] Probe.init)) := by
    refine .step ⟨.inr (.inl rfl), .inr ⟨rfl, .inl rfl⟩⟩ rfl
      (.step ⟨.inl rfl, fun _ => .inl rfl⟩ rfl (.step trivial rfl
      (.step ⟨.inr (.inl rfl), fun here => absurd here (by decide)⟩ rfl
      (.step ⟨.inr (.inr (.inl rfl)), .inl (.inr (by decide))⟩ rfl
      (.step ⟨.inr (.inl rfl), .inr ⟨rfl, .inr rfl⟩⟩ rfl (.refl _))))))
  exact ⟨_, first, (interrupt_shadow_tracks first).1, by decide⟩

/-- One long word over both registers, and the shadow is lost. -/
theorem longword_loses_shadow :
    ∃ amiga, (interrupts stock).Runs Machine.anyStep (powerOn [] Probe.init)
        [.write 0xE0007FFF 4 0xDFF09A] amiga ∧
      (amiga.sys.shadow.intena, amiga.chipset.intena) = (0, 0x6000) ∧ ¬ Tracks amiga := by
  refine ⟨_, .step trivial rfl (.refl _), by decide, fun tracks => ?_⟩
  have differ := tracks.intena
  revert differ
  decide

end Paulastorm.Sys
