import Mathlib.Tactic.IntervalCases
import Paulastorm.MainLoop

namespace Paulastorm.MainLoop

/-! The dispatch loop as a 68k with interrupt requests.

`M68k` has its three stack pointers and its status register as the 68k has them.  Helpers
and lookups of the loop do not show in it, and an interrupt is the exception of the 68k.
-/

open Library

structure M68k where
  d : Fin 8 → UInt32
  a : Fin 7 → UInt32
  fp : Fin 8 → UInt64
  pc : UInt32
  sr : UInt16
  usp : UInt32
  isp : UInt32
  msp : UInt32
  cacr : UInt32
  fpcr : UInt16
  fpsr : UInt32
  fpiar : UInt32
  insnCount : UInt64
  vbr : UInt32
  memory : UInt32 → UInt8

namespace M68k

/-- The stack pointer that the status register selects. -/
def sp (core : M68k) : UInt32 :=
  if core.sr &&& srS = 0 then core.usp else if core.sr &&& srM ≠ 0 then core.msp else core.isp

def withSp (core : M68k) (sp : UInt32) : M68k :=
  if core.sr &&& srS = 0 then { core with usp := sp }
  else if core.sr &&& srM ≠ 0 then { core with msp := sp }
  else { core with isp := sp }

/-- A frame of format 0: the status register, the program counter and the vector offset. -/
def frame (sr : UInt16) (pc : UInt32) (vector : UInt16) : List UInt8 :=
  bigEndian 2 sr.toNat ++ bigEndian 4 pc.toNat ++ bigEndian 2 vector.toNat

/-- The autovector of a level. -/
def vector (level : UInt16) : UInt16 := 4 * (24 + level)

/-- The status register after the exception: supervisor, no trace, masked up to the level. -/
def entered (level sr : UInt16) : UInt16 :=
  (sr &&& 0x18ff) ||| srS ||| ((level &&& 7) <<< srbIpl)

/-- The exception of an interrupt, without the throwaway frame of a real 68020 or later, which
would also clear the M bit. -/
def interrupt (level : UInt16) (core : M68k) : M68k :=
  let supervisor := { core with sr := entered level core.sr }
  let sp := supervisor.sp - 8
  let memory := storeBytes sp (frame core.sr core.pc (vector level)) core.memory
  { supervisor.withSp sp with
    memory
    pc := loadLong memory (core.vbr + (vector level).toUInt32) }

/-- `RTE` from a frame of format 0. -/
def rte (core : M68k) : M68k :=
  let sp := core.sp
  { core.withSp (sp + 8) with
    sr := UInt16.ofNat (ofBigEndian (loadBytes core.memory sp 2))
    pc := loadLong core.memory (sp + 2) }

end M68k

/-- The 68k in the registers of translated code. -/
def guestOf (registers : Registers) (memory : UInt32 → UInt8) (vbr : UInt32) : M68k :=
  let sr := swapFlags registers.sr
  { M68k.withSp
      ⟨registers.d, registers.a, registers.fp, registers.pc, sr, registers.usp, registers.isp,
        registers.msp, registers.cacr, registers.fpcr, registers.fpsr, registers.fpiar,
        registers.insnCount, vbr, memory⟩ registers.a7 with sr }

def Emulator.guest (emulator : Emulator) : M68k :=
  guestOf emulator.registers emulator.memory emulator.context.vbr

/-- A 68k with its interrupt requests. -/
structure Processor where
  core : M68k
  intf : Intf

namespace Processor

/-- The level requested; `value` is what the GPIO shows. -/
def level (value : UInt32) (processor : Processor) : UInt16 :=
  let intf := processor.intf
  if intf.armErr ≠ 0 then 7
  else max (if intf.arm ≠ 0 then 6 else if intf.ppc ≠ 0 then 2 else 0)
    (if intf.ipl ≠ 0 then getIplLevel value else 0)

/-- The request is above the mask, or cannot be masked. -/
def accepts (value : UInt32) (processor : Processor) : Bool :=
  let level := processor.level value
  level == 7 || decide ((processor.core.sr &&& srIpl) >>> srbIpl < level)

def check (value : UInt32) (processor : Processor) : Processor :=
  ⟨if processor.accepts value then processor.core.interrupt (processor.level value)
    else processor.core, { processor.intf with armErr := 0 }⟩

end Processor

def Label.effect (label : Label) (processor : Processor) : Processor :=
  match label with
  | .service _ | .lookup _ => processor
  | .check value => processor.check value
  | .code registers memory vbr => { processor with core := guestOf registers memory vbr }
  | .report intf => { processor with intf }

def Emulator.processor (emulator : Emulator) : Processor := ⟨emulator.guest, emulator.context.intf⟩

section Status

variable (sr : UInt16)

/-- The flags change places twice. -/
@[simp] theorem swapFlags_swapFlags : swapFlags (swapFlags sr) = sr := by
  rw [swapFlags, swapFlags, ← UInt16.toBitVec_inj]
  apply BitVec.eq_of_getLsbD_eq
  intro index inside
  interval_cases index <;> simp

/-- The bits above the flags stay. -/
theorem swapFlags_and {mask : UInt16} (above : mask &&& 3 = 0) :
    swapFlags sr &&& mask = sr &&& mask := by
  have clear : ∀ index < 2, mask.toBitVec.getLsbD index = false := by
    intro index low
    have bit := congrArg (fun word : UInt16 => word.toBitVec.getLsbD index) above
    interval_cases index <;> simpa using bit
  rw [swapFlags, ← UInt16.toBitVec_inj]
  apply BitVec.eq_of_getLsbD_eq
  intro index inside
  by_cases low : index < 2
  · simp [clear index low]
  · interval_cases index <;> simp at low ⊢

theorem low_flags : sr &&& (3 : UInt16) =
    (if sr.toBitVec[0] then (1 : UInt16) else 0) ||| (if sr.toBitVec[1] then (2 : UInt16) else 0) := by
  rw [← UInt16.toBitVec_inj]
  apply BitVec.eq_of_getLsbD_eq
  intro index inside
  cases first : sr.toBitVec[0] <;> cases second : sr.toBitVec[1] <;>
    interval_cases index <;> simp [first, second]

/-- `MainLoop` swaps the flags only where they differ. -/
theorem copy_eq :
    (if sr &&& (3 : UInt16) ≠ 0 ∧ sr &&& (3 : UInt16) ≠ 3 then sr ^^^ 3 else sr) = swapFlags sr := by
  have both : (1 : UInt16) ||| 2 = 3 := rfl
  rw [low_flags sr, swapFlags, ← UInt16.toBitVec_inj]
  apply BitVec.eq_of_getLsbD_eq
  intro index inside
  cases first : sr.toBitVec[0] <;> cases second : sr.toBitVec[1] <;>
    interval_cases index <;> simp [first, second, both]

end Status

section Context

variable (emulator : Emulator)

theorem swapFlags_supervisor (sr : UInt16) : swapFlags sr &&& srS = sr &&& srS :=
  swapFlags_and sr (by decide)

theorem swapFlags_master (sr : UInt16) : swapFlags sr &&& srM = sr &&& srM :=
  swapFlags_and sr (by decide)

/-- What a helper leaves in the registers does not show after the context is loaded again. -/
theorem callHelper_guest (clobbered : Registers) :
    (callHelper clobbered emulator).guest = emulator.guest := by
  obtain ⟨registers, context, memory⟩ := emulator
  simp only [Emulator.guest, guestOf, callHelper, loadContext, saveContext, M68k.withSp,
    swapFlags_supervisor, swapFlags_master, swapFlags_swapFlags]
  by_cases user : registers.sr &&& srS = 0
  · simp [user]
  · by_cases master : registers.sr &&& srM = 0 <;> simp [user, master]

theorem lookup_guest (lookup : Lookup) :
    (lookup.perform emulator).guest = emulator.guest ∧
      (lookup.perform emulator).context.intf = emulator.context.intf := by
  cases lookup with
  | last => exact ⟨rfl, rfl⟩
  | found code => exact ⟨rfl, rfl⟩
  | missed clobbered code => exact ⟨callHelper_guest emulator clobbered, rfl⟩
  | uncached clobbered code =>
      exact ⟨callHelper_guest { emulator with registers.lastPc := ~~~(0 : UInt32) } clobbered, rfl⟩

end Context

section Interrupts

variable (level sr : UInt16) (emulator : Emulator)

theorem vector_eq : (0x60 : UInt16) + (level <<< 2) = M68k.vector level := by
  rw [M68k.vector, ← UInt16.toNat_inj]
  simp [Nat.shiftLeft_eq]
  omega

theorem entered_eq :
    swapFlags (((sr ||| srS) &&& ~~~(srT0 ||| srT1)) &&& ~~~srIpl ||| ((level &&& 7) <<< srbIpl)) =
      M68k.entered level (swapFlags sr) := by
  rw [swapFlags, swapFlags, M68k.entered, ← UInt16.toBitVec_inj]
  apply BitVec.eq_of_getLsbD_eq
  intro index inside
  interval_cases index <;> simp

theorem entered_supervisor : M68k.entered level sr &&& srS = srS := by
  rw [M68k.entered, ← UInt16.toBitVec_inj]
  apply BitVec.eq_of_getLsbD_eq
  intro index inside
  interval_cases index <;> simp

theorem entered_master : M68k.entered level sr &&& srM = sr &&& srM := by
  rw [M68k.entered, ← UInt16.toBitVec_inj]
  apply BitVec.eq_of_getLsbD_eq
  intro index inside
  interval_cases index <;> simp

/-- The three pushes are one frame. -/
theorem storeBytes_frame (sp : UInt32) (pc : UInt32) (vector : UInt16) (memory : UInt32 → UInt8) :
    storeBytes (sp + 6) (bigEndian 2 vector.toNat)
        (storeBytes (sp + 2) (bigEndian 4 pc.toNat) (storeBytes sp (bigEndian 2 sr.toNat) memory)) =
      storeBytes sp (M68k.frame sr pc vector) memory := by
  rw [M68k.frame, storeBytes_append, storeBytes_append, List.length_append, bigEndian_length,
    bigEndian_length]
  rfl

theorem takeInterrupt_guest :
    (takeInterrupt level emulator).guest = emulator.guest.interrupt level := by
  obtain ⟨registers, context, memory⟩ := emulator
  have supervisor : ¬ srS = 0 := by decide
  simp only [Emulator.guest, guestOf, takeInterrupt, copy_eq, vector_eq, storeBytes_frame,
    M68k.interrupt, M68k.sp, M68k.withSp, entered_eq, swapFlags_supervisor, swapFlags_master]
  by_cases user : registers.sr &&& srS = 0 <;> by_cases master : registers.sr &&& srM = 0 <;>
    simp only [user, master, entered_supervisor, entered_master, swapFlags_master, supervisor,
      ne_eq, not_true_eq_false, not_false_eq_true, if_true, if_false]

theorem mask_eq : (emulator.guest.sr &&& srIpl) >>> srbIpl =
    (emulator.registers.sr &&& srIpl) >>> srbIpl := by
  have same := swapFlags_and emulator.registers.sr (show srIpl &&& 3 = 0 by decide)
  exact congrArg (· >>> srbIpl) same

theorem requestedLevel_eq (value : UInt32) (emulator : Emulator) :
    requestedLevel value emulator.context.intf =
      (emulator.processor.level value, { emulator.context.intf with armErr := 0 }) := by
  have higher : ∀ low high : UInt16, (if low < high then high else low) = max low high := by
    intro low high
    change _ = if low ≤ high then high else low
    split <;> split <;> grind
  have least : ∀ level : UInt16, max level 0 = level := by
    intro level
    rw [← higher, if_neg (by grind)]
  obtain ⟨registers, ⟨_, _, _, _, _, _, _, _, _, _, _, _, _, _, _, arm, armErr, ppc, ipl⟩, memory⟩ :=
    emulator
  simp only [requestedLevel, Emulator.processor, Processor.level]
  by_cases failed : armErr = 0
  · subst failed
    simp only [ne_eq, not_true_eq_false, if_false, higher]
    by_cases asserted : ipl = 0
    · simp only [asserted, not_true_eq_false, if_false, least]
      rfl
    · simp only [asserted, not_false_eq_true, if_true]
      rfl
  · simp only [failed, ne_eq, not_false_eq_true, if_true]

theorem checkInterrupts_processor (value : UInt32) (emulator : Emulator) :
    (checkInterrupts value emulator).processor = emulator.processor.check value := by
  have requested := requestedLevel_eq value emulator
  simp only [checkInterrupts, requested]
  split
  next quiet =>
    obtain ⟨arm, armErr, ppc, ipl⟩ := quiet
    have none : emulator.processor.level value = 0 := by
      simp [Emulator.processor, Processor.level, arm, armErr, ppc, ipl]
      rfl
    have refused : emulator.processor.accepts value = false := by
      simp [Processor.accepts, none]
    rw [Processor.check, refused, if_neg Bool.false_ne_true]
    change (⟨_, _⟩ : Processor) = ⟨_, { emulator.context.intf with armErr := 0 }⟩
    rw [← armErr]
    rfl
  next =>
    have accepted : (emulator.processor.level value = 7 ∨
        (emulator.registers.sr &&& srIpl) >>> srbIpl < emulator.processor.level value) ↔
        emulator.processor.accepts value = true := by
      rw [Processor.accepts, Bool.or_eq_true, beq_iff_eq, decide_eq_true_eq]
      change _ ↔ _ ∨ (emulator.guest.sr &&& srIpl) >>> srbIpl < _
      rw [mask_eq]
    rw [Processor.check]
    simp only [accepted]
    split
    next =>
      have taken := takeInterrupt_guest (emulator.processor.level value)
        { emulator with context.intf := { emulator.context.intf with armErr := 0 } }
      rw [Emulator.processor, taken]
      rfl
    next => rfl

end Interrupts

section Returns

variable (level : UInt16) (core : M68k)

/-- The parts of a frame that `RTE` takes. -/
theorem frame_loaded (sr : UInt16) (pc sp : UInt32) (vector : UInt16) (memory : UInt32 → UInt8) :
    UInt16.ofNat (ofBigEndian
        (loadBytes (storeBytes sp (M68k.frame sr pc vector) memory) sp 2)) = sr ∧
      loadLong (storeBytes sp (M68k.frame sr pc vector) memory) (sp + 2) = pc := by
  have whole := loadBytes_storeBytes (M68k.frame sr pc vector) (by
    simp [M68k.frame, bigEndian_length]) memory sp
  have length : (M68k.frame sr pc vector).length = 2 + (4 + 2) := by
    simp [M68k.frame, bigEndian_length]
  rw [length, loadBytes_add, loadBytes_add, M68k.frame, List.append_assoc] at whole
  obtain ⟨status, rest⟩ := List.append_inj whole (by simp [loadBytes, bigEndian_length])
  obtain ⟨counter, _⟩ := List.append_inj rest (by simp [loadBytes, bigEndian_length])
  constructor
  · rw [M68k.frame, List.append_assoc, status, ofBigEndian_bigEndian]
    exact (congrArg UInt16.ofNat (Nat.mod_eq_of_lt sr.toNat_lt)).trans UInt16.ofNat_toNat
  · rw [loadLong, M68k.frame, List.append_assoc]
    change UInt32.ofNat (ofBigEndian (loadBytes _ (sp + UInt32.ofNat 2) 4)) = pc
    rw [counter, ofBigEndian_bigEndian]
    exact (congrArg UInt32.ofNat (Nat.mod_eq_of_lt pc.toNat_lt)).trans UInt32.ofNat_toNat

/-- An exception is undone by `RTE`, but for the frame below the stack. -/
theorem rte_interrupt :
    (core.interrupt level).rte = { core with memory := (core.interrupt level).memory } := by
  have supervisor : ¬ srS = 0 := by decide
  have popped : ∀ sp : UInt32, sp - 8 + 8 = sp := fun sp => UInt32.sub_add_cancel sp 8
  obtain ⟨d, a, fp, pc, sr, usp, isp, msp, cacr, fpcr, fpsr, fpiar, count, vbr, memory⟩ := core
  obtain ⟨status, counter⟩ := frame_loaded sr pc
    (if sr &&& srM = 0 then isp - 8 else msp - 8) (M68k.vector level) memory
  by_cases master : sr &&& srM = 0
  · simp only [master, if_true] at status counter
    simp only [M68k.interrupt, M68k.rte, M68k.sp, M68k.withSp, entered_supervisor, entered_master,
      supervisor, master, ne_eq, not_true_eq_false, if_false, status, counter, popped]
  · simp only [master, if_false] at status counter
    simp only [M68k.interrupt, M68k.rte, M68k.sp, M68k.withSp, entered_supervisor, entered_master,
      supervisor, master, ne_eq, not_false_eq_true, if_true, if_false, status, counter, popped]

end Returns

section Runs

variable {before after : Emulator} {labels : List Label}

theorem guest_memory (emulator : Emulator) : emulator.guest.memory = emulator.memory := by
  simp only [Emulator.guest, guestOf, M68k.withSp]
  split
  · rfl
  · split <;> rfl

theorem step_processor (label : Label) (emulator : Emulator) :
    (step label emulator).processor = label.effect emulator.processor := by
  cases label with
  | service clobbered =>
      exact congrArg₂ Processor.mk (callHelper_guest emulator clobbered) rfl
  | check value => exact checkInterrupts_processor value emulator
  | lookup lookup =>
      obtain ⟨guest, intf⟩ := lookup_guest emulator lookup
      exact congrArg₂ Processor.mk guest intf
  | code registers memory vbr => rfl
  | report intf => rfl

/-- Over any run the loop is a 68k with interrupt requests: helpers and lookups leave no
trace, an interrupt is its exception, and the frame lets `RTE` resume what was interrupted. -/
theorem main_loop_refines_m68k (run : machine.Runs Machine.anyStep before labels after) :
    after.processor = labels.foldl (fun processor label => label.effect processor) before.processor ∧
    ∀ value, after.processor.accepts value = true →
      (checkInterrupts value after).guest.rte =
        { after.guest with memory := (checkInterrupts value after).memory } := by
  constructor
  · have follows : ∀ label state next (processor : Processor), Machine.anyStep label state →
        machine.step label state = some next → state.processor = processor →
        next.processor = label.effect processor := by
      intro label state next processor _ taken same
      obtain rfl := Option.some.inj taken
      rw [step_processor, same]
    exact @Machine.Runs.refines _ _ _ _ _ _ _ _ _ (·.processor = ·) _ follows run rfl
  · intro value accepted
    have checked := congrArg Processor.core (checkInterrupts_processor value after)
    rw [Processor.check, accepted, if_pos rfl] at checked
    have memory : (checkInterrupts value after).memory =
        (after.guest.interrupt (after.processor.level value)).memory :=
      (guest_memory _).symm.trans (congrArg M68k.memory checked)
    rw [memory]
    exact (congrArg M68k.rte checked).trans (rte_interrupt _ _)

/-- Registers of one value. -/
def blankRegisters (value : UInt32) : Registers :=
  ⟨fun _ => value, fun _ => value, value, fun _ => 0, value, 0, 0, 0, 0, 0, 0, 0, 0, 0, 0, 0⟩

/-- User code with the C flag set, and an autovector of level 6. -/
def userCode : Emulator where
  registers := { blankRegisters 0 with pc := 0x1000, a7 := 0x2000, isp := 0x8000, sr := 2 }
  context := ⟨fun _ => 0, fun _ => 0, 0, fun _ => 0, 0, 0, 0, 0, 0, 0, 0, 0, 0, 0, 0, ⟨0, 0, 0, 0⟩⟩
  memory address := if address = 0x7a then 0x40 else 0

/-- An ARM interrupt arrives, the mirror is served, and the loop checks. -/
def servedThenChecked : List Label :=
  [.report ⟨1, 0, 0, 0⟩, .service (blankRegisters 7), .check 0]

theorem main_loop_refines_m68k_of_servedThenChecked : ∃ after,
    machine.Runs Machine.anyStep userCode servedThenChecked after ∧
      (after.registers.pc, after.registers.sr, after.registers.a7, after.registers.usp) =
        (0x4000, 0x2602, 0x7ff8, 0x2000) ∧
      after.processor =
        servedThenChecked.foldl (fun processor label => label.effect processor) userCode.processor := by
  have executed : (machine.run Machine.anyStep servedThenChecked userCode).map (fun after =>
      (after.registers.pc, after.registers.sr, after.registers.a7, after.registers.usp)) =
        some (0x4000, 0x2602, 0x7ff8, 0x2000) := by decide +kernel
  obtain ⟨after, run, seen⟩ := Machine.runs_of_observed executed
  exact ⟨after, run, seen, (main_loop_refines_m68k run).1⟩

end Runs

end Paulastorm.MainLoop
