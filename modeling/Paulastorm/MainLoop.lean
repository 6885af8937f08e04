import Paulastorm.Library.ByteMemory
import Paulastorm.Library.Bytes
import Paulastorm.Library.Transition

namespace Paulastorm.MainLoop

/-! The dispatch loop of the translator (`MainLoop` in `ExecutionLoop.c`) and the change
between its two forms of the 68k context (`M68K_LoadContext` and `M68K_SaveContext`).

Translated code keeps the 68k registers in ARM registers, where the C and V flags have
changed places and the stack pointer in use is `r29`.  What C helpers and translated code
do to them is given with each step.
-/

open Library

/-! The bits of the status register. -/

abbrev srM : UInt16 := 0x1000
abbrev srS : UInt16 := 0x2000
abbrev srT0 : UInt16 := 0x4000
abbrev srT1 : UInt16 := 0x8000
abbrev srIpl : UInt16 := 0x0700
abbrev srbIpl : UInt16 := 8

/-- The ARM registers that stand for the 68k; `a7` is `r29`. -/
structure Registers where
  d : Fin 8 → UInt32
  a : Fin 7 → UInt32
  a7 : UInt32
  fp : Fin 8 → UInt64
  pc : UInt32
  sr : UInt16
  usp : UInt32
  isp : UInt32
  msp : UInt32
  cacr : UInt32
  fpcr : UInt16
  fpsr : UInt32
  fpiar : UInt32
  insnCount : UInt64
  lastPc : UInt32
  armCode : UInt64

/-- The fields of `INTF`. -/
structure Intf where
  arm : UInt8
  armErr : UInt8
  ppc : UInt8
  ipl : UInt8
deriving DecidableEq, Repr

/-- `struct M68KState`. -/
structure Context where
  d : Fin 8 → UInt32
  a : Fin 7 → UInt32
  a7 : UInt32
  fp : Fin 8 → UInt64
  pc : UInt32
  sr : UInt16
  usp : UInt32
  isp : UInt32
  msp : UInt32
  cacr : UInt32
  fpcr : UInt16
  fpsr : UInt32
  fpiar : UInt32
  insnCount : UInt64
  vbr : UInt32
  intf : Intf

structure Emulator where
  registers : Registers
  context : Context
  memory : UInt32 → UInt8

/-- `rbit` and `bfxil`: the lowest two bits change places. -/
def swapFlags (sr : UInt16) : UInt16 :=
  (sr &&& ~~~(3 : UInt16)) ||| ((sr >>> 1) &&& (1 : UInt16)) ||| ((sr &&& (1 : UInt16)) <<< 1)

/-- `M68K_LoadContext`. -/
def loadContext (emulator : Emulator) : Emulator :=
  let ctx := emulator.context
  let a7 :=
    if ctx.sr &&& srS ≠ 0 then if ctx.sr &&& srM ≠ 0 then ctx.msp else ctx.isp else ctx.usp
  { emulator with
    registers := {
      emulator.registers with
      usp := ctx.usp, msp := ctx.msp, isp := ctx.isp, insnCount := ctx.insnCount
      cacr := ctx.cacr, fpsr := ctx.fpsr, fpiar := ctx.fpiar, fpcr := ctx.fpcr
      d := ctx.d, a := ctx.a, pc := ctx.pc, fp := ctx.fp, sr := swapFlags ctx.sr, a7 } }

/-- `M68K_SaveContext`. -/
def saveContext (emulator : Emulator) : Emulator :=
  let registers := emulator.registers
  let sr := swapFlags registers.sr
  let registers :=
    if sr &&& srS ≠ 0 then
      if sr &&& srM ≠ 0 then { registers with msp := registers.a7 }
      else { registers with isp := registers.a7 }
    else { registers with usp := registers.a7 }
  { emulator with
    registers
    context := {
      emulator.context with
      cacr := registers.cacr, insnCount := registers.insnCount, fpsr := registers.fpsr
      fpiar := registers.fpiar, fpcr := registers.fpcr, d := registers.d, a := registers.a
      a7 := registers.a7, pc := registers.pc, fp := registers.fp, sr
      usp := registers.usp, msp := registers.msp, isp := registers.isp } }

def loadLong (memory : UInt32 → UInt8) (address : UInt32) : UInt32 :=
  UInt32.ofNat (ofBigEndian (loadBytes memory address 4))

/-- `GetIPLLevel`, given what the GPIO shows. -/
def getIplLevel (value : UInt32) : UInt16 := ((value >>> 21) &&& 7).toUInt16

/-- The level that is requested, and the flag that is taken back. -/
def requestedLevel (value : UInt32) (intf : Intf) : UInt16 × Intf :=
  if intf.armErr ≠ 0 then (7, { intf with armErr := 0 })
  else
    let level := if intf.arm ≠ 0 then 6 else if intf.ppc ≠ 0 then 2 else 0
    let level :=
      if intf.ipl ≠ 0 then if level < getIplLevel value then getIplLevel value else level else level
    (level, intf)

/-- The exception: swap stacks, push the frame and load the new program counter. -/
def takeInterrupt (level : UInt16) (emulator : Emulator) : Emulator :=
  let registers := emulator.registers
  let sr := registers.sr
  let user := sr &&& srS = 0
  let usp := if user then registers.a7 else registers.usp
  let sp :=
    if user then if sr &&& srM ≠ 0 then registers.msp else registers.isp else registers.a7
  let copy := if sr &&& (3 : UInt16) ≠ 0 ∧ sr &&& (3 : UInt16) ≠ 3 then sr ^^^ 3 else sr
  let vector := (0x60 : UInt16) + (level <<< 2)
  let sr := sr ||| srS
  let sr := sr &&& ~~~(srT0 ||| srT1)
  let sr := sr &&& ~~~srIpl
  let sr := sr ||| ((level &&& 7) <<< srbIpl)
  let sp := sp - 8
  let memory := storeBytes sp (bigEndian 2 copy.toNat) emulator.memory
  let memory := storeBytes (sp + 2) (bigEndian 4 registers.pc.toNat) memory
  let memory := storeBytes (sp + 6) (bigEndian 2 vector.toNat) memory
  { emulator with
    memory
    registers := {
      registers with usp, a7 := sp, sr, pc := loadLong memory (emulator.context.vbr + vector.toUInt32) } }

/-- The check for pending interrupts at the top of the loop. -/
def checkInterrupts (value : UInt32) (emulator : Emulator) : Emulator :=
  let intf := emulator.context.intf
  if intf.arm = 0 ∧ intf.armErr = 0 ∧ intf.ppc = 0 ∧ intf.ipl = 0 then emulator
  else
    let (level, intf) := requestedLevel value intf
    let emulator := { emulator with context.intf := intf }
    let mask := (emulator.registers.sr &&& srIpl) >>> srbIpl
    if level = 7 ∨ mask < level then takeInterrupt level emulator else emulator

/-- A call of a C helper between `M68K_SaveContext` and `M68K_LoadContext`, which leaves
`clobbered` in the registers; `lastPc` and `armCode` are put back. -/
def callHelper (clobbered : Registers) (emulator : Emulator) : Emulator :=
  let saved := saveContext emulator
  let registers :=
    { clobbered with
      lastPc := emulator.registers.lastPc
      armCode := emulator.registers.armCode }
  loadContext { saved with registers }

/-- How the loop comes to the code for the program counter: it is the last one, it is found,
it is verified or translated by a helper, or the cache is off and a helper finds it. -/
inductive Lookup where
  | last
  | found (code : UInt64)
  | missed (clobbered : Registers) (code : UInt64)
  | uncached (clobbered : Registers) (code : UInt64)

def Lookup.perform (lookup : Lookup) (emulator : Emulator) : Emulator :=
  match lookup with
  | .last => emulator
  | .found code =>
      { emulator with
        registers.lastPc := emulator.registers.pc
        registers.armCode := code }
  | .missed clobbered code =>
      let emulator := callHelper clobbered emulator
      { emulator with
        registers.lastPc := emulator.registers.pc
        registers.armCode := code }
  | .uncached clobbered code =>
      let emulator := { emulator with registers.lastPc := ~~~(0 : UInt32) }
      let emulator := callHelper clobbered emulator
      { emulator with registers.armCode := code }

/-- What happens in the loop: the mirror is served, interrupts are checked, code is looked up,
translated code leaves registers, memory and the vector base, or a flag of `INTF` changes. -/
inductive Label where
  | service (clobbered : Registers)
  | check (value : UInt32)
  | lookup (lookup : Lookup)
  | code (registers : Registers) (memory : UInt32 → UInt8) (vbr : UInt32)
  | report (intf : Intf)

def step (label : Label) (emulator : Emulator) : Emulator :=
  match label with
  | .service clobbered => callHelper clobbered emulator
  | .check value => checkInterrupts value emulator
  | .lookup lookup => lookup.perform emulator
  | .code registers memory vbr =>
      { emulator with registers, memory, context.vbr := vbr }
  | .report intf => { emulator with context.intf := intf }

def machine : Machine Emulator Label := ⟨fun label emulator => some (step label emulator)⟩

end Paulastorm.MainLoop
