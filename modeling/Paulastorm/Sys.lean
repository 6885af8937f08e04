import Paulastorm.Bus
import Paulastorm.Probe

namespace Paulastorm.Sys

/-! The handlers behind every guest access that no MMU mapping serves
(`SYSWriteValToAddr` and `SYSReadValFromAddr` in `aarch64/vectors.c`). -/

open Bus

abbrev ciaapra : UInt64 := 0xBFE001
abbrev ciabprb : UInt64 := 0xBFD100
abbrev vposr : UInt64 := 0xDFF004
abbrev intena : UInt64 := 0xDFF09A
abbrev intenar : UInt64 := 0xDFF01C
abbrev intreq : UInt64 := 0xDFF09C
abbrev intreqr : UInt64 := 0xDFF01E

/-- `struct INT_shadow`. -/
structure IntShadow where
  intena : UInt16
  intreq : UInt16
  armPending : Bool
deriving Repr, DecidableEq

/-- The fields of `struct ExpansionBoard` that the handlers use. -/
structure Board where
  isZ3 : Bool
  enabled : Bool
  romFile : Nat → UInt8
  mapBase : UInt32

/-- The boot options and the mapped ROM that the handlers read. -/
structure Options where
  disableScsi : Bool
  zorroDisable : Bool
  swapDf0WithDfx : UInt64
  moveSlowToChip : Bool
  blockC0 : Bool
  romMapped : Bool
  rom : UInt64 → UInt8
  beamcon0PalSet : Bool
  beamcon0PalClear : Bool

/-- The variables of the handlers, `INTF.ARM` of the guest context and the probe bank. -/
structure State where
  shadow : IntShadow
  arm : UInt8
  overlay : UInt32
  spoofDf0Id : Bool
  boardIdx : Nat
  board : List Board
  metrics : Probe.Metrics

/-- The single wrap around the address space. -/
def unwrap (far : UInt64) : UInt64 :=
  if far >>> 32 = 1 ∨ far >>> 32 = 0xffffffff then far &&& 0xffffffff else far

def scsiArea (options : Options) (far : UInt64) : Bool :=
  options.disableScsi && decide (0x00da0000 ≤ far) && decide (far ≤ 0x00da7fff)

def slowArea (far : UInt64) : Bool :=
  decide (0xc00000 ≤ far) && decide (far ≤ 0xc7ffff)

/-- The guest addresses that `move_slow_to_chip` rewrites. -/
def trapdoorArea (far : UInt64) : Bool :=
  decide (0x080000 ≤ far) && decide (far ≤ 0x0FFFFF)

/-- SET/CLR on the shadow of a register whose low bits are `mask`. -/
def setClr (register : UInt16) (value mask : UInt64) : UInt16 :=
  if value &&& 0x8000 ≠ 0 then (register.toUInt64 ||| (value &&& mask)).toUInt16
  else (register.toUInt64 &&& ~~~(value &&& mask)).toUInt16

/-- Both `INTEN` and `EXTER`. -/
def armEnabled (register : UInt16) : Bool := register &&& 0x6000 == 0x6000

/-- A write at `INTENA`. -/
def shadowIntena (state : State) (value : UInt64) : State :=
  let shadow := { state.shadow with intena := setClr state.shadow.intena value 0x7fff }
  let arm := if shadow.armPending then (if armEnabled shadow.intena then 1 else 0) else state.arm
  { state with shadow, arm }

/-- A write at `INTREQ`. -/
def shadowIntreq (state : State) (value : UInt64) : State :=
  let shadow := { state.shadow with intreq := setClr state.shadow.intreq value 0x3fff }
  if value &&& 0xa000 = 0x2000 then
    { state with shadow := { shadow with armPending := false }, arm := 0 }
  else { state with shadow }

/-- The select bits of the two swapped drives. -/
def selBits (swap : UInt64) : UInt64 := ((1 : UInt64) <<< 3) ||| ((1 : UInt64) <<< (3 + swap))

/-- The values of SEL0 and of the swapped drive's select bit differ. -/
def selDiffer (swap value : UInt64) : Bool :=
  (value >>> 3) &&& (1 : UInt64) != (value >>> (3 + swap)) &&& (1 : UInt64)

/-- The overlay bit of CIA A. -/
def overlayWrite (value : UInt64) (size : Nat) (far : UInt64) (state : State) : State :=
  if far = ciaapra ∧ size = 1 then { state with overlay := (value &&& 1).toUInt32 } else state

/-- A write at `CIABPRB`: the value sent on, and the spoofed drive id. -/
def driveWrite (options : Options) (value far : UInt64) (state : State) : UInt64 × State :=
  let swap := options.swapDf0WithDfx
  if far = ciabprb ∧ swap ≠ 0 then
    (if selDiffer swap value then value ^^^ selBits swap else value,
      { state with spoofDf0Id := value &&& (((1 : UInt64) <<< (3 + swap)) ||| 0x80) == 0x80 })
  else (value, state)

/-- The board that answers in the autoconfig area. -/
def waitingBoard (options : Options) (far : UInt64) (state : State) : Option Board :=
  if ¬ options.zorroDisable ∧ 0xe80000 ≤ far ∧ far ≤ 0xe8ffff then state.board[state.boardIdx]?
  else none

/-- A write to the autoconfig area while a board is waiting there.  The board's `map` callback is
code of the board, and is taken to change nothing here. -/
def autoconfig (state : State) (board : Board) (value far : UInt64) : State :=
  let mapAt (base : UInt32) : State :=
    { state with
      board := state.board.set state.boardIdx { board with mapBase := base }
      boardIdx := state.boardIdx + 1 }
  let state :=
    if board.isZ3 then
      if far = 0xe80044 then mapAt ((value &&& 0xffff).toUInt32 <<< 16) else state
    else if far = 0xe80048 then mapAt ((value &&& 0xff).toUInt32 <<< 16)
    else state
  if far = 0xe8004c ∨ far = 0xe8004e then { state with boardIdx := state.boardIdx + 1 } else state

/-- Trapdoor memory shown in the Chip RAM of the guest. -/
def trapdoorAddress (options : Options) (far : UInt64) : UInt64 :=
  if options.moveSlowToChip && trapdoorArea far then far + 0xB80000 else far

/-- Where an access below 16 MiB reaches the bus, unless the trapdoor options block it. -/
def busAddress (options : Options) (far : UInt64) : Option UInt64 :=
  if options.moveSlowToChip && trapdoorArea far then
    let far := far + 0xB80000
    if slowArea far && options.blockC0 then none else some far
  else if options.moveSlowToChip && slowArea far then none
  else if slowArea far && options.blockC0 then none
  else some far

section Handlers

variable {BusState : Type u} (wires : Wires BusState)

/-- The switch on the size at the end of `SYSWriteValToAddr`. -/
def writeSized (value value2 : UInt64) (size : Nat) (far : UInt64) (bus : BusState) : BusState :=
  match size with
  | 1 => psWrite8 wires far.toUInt32 value.toUInt32 bus
  | 2 => psWrite16 wires far.toUInt32 value.toUInt32 bus
  | 4 => psWrite32 wires far.toUInt32 value.toUInt32 bus
  | 8 => psWrite64 wires far.toUInt32 value bus
  | 16 => psWrite128 wires far.toUInt32 value value2 bus
  | _ => bus

/-- The part of `SYSWriteValToAddr` behind the interrupt shadow and the probe. -/
def writeMapped (options : Options) (value value2 : UInt64) (size : Nat) (far : UInt64)
    (state : State) (bus : BusState) : State × BusState :=
  if far = 0xdeadbeef ∧ size = 1 then (state, bus)
  else if 0x1000000 ≤ far then (state, bus)
  else
    let state := overlayWrite value size far state
    let sent := driveWrite options value far state
    match waitingBoard options far sent.2 with
    | some board => (autoconfig sent.2 board sent.1 far, bus)
    | none =>
        match busAddress options far with
        | none => (sent.2, bus)
        | some far => (sent.2, writeSized wires sent.1 value2 size far bus)

/-- `SYSWriteValToAddr` around what it calls as `paula_probe_bus_write`: whether the access
was handled, and what it leaves. -/
def writeAround (busWrite : Probe.Metrics → UInt64 → Nat → UInt64 → Bool × Probe.Metrics)
    (options : Options) (value value2 : UInt64) (size : Nat) (far : UInt64) (state : State)
    (bus : BusState) : Bool × State × BusState :=
  let far := unwrap far
  if far >>> 32 ≠ 0 then (false, state, bus)
  else if scsiArea options far then (true, state, bus)
  else
    let state := if far = intena then shadowIntena state value else state
    let state := if far = intreq then shadowIntreq state value else state
    let (consumed, metrics) := busWrite state.metrics value size far
    let state := { state with metrics }
    if consumed then (true, state, bus)
    else (true, writeMapped wires options value value2 size far state bus)

/-- `SYSWriteValToAddr`. -/
def sysWriteValToAddr (options : Options) (value value2 : UInt64) (size : Nat) (far : UInt64)
    (state : State) (bus : BusState) : Bool × State × BusState :=
  writeAround wires Probe.busWrite options value value2 size far state bus

/-- The switch on the size near the end of `SYSReadValFromAddr`. -/
def readSized (value value2 : UInt64) (size : Nat) (far : UInt64) (bus : BusState) :
    UInt64 × UInt64 × BusState :=
  match size with
  | 1 => let (byte, bus) := psRead8 wires far.toUInt32 bus; (byte.toUInt64, value2, bus)
  | 2 => let (word, bus) := psRead16 wires far.toUInt32 bus; (word.toUInt64, value2, bus)
  | 4 => let (long, bus) := psRead32 wires far.toUInt32 bus; (long.toUInt64, value2, bus)
  | 8 => let (quad, bus) := psRead64 wires far.toUInt32 bus; (quad, value2, bus)
  | 16 => psRead128 wires far.toUInt32 bus
  | _ => (value, value2, bus)

/-- A byte read over the low half of a shadow. -/
def withLow (register : UInt16) (value : UInt64) : UInt16 :=
  (register &&& (0xff00 : UInt16)) ||| (value &&& 0xff).toUInt16

/-- A byte read over the high half of a shadow. -/
def withHigh (register : UInt16) (value : UInt64) : UInt16 :=
  (register &&& (0x00ff : UInt16)) ||| ((value &&& 0xff) <<< 8).toUInt16

/-- What a read at `INTENAR` leaves in the shadow. -/
def readIntenar (size : Nat) (far value : UInt64) (shadow : IntShadow) : IntShadow :=
  if size = 2 then { shadow with intena := value.toUInt16 }
  else if far &&& 1 ≠ 0 then { shadow with intena := withLow shadow.intena value }
  else { shadow with intena := withHigh shadow.intena value }

/-- What a read at `INTREQR` returns, with the pending ARM interrupt shown, and leaves. -/
def readIntreqr (size : Nat) (far value : UInt64) (shadow : IntShadow) : UInt64 × IntShadow :=
  if size = 2 then
    (if shadow.armPending then value ||| 0x2000 else value,
      { shadow with intreq := value.toUInt16 })
  else if far &&& 1 ≠ 0 then
    (value, { shadow with intreq := withLow shadow.intreq value })
  else
    (if shadow.armPending then value ||| 0x20 else value,
      { shadow with intreq := withHigh shadow.intreq value })

/-- The corrections of the value read from the bus, and what they leave in the shadow. -/
def readCorrected (options : Options) (size : Nat) (far value : UInt64) (state : State) :
    UInt64 × State :=
  let register := far &&& ~~~(1 : UInt64)
  let shadow :=
    if register = intenar then readIntenar size far value state.shadow else state.shadow
  let (value, shadow) :=
    if register = intreqr then readIntreqr size far value shadow else (value, shadow)
  let swap := options.swapDf0WithDfx
  let value := if far = ciaapra ∧ swap ≠ 0 ∧ state.spoofDf0Id then value &&& 0xDF else value
  let value :=
    if far = ciabprb ∧ swap ≠ 0 ∧ selDiffer swap value then value ^^^ selBits swap else value
  let value :=
    if far = vposr ∧ size = 2 then
      if options.beamcon0PalSet then value &&& 0xef00
      else if options.beamcon0PalClear then value ||| 0x1000
      else value
    else value
  (value, { state with shadow })

/-- Big-endian loads from memory outside the bus. -/
def loadBytes (memory : UInt64 → UInt8) (address : UInt64) (count : Nat) : UInt64 :=
  (List.range count).foldl
    (fun value index => (value <<< 8) ||| (memory (address + UInt64.ofNat index)).toUInt64) 0

/-- The table `u64` that unmapped Z3 addresses show. -/
def unmappedByte (offset : UInt64) : UInt8 :=
  (Library.bigEndian 32
    0xBAD00BAD00BAD00BAD00BAD00BAD00BA00BAD00BAD00BAD00BAD00BAD00BAD00).getD offset.toNat 0

/-- The value and the second value shown at an unmapped Z3 address. -/
def readUnmapped (value value2 : UInt64) (size : Nat) (far : UInt64) : UInt64 × UInt64 :=
  let offset := 1 + (far &&& 15)
  match size with
  | 1 | 2 | 4 | 8 => (loadBytes unmappedByte offset size, value2)
  | 16 => (loadBytes unmappedByte offset 8, loadBytes unmappedByte (offset + 8) 8)
  | _ => (value, value2)

/-- The loop over disabled boards. -/
def firstEnabled : List Board → Nat → Nat
  | [], index => index
  | board :: rest, index => if board.enabled then index else firstEnabled rest (index + 1)

/-- A read of the autoconfig area. -/
def zorroRead (options : Options) (size : Nat) (far : UInt64) : Bool :=
  !options.zorroDisable && decide (0xe80000 ≤ far) && decide (far ≤ 0xe8ffff) && size == 1

/-- The board pointer after the loop over disabled boards. -/
def skipDisabled (options : Options) (size : Nat) (far : UInt64) (state : State) : State :=
  if zorroRead options size far then
    { state with boardIdx := firstEnabled (state.board.drop state.boardIdx) state.boardIdx }
  else state

def romBoard (options : Options) (size : Nat) (far : UInt64) (state : State) : Option Board :=
  if zorroRead options size far then state.board[state.boardIdx]? else none

/-- The switch on the size over the mapped ROM. -/
def readRom (options : Options) (value : UInt64) (size : Nat) (far : UInt64) : UInt64 :=
  match size with
  | 1 | 2 | 4 | 8 => loadBytes options.rom far size
  | _ => value

/-- The part of `SYSReadValFromAddr` below 16 MiB. -/
def readMapped (options : Options) (value value2 : UInt64) (size : Nat) (far : UInt64)
    (state : State) (bus : BusState) : UInt64 × UInt64 × State × BusState :=
  if slowArea far && options.blockC0 then (0, value2, state, bus)
  else
    let state := skipDisabled options size far state
    match romBoard options size far state with
    | some board => ((board.romFile (far - 0xe80000).toNat).toUInt64, value2, state, bus)
    | none =>
        if options.romMapped ∧ state.overlay ≠ 0 ∧ far < 0x80000 then
          (readRom options value size far, value2, state, bus)
        else if options.moveSlowToChip && slowArea far then (0, value2, state, bus)
        else
          let far := trapdoorAddress options far
          let seen := readSized wires value value2 size far bus
          let corrected := readCorrected options size far seen.1 state
          (corrected.1, seen.2.1, corrected.2, seen.2.2)

/-- `SYSReadValFromAddr` around what it calls as `paula_probe_bus_read`: whether the access
was handled, the values read over those the caller passed in, and what the access leaves. -/
def readAround (busRead : Probe.Metrics → Nat → UInt64 → Option UInt64) (options : Options)
    (value value2 : UInt64) (size : Nat) (far : UInt64) (state : State) (bus : BusState) :
    Bool × UInt64 × UInt64 × State × BusState :=
  match busRead state.metrics size far with
  | some word => (true, word, 0, state, bus)
  | none =>
      let far := unwrap far
      if far >>> 32 ≠ 0 then (false, value, value2, state, bus)
      else if scsiArea options far then (true, 0xffffffff, 0xffffffff, state, bus)
      else if 0x1000000 ≤ far then
        let seen := readUnmapped value value2 size far
        (true, seen.1, seen.2, state, bus)
      else (true, readMapped wires options value value2 size far state bus)

/-- `SYSReadValFromAddr`. -/
def sysReadValFromAddr (options : Options) (value value2 : UInt64) (size : Nat) (far : UInt64)
    (state : State) (bus : BusState) : Bool × UInt64 × UInt64 × State × BusState :=
  readAround wires Probe.busRead options value value2 size far state bus

end Handlers

/-- The IRQ and FIQ entries of the first core (`curr_el_spx_irq`, `curr_el_spx_fiq`). -/
def armInterrupt (state : State) : State :=
  { state with
    shadow := { state.shadow with armPending := true }
    arm := if armEnabled state.shadow.intena then 6 else state.arm }

end Paulastorm.Sys
