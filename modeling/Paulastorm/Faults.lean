import Paulastorm.Sys

namespace Paulastorm.Faults

/-! The page fault handlers behind guest accesses: decoding of the faulting A64
floating-point loads and stores (`aarch64/vectors.c`). -/

open Bus Sys

/-- What the handlers read and change.  Slot 31 of `register` is the word below the
saved context, `ctx[REGMAP[31]]`. -/
structure Machine (BusState : Type u) where
  register : Nat → UInt64
  fpn : Nat → UInt64
  sys : State
  bus : BusState

/-- How a handler left the machine, and the access it made through the bus handlers. -/
structure Outcome (BusState : Type u) where
  handled : Bool
  access : Option (UInt64 × Nat)
  machine : Machine BusState

/-- `getOPsize`. -/
def getOPsize (opcode : UInt32) : Nat :=
  if opcode &&& 0xc0000000 = 0x00000000 then 1
  else if opcode &&& 0xc0000000 = 0x40000000 then 2
  else if opcode &&& 0xc0000000 = 0x80000000 then 4
  else 8

def rt (opcode : UInt32) : Nat := (opcode &&& 31).toNat

def rn (opcode : UInt32) : Nat := ((opcode >>> 5) &&& 31).toNat

def rm (opcode : UInt32) : Nat := ((opcode >>> 16) &&& 31).toNat

/-- `((int16_t)(opcode >> 5)) >> 7`, as it is added to a pointer. -/
def offset (opcode : UInt32) : UInt64 :=
  ((opcode >>> 5).toUInt16.toInt16 >>> 7).toInt64.toUInt64

/-- `((opcode >> 10) & 0xfff) * size`. -/
def scaledOffset (opcode : UInt32) (size : Nat) : UInt64 :=
  (((opcode >>> 10) &&& 0xfff) * UInt32.ofNat size).toUInt64

/-- The index register extended by the option field and scaled by the S bit. -/
def indexed (opcode : UInt32) (size : Nat) (index : UInt64) : UInt64 :=
  let option := (opcode >>> 13) &&& 7
  let index :=
    if option = 0b010 then index &&& 0xffffffff
    else if option = 0b110 then
      if index &&& 0x80000000 ≠ 0 then index ||| 0xffffffff00000000
      else index &&& 0x00000000ffffffff
    else index
  if opcode &&& 0x1000 ≠ 0 then
    if size = 4 then index <<< 2 else index <<< 3
  else index

section Handlers

variable {BusState : Type u} (wires : Wires BusState) (options : Options)

/-- `get_fpn_as_double` and `get_fpn_as_single`: registers past `v15` read as zero. -/
def getFpn (machine : Machine BusState) (size number : Nat) : UInt64 :=
  if number < 16 then
    if size = 8 then machine.fpn number else machine.fpn number &&& 0xffffffff
  else 0

/-- `set_fpn_as_double` and `set_fpn_as_single`. -/
def setFpn (machine : Machine BusState) (size number : Nat) (value : UInt64) : Machine BusState :=
  if number < 16 then
    let lower := if size = 8 then value
      else (machine.fpn number &&& 0xffffffff00000000) ||| (value &&& 0xffffffff)
    { machine with fpn := Function.update machine.fpn number lower }
  else machine

/-- `SYSPutValueToReg`. -/
def sysPutValueToReg (machine : Machine BusState) (number : Nat) (value : UInt64) :
    Machine BusState :=
  { machine with register := Function.update machine.register number value }

/-- A floating-point store at `ptr`; `after` is left in the base register, handled or not. -/
def storeFp (opcode : UInt32) (ptr : UInt64) (after : Option UInt64) (machine : Machine BusState) :
    Outcome BusState :=
  let size := getOPsize opcode
  let value := getFpn machine size (rt opcode)
  let (handled, sys, bus) :=
    sysWriteValToAddr wires options value 0 size ptr machine.sys machine.bus
  let machine := { machine with sys, bus }
  let machine :=
    match after with
    | some base => sysPutValueToReg machine (rn opcode) base
    | none => machine
  ⟨handled, some (ptr, size), machine⟩

/-- A floating-point load from `ptr`; `after` is left in the base register when handled. -/
def loadFp (opcode : UInt32) (size : Nat) (ptr : UInt64) (after : Option UInt64)
    (machine : Machine BusState) : Outcome BusState :=
  let (handled, value, _, sys, bus) :=
    sysReadValFromAddr wires options 0 0 size ptr machine.sys machine.bus
  let machine := { machine with sys, bus }
  let machine :=
    if handled then
      let machine := setFpn machine size (rt opcode) value
      match after with
      | some base => sysPutValueToReg machine (rn opcode) base
      | none => machine
    else machine
  ⟨handled, some (ptr, size), machine⟩

/-- The integer stores that `SYSPageFaultWriteHandler` tests for after the floating-point ones. -/
def integerStores : List (UInt32 × UInt32) :=
  [(0x3fe00c00, 0x38000000), (0x3fe00400, 0x38000400), (0x3fc00000, 0x39000000),
    (0x3fe00c00, 0x38200800), (0x3fe07c00, 0x08007c00), (0x7fc00000, 0x29000000),
    (0x7fc00000, 0x28800000), (0x7fc00000, 0x29800000)]

/-- The integer loads that `SYSPageFaultReadHandler` tests for after the floating-point ones. -/
def integerLoads : List (UInt32 × UInt32) :=
  [(0x7fc00000, 0x29400000), (0x7ec00000, 0x28c00000), (0xffc00000, 0x69400000),
    (0xffc00000, 0x68c00000), (0xffc00000, 0x69c00000), (0xbf000000, 0x18000000),
    (0xff000000, 0x98000000), (0x3fe00c00, 0x38600800), (0x3ffffc00, 0x085f7c00),
    (0x3fc00000, 0x39400000), (0x3fe00c00, 0x38400000), (0x3fe00400, 0x38400400),
    (0x3fa00c00, 0x38a00800), (0x3f800000, 0x39800000), (0x3fa00c00, 0x38800000),
    (0x3fa00400, 0x38800400)]

def matchesAny (opcode : UInt32) (patterns : List (UInt32 × UInt32)) : Bool :=
  patterns.any fun pattern => opcode &&& pattern.1 == pattern.2

/-- `SYSPageFaultWriteHandler`, its integer stores given by `integer`. -/
def sysPageFaultWriteHandler (integer : Machine BusState → Outcome BusState) (opcode : UInt32)
    (machine : Machine BusState) : Outcome BusState :=
  let base := machine.register (rn opcode)
  let size := getOPsize opcode
  if opcode &&& 0xbfe00c00 = 0xbc000000 then
    storeFp wires options opcode (base + offset opcode) none machine
  else if opcode &&& 0xbfe00400 = 0xbc000400 then
    let updated := base + offset opcode
    let ptr := if opcode &&& 0x800 ≠ 0 then updated else base
    storeFp wires options opcode ptr (some updated) machine
  else if opcode &&& 0xbfc00000 = 0xbd000000 then
    storeFp wires options opcode (base + scaledOffset opcode size) none machine
  else if opcode &&& 0xbfe04c00 = 0xbc204800 then
    let index := indexed opcode size (machine.register (rm opcode))
    storeFp wires options opcode (base + index) none machine
  else if matchesAny opcode integerStores then integer machine
  else ⟨opcode &&& 0xffffffe0 == 0xd50b7e20, none, machine⟩

/-- `SYSPageFaultReadHandler`, its integer loads given by `integer`.  The comments are the
names the source gives its branches. -/
def sysPageFaultReadHandler (integer : Machine BusState → Outcome BusState) (opcode : UInt32)
    (far : UInt64) (machine : Machine BusState) : Outcome BusState :=
  let base := machine.register (rn opcode)
  let updated := base + offset opcode
  -- FLDS
  if opcode &&& 0xfee00c00 = 0xbc400000 then loadFp wires options opcode 4 far none machine
  -- FLDS unsigned offset
  else if opcode &&& 0xff400000 = 0xbd400000 then
    loadFp wires options opcode 4 (base + scaledOffset opcode 4) none machine
  -- FLDS pre-index
  else if opcode &&& 0xfee00c00 = 0xbc400400 then
    loadFp wires options opcode 4 updated (some updated) machine
  -- FLDS post-index
  else if opcode &&& 0xfee00c00 = 0xbc400c00 then
    loadFp wires options opcode 4 base (some updated) machine
  -- FLDD
  else if opcode &&& 0xfee00c00 = 0xfc400000 then loadFp wires options opcode 8 far none machine
  -- FLDD unsigned offset
  else if opcode &&& 0xff400000 = 0xfd400000 then
    loadFp wires options opcode 8 (base + scaledOffset opcode 8) none machine
  -- FLDD reg offset
  else if opcode &&& 0xfee00c00 = 0xfc600800 then loadFp wires options opcode 8 far none machine
  -- FLDD pre-index
  else if opcode &&& 0xfee00c00 = 0xfc400400 then
    loadFp wires options opcode 8 updated (some updated) machine
  -- FLDD post-index
  else if opcode &&& 0xfee00c00 = 0xbc400c00 then
    loadFp wires options opcode 8 base (some updated) machine
  else if matchesAny opcode integerLoads then integer machine
  else ⟨false, none, machine⟩

end Handlers

end Paulastorm.Faults
