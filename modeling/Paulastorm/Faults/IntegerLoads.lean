import Paulastorm.Faults.Agreement

namespace Paulastorm.Faults

/-! The integer loads of `SYSPageFaultReadHandler`, and the registers they are put into. -/

open Bus Library.Decode Sys

/-- `REGMAP`. -/
def regMap : List Int :=
  [0, 1, 2, 3, 4, 5, 6, 7,
    8, 9, 10, 11, 12, 13, 14, 15, 16, 17,
    18, -1, -1, -1, -1, -1, -1, -1, -1, -1,
    -1, -1, 19, -1]

/-- The words around the saved frame, which is `ctx[0]` to `ctx[19]`, and the registers
that are not saved. -/
@[ext] structure Context where
  ctx : Int → UInt64
  live : Nat → UInt64

/-- The register numbers with a case of their own. -/
def isLive (number : Nat) : Bool := decide (19 ≤ number) && decide (number ≤ 29)

def slot (number : Nat) : Int := regMap.getD number 0

/-- `SYSPutValueToReg`. -/
def Context.put (context : Context) (number : Nat) (value : UInt64) : Context :=
  if isLive number then { context with live := Function.update context.live number value }
  else { context with ctx := Function.update context.ctx (slot number) value }

/-- `SYSGetValueFromReg`. -/
def Context.get (context : Context) (number : Nat) : UInt64 :=
  if isLive number then context.live number else context.ctx (slot number)

/-- A sequence of calls of `SYSPutValueToReg`. -/
def Context.puts (context : Context) (puts : List (Nat × UInt64)) : Context :=
  puts.foldl (fun context put => context.put put.1 put.2) context

def rt2 (opcode : UInt32) : Nat := ((opcode >>> 10) &&& 31).toNat

/-- `size * (((int16_t)(opcode >> 6)) >> 9)`, as it is added to a pointer. -/
def pairOffset (opcode : UInt32) (size : Nat) : UInt64 :=
  (((opcode >>> 6).toUInt16.toInt16 >>> 9) * Int16.ofNat size).toInt64.toUInt64

/-- The index register extended by the option field and scaled by the S bit. -/
def indexedInteger (opcode : UInt32) (size : Nat) (index : UInt64) : UInt64 :=
  let option := (opcode >>> 13) &&& 7
  let index :=
    if option = 0b010 then index &&& 0xffffffff
    else if option = 0b110 then
      if index &&& 0x80000000 ≠ 0 then index ||| 0xffffffff00000000
      else index &&& 0x00000000ffffffff
    else index
  if opcode &&& 0x1000 ≠ 0 then
    match size with
    | 2 => index <<< 1
    | 4 => index <<< 2
    | 8 => index <<< 3
    | _ => index
  else index

/-- The branches of the integer loads, under the names that the source gives them. -/
inductive Branch where
  | ldp
  | ldpIndexed
  | ldpsw
  | ldpswPost
  | ldpswPre
  | ldrLiteral
  | ldrRegister
  | ldxr
  | ldrImmediate
  | ldur
  | ldrIndexed
  | ldrsRegister
  | ldrsImmediate
  | ldurs
  | ldrsIndexed
deriving DecidableEq, Repr

/-- The tests in the order of the source, which begins a second chain at `ldpsw`. -/
def integerBranches : List (Test Branch) :=
  [⟨0x7fc00000, 0x29400000, .ldp⟩, ⟨0x7ec00000, 0x28c00000, .ldpIndexed⟩,
    ⟨0xffc00000, 0x69400000, .ldpsw⟩, ⟨0xffc00000, 0x68c00000, .ldpswPost⟩,
    ⟨0xffc00000, 0x69c00000, .ldpswPre⟩, ⟨0xbf000000, 0x18000000, .ldrLiteral⟩,
    ⟨0xff000000, 0x98000000, .ldrLiteral⟩, ⟨0x3fe00c00, 0x38600800, .ldrRegister⟩,
    ⟨0x3ffffc00, 0x085f7c00, .ldxr⟩, ⟨0x3fc00000, 0x39400000, .ldrImmediate⟩,
    ⟨0x3fe00c00, 0x38400000, .ldur⟩, ⟨0x3fe00400, 0x38400400, .ldrIndexed⟩,
    ⟨0x3fa00c00, 0x38a00800, .ldrsRegister⟩, ⟨0x3f800000, 0x39800000, .ldrsImmediate⟩,
    ⟨0x3fa00c00, 0x38800000, .ldurs⟩, ⟨0x3fa00400, 0x38800400, .ldrsIndexed⟩]

/-- What a branch asks of `SYSReadValFromAddr`, with what its variables hold before, and
the calls of `SYSPutValueToReg` it makes if the read is handled, and in any case. -/
structure Call where
  ptr : UInt64
  size : Nat
  tmp : UInt64 × UInt64
  retire : UInt64 → UInt64 → List (Nat × UInt64)
  always : List (Nat × UInt64) := []

def Call.puts (call : Call) (handled : Bool) (value value2 : UInt64) : List (Nat × UInt64) :=
  (if handled then call.retire value value2 else []) ++ call.always

/-- `LDP` splits one quad into two words, or puts two quads. -/
def pairPuts (opcode : UInt32) (size : Nat) (tmp1 tmp2 : UInt64) : List (Nat × UInt64) :=
  if size = 4 then [(rt opcode, tmp1 >>> 32), (rt2 opcode, tmp1 &&& 0xffffffff)]
  else [(rt opcode, tmp1), (rt2 opcode, tmp2)]

def signExtendWord (tmp : UInt64) : UInt64 :=
  if tmp &&& 0x80000000 ≠ 0 then tmp ||| 0xffffffff00000000 else tmp

def signedPairPuts (opcode : UInt32) (tmp _ : UInt64) : List (Nat × UInt64) :=
  [(rt opcode, signExtendWord (tmp >>> 32)), (rt2 opcode, signExtendWord (tmp &&& 0xffffffff))]

/-- The switch on the size in the branches of `LDRSB`, `LDRSH` and `LDRSW`. -/
def signExtended (opcode : UInt32) (size : Nat) (tmp : UInt64) : UInt64 :=
  let sext64 := opcode &&& ((1 : UInt32) <<< 22) = 0
  let (sext, tmp) :=
    match size with
    | 1 =>
        let sext := tmp &&& 0x80
        (sext != 0, if sext ≠ 0 then tmp ||| 0xffffff00 else tmp)
    | 2 =>
        let sext := tmp &&& 0x8000
        (sext != 0, if sext ≠ 0 then tmp ||| 0xffff0000 else tmp)
    | 4 => (tmp &&& 0x80000000 != 0, tmp)
    | _ => (false, tmp)
  if sext ∧ sext64 then tmp ||| 0xffffffff00000000 else tmp

/-- The body of a branch.  `stack` is what its uninitialised variables hold. -/
def Branch.call (stack : UInt64 × UInt64) (opcode : UInt32) (far : UInt64)
    (register : Nat → UInt64) : Branch → Call :=
  let size := getOPsize opcode
  let base := register (rn opcode)
  let put (value _ : UInt64) : List (Nat × UInt64) := [(rt opcode, value)]
  let putSigned (value _ : UInt64) : List (Nat × UInt64) :=
    [(rt opcode, signExtended opcode size value)]
  fun
  | .ldp =>
      let size := if opcode &&& 0x80000000 ≠ 0 then 8 else 4
      let ptr := base + pairOffset opcode size
      { ptr, size := 2 * size, tmp := stack, retire := pairPuts opcode size }
  | .ldpIndexed =>
      let size := if opcode &&& 0x80000000 ≠ 0 then 8 else 4
      let updated := base + pairOffset opcode size
      let far := if opcode &&& 0x01000000 ≠ 0 then updated else base
      { ptr := far, size := 2 * size, tmp := stack, retire := pairPuts opcode size
        always := [(rn opcode, updated)] }
  | .ldpsw =>
      let ptr := base + pairOffset opcode 4
      { ptr, size := 8, tmp := stack, retire := signedPairPuts opcode }
  | .ldpswPost =>
      { ptr := base, size := 8, tmp := stack, retire := signedPairPuts opcode
        always := [(rn opcode, base + pairOffset opcode 4)] }
  | .ldpswPre =>
      let ptr := base + pairOffset opcode 4
      { ptr, size := 8, tmp := stack, retire := signedPairPuts opcode
        always := [(rn opcode, ptr)] }
  | .ldrLiteral =>
      let size := if opcode &&& 0x40000000 ≠ 0 then 8 else 4
      -- the value is put under the test for sign extension
      { ptr := far, size, tmp := stack
        retire := fun tmp _ =>
          if opcode &&& 0x80000000 ≠ 0 then [(rt opcode, signExtendWord tmp)] else [] }
  | .ldrRegister =>
      let index := indexedInteger opcode size (register (rm opcode))
      { ptr := base + index, size, tmp := (0, 0), retire := put }
  | .ldxr => { ptr := far, size, tmp := (0, 0), retire := put }
  | .ldrImmediate =>
      let offset := ((opcode >>> 10) &&& 0xfff).toUInt64 * UInt64.ofNat size
      { ptr := base + offset, size, tmp := (0, 0), retire := put }
  | .ldur => { ptr := base + offset opcode, size, tmp := (0, 0), retire := put }
  | .ldrIndexed =>
      let updated := base + offset opcode
      let far := if opcode &&& 0x800 ≠ 0 then updated else base
      { ptr := far, size, tmp := (0, 0)
        retire := fun value value2 => put value value2 ++ [(rn opcode, updated)] }
  | .ldrsRegister =>
      let index := indexedInteger opcode size (register (rm opcode))
      { ptr := base + index, size, tmp := (0, 0), retire := putSigned }
  | .ldrsImmediate =>
      { ptr := base + scaledOffset opcode size, size, tmp := (0, 0), retire := putSigned }
  | .ldurs => { ptr := base + offset opcode, size, tmp := (0, 0), retire := putSigned }
  | .ldrsIndexed =>
      let updated := base + offset opcode
      let far := if opcode &&& 0x800 ≠ 0 then updated else base
      { ptr := far, size, tmp := (0, 0)
        retire := fun value value2 => putSigned value value2 ++ [(rn opcode, updated)] }

section Handlers

variable {BusState : Type u} (wires : Wires BusState) (options : Options)

/-- The read of a branch: whether it was handled, the values, and what it leaves. -/
def Call.read (call : Call) (machine : Machine BusState) :
    Bool × UInt64 × UInt64 × State × BusState :=
  sysReadValFromAddr wires options call.tmp.1 call.tmp.2 call.size call.ptr machine.sys machine.bus

/-- The calls of `SYSPutValueToReg` that a branch makes, in order. -/
def Call.made (call : Call) (machine : Machine BusState) : List (Nat × UInt64) :=
  let (handled, value, value2, _, _) := call.read wires options machine
  call.puts handled value value2

def Call.run (call : Call) (machine : Machine BusState) : Outcome BusState :=
  let (handled, _, _, sys, bus) := call.read wires options machine
  ⟨handled, some (call.ptr, call.size),
    (call.made wires options machine).foldl (fun machine put => sysPutValueToReg machine put.1 put.2)
      { machine with sys, bus }⟩

/-- The integer loads of `SYSPageFaultReadHandler`. -/
def integerLoad (stack : UInt64 × UInt64) (opcode : UInt32) (far : UInt64)
    (machine : Machine BusState) : Outcome BusState :=
  match firstMatch opcode integerBranches with
  | some branch => (branch.call stack opcode far machine.register).run wires options machine
  | none => ⟨false, none, machine⟩

end Handlers

end Paulastorm.Faults
