import Mathlib.Logic.Function.Basic
import Mathlib.Data.UInt
import Paulastorm.Library.Transition

namespace Paulastorm.Lru

/-! The lookup cache of translated code (`ExecutionLoop.c`): `ways` entries in each of
`sets` sets, and one word for each set whose top bits are the replacement state. -/

open Library

/-- `struct Entry`; only 32-bit values are stored in `m68k`. -/
structure Entry where
  m68k : UInt32
  arm : UInt64
deriving Repr, DecidableEq

/-- `LRU_cache` and `LRU_alloc`. -/
structure Cache where
  entry : Nat → Entry
  alloc : Nat → UInt32

/-- The tag of an entry that holds nothing. -/
abbrev emptyTag : UInt32 := 0xffffffff

def Entry.empty : Entry := ⟨emptyTag, 0⟩

/-- The bit of a way. -/
def wayBit (way : Nat) : UInt32 := 0x80000000 >>> UInt32.ofNat way

/-- `__builtin_clz`. -/
def clz (word : UInt32) : Nat :=
  ((List.range 32).find? fun index => decide (word &&& wayBit index ≠ 0)).getD 32

section Operations

variable (ways sets : Nat)

/-- `ADDR_2_SET`. -/
def setOf (address : UInt32) : Nat := (address.toNat >>> 4) % sets

/-- The update of the replacement word after a hit or an insertion. -/
def touch (cache : Cache) (set way : Nat) : Cache :=
  let mask := wayBit way
  let current := cache.alloc set &&& ~~~mask
  let current := if current >>> UInt32.ofNat (32 - ways) = 0 then ~~~mask else current
  { cache with alloc := Function.update cache.alloc set current }

/-- The first way of the set that shows the address. -/
def wayOf (cache : Cache) (address : UInt32) : Option Nat :=
  (List.range ways).find? fun way =>
    decide ((cache.entry (setOf sets address * ways + way)).m68k = address)

/-- `LRU_FindBlock`: the code address, or null. -/
def findBlock (cache : Cache) (address : UInt32) : UInt64 × Cache :=
  let set := setOf sets address
  match wayOf ways sets cache address with
  | some way => ((cache.entry (set * ways + way)).arm, touch ways cache set way)
  | none => (0, cache)

/-- Empty one entry and offer its way first-come. -/
def release (cache : Cache) (index set way : Nat) : Cache where
  entry := Function.update cache.entry index .empty
  alloc := Function.update cache.alloc set (cache.alloc set ||| wayBit way)

/-- `LRU_InvalidateByARMAddress`. -/
def invalidateByARMAddress (cache : Cache) (address : UInt64) : Cache :=
  match (List.range (sets * ways)).find? fun index => decide ((cache.entry index).arm = address) with
  | some index => release cache index (index / ways) (index % ways)
  | none => cache

/-- `LRU_InvalidateByM68kAddress`. -/
def invalidateByM68kAddress (cache : Cache) (address : UInt32) : Cache :=
  let set := setOf sets address
  match wayOf ways sets cache address with
  | some way => release cache (set * ways + way) set way
  | none => cache

/-- `LRU_InvalidateAll`. -/
def invalidateAll (cache : Cache) : Cache where
  entry index := if index < sets * ways then .empty else cache.entry index
  alloc set := if set < sets then 0xffffffff else cache.alloc set

/-- The way that the next insertion into a set takes. -/
def victim (cache : Cache) (set : Nat) : Nat := clz (cache.alloc set)

/-- `LRU_InsertBlock` of the unit of an address. -/
def insertBlock (cache : Cache) (address : UInt32) (entryPoint : UInt64) : Cache :=
  let set := setOf sets address
  let loc := victim cache set
  touch ways
    { cache with entry := Function.update cache.entry (set * ways + loc) ⟨address, entryPoint⟩ }
    set loc

end Operations

/-- What happened to the cache, as far as it says which translations it should hold. -/
inductive Event where
  | inserted (address : UInt32) (entryPoint : UInt64)
  | evicted (address : UInt32)
  | invalidatedAddress (address : UInt32)
  | invalidatedEntryPoint (entryPoint : UInt64)
deriving Repr, DecidableEq

/-- What the latest insertion for an address carried, if nothing took it away since. -/
def carried : List Event → UInt32 → Option UInt64
  | [], _ => none
  | .inserted address entryPoint :: earlier, key =>
      if key = address then some entryPoint else carried earlier key
  | .evicted address :: earlier, key
  | .invalidatedAddress address :: earlier, key =>
      if key = address then none else carried earlier key
  | .invalidatedEntryPoint entryPoint :: earlier, key =>
      if carried earlier key = some entryPoint then none else carried earlier key

/-- The cache, its history with the latest event first, and the way of each set that was
last hit or inserted, unless the tag of empty ways was looked up there since. -/
structure State where
  cache : Cache
  events : List Event
  recent : Nat → Option Nat

inductive Label where
  | find (address : UInt32)
  | insert (address : UInt32) (entryPoint : UInt64)
  | invalidateAddress (address : UInt32)
  | invalidateEntryPoint (entryPoint : UInt64)
deriving Repr, DecidableEq

section Machine

variable (ways sets : Nat)

/-- The events of an insertion: what stood in the victim way is evicted. -/
def insertionEvents (cache : Cache) (address : UInt32) (entryPoint : UInt64) : List Event :=
  let set := setOf sets address
  let old := cache.entry (set * ways + victim cache set)
  if old.m68k = emptyTag then [.inserted address entryPoint]
  else [.inserted address entryPoint, .evicted old.m68k]

def step (label : Label) (state : State) : State :=
  match label with
  | .find address =>
      let set := setOf sets address
      let recent :=
        match wayOf ways sets state.cache address with
        | some way =>
            Function.update state.recent set (if address = emptyTag then none else some way)
        | none => state.recent
      { state with cache := (findBlock ways sets state.cache address).2, recent }
  | .insert address entryPoint =>
      let set := setOf sets address
      { cache := insertBlock ways sets state.cache address entryPoint
        events := insertionEvents ways sets state.cache address entryPoint ++ state.events
        recent := Function.update state.recent set (some (victim state.cache set)) }
  | .invalidateAddress address =>
      { state with
        cache := invalidateByM68kAddress ways sets state.cache address
        events := .invalidatedAddress address :: state.events }
  | .invalidateEntryPoint entryPoint =>
      { state with
        cache := invalidateByARMAddress ways sets state.cache entryPoint
        events := .invalidatedEntryPoint entryPoint :: state.events }

def machine : Machine State Label where
  step label state := some (step ways sets label state)

/-- After `LRU_InvalidateAll` over whatever the memory held. -/
def start (memory : Cache) : State where
  cache := invalidateAll ways sets memory
  events := []
  recent _ := none

/-- Units are inserted as `FindUnitQuick` and `MainLoop` do: an even address that was just
looked up in vain. -/
def Allowed (units : UInt32 → UInt64 → Prop) (label : Label) (state : State) : Prop :=
  match label with
  | .insert address entryPoint =>
      units address entryPoint ∧ address &&& 1 = 0 ∧
        (findBlock ways sets state.cache address).1 = 0
  | _ => True

end Machine

end Paulastorm.Lru
