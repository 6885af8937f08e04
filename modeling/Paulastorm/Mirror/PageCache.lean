import Paulastorm.Library.Transition
import Paulastorm.Mirror.Cache

namespace Paulastorm.Mirror.PageCache

/-! The sample cache as a machine of atomic steps.

Three parties share it: CPU1 requests pages and reads bytes, the worker runs
`paula_mirror_service`, and the writer performs bus writes, each followed by
`paula_mirror_invalidate`.  The last two run on one processor; here they
interleave freely.  A step is one access to a shared word; accesses to
diagnostic words are folded into the step before them, but for the gauge of
pending requests.

`History` is not read by the code.
-/

open Library Probe

/-- What CPU1 does after a page request. -/
inductive After where
  | done
  | missed (address : UInt32)
  | shadow (address : UInt32)
  | prefetch (page last : Nat)

/-- Where CPU1 is. -/
inductive Cpu1 where
  | idle
  | check (address : UInt32)
  | loadMeta (page : Nat) (after : After)
  | casMeta (page : Nat) (old : UInt64) (after : After)
  | fillSlot (page : Nat) (after : After)
  | publish (page : Nat) (after : After)
  | loadTail (after : After)
  | gauge (pending : UInt32) (after : After)
  | missed (address : UInt32)
  | loadShadow (address : UInt32)
  | prefetch (page last : Nat)

/-- Where `paula_mirror_service` is. -/
inductive Worker where
  | idle
  | loadMeta (page : Nat)
  | claim (page : Nat) (old : UInt64)
  | skipped
  | copy (page : Nat) (expected : UInt64) (offset : Nat)
  | store (page : Nat) (expected : UInt64) (offset : Nat) (value : UInt8)
  | loadHead (page : Nat) (expected : UInt64)
  | gauge (page : Nat) (expected : UInt64) (pending : UInt32)
  | reserve (page : Nat) (expected : UInt64)
  | publish (page : Nat) (expected : UInt64)
  | announce (page : Nat)
  | unreserve (page : Nat) (compare : UInt64)
  | report (page : Nat) (compare : UInt64)
  | discard (page : Nat) (compare : UInt64)

/-- Where the invalidation after a bus write is. -/
inductive Writer where
  | idle
  | load (page last : Nat)
  | cas (page last : Nat) (old : UInt64)
  | unready (page last : Nat)
  | report (page last : Nat)

/-- A physical write of one byte, or of two bytes at an even address. -/
structure BusWrite where
  address : UInt32
  width : UInt32
  value : UInt16
deriving DecidableEq, Repr

namespace BusWrite

def WellFormed (write : BusWrite) : Prop :=
  write.address &&& 0xffffff = write.address ∧
    (write.width = 1 ∨ (write.width = 2 ∧ write.address &&& 1 = 0))

instance (write : BusWrite) : Decidable write.WellFormed := inferInstanceAs (Decidable (_ ∧ _))

/-- The bytes of Chip RAM after the write. -/
def apply (write : BusWrite) (chip : Nat → UInt8) : Nat → UInt8 :=
  let address := write.address.toNat
  if write.width = 1 then Function.update chip address write.value.toUInt8
  else Function.update (Function.update chip address (write.value >>> 8).toUInt8) (address + 1)
    write.value.toUInt8

end BusWrite

/-- Chip RAM at a ready check: the byte then, the byte before the last bus
write, and whether that write still had to invalidate the page. -/
structure Check where
  now : UInt8
  old : UInt8
  pending : Bool

/-- One finished `paula_mirror_read_byte`. -/
structure Read where
  address : UInt32
  byte : UInt8
  missed : Bool
  check : Check

/-- The requests between tail and head, the pages taken out of the loading
state so far, the finished service calls, the invalidations of the page being
loaded, Chip RAM before the last bus write, the last ready check, and the
finished reads. -/
structure History where
  queue : List Nat
  served : List Nat
  finished : Nat
  bumps : Nat
  before : Nat → UInt8
  check : Check
  reads : List Read

structure State where
  cache : Cache
  chip : Nat → UInt8
  cpu1 : Cpu1
  worker : Worker
  writer : Writer
  history : History

/-- All parties idle, just after `paula_mirror_enable`. -/
def start (cache : Cache) (chip : Nat → UInt8) : State where
  cache := cache.enable
  chip := chip
  cpu1 := .idle
  worker := .idle
  writer := .idle
  history := ⟨[], [], 0, 0, chip, ⟨0, 0, false⟩, []⟩

/-- The page in the loading state. -/
def Worker.loading : Worker → Option Nat
  | .copy page _ _ | .store page _ _ _ | .loadHead page _ | .gauge page _ _ | .reserve page _
  | .publish page _ | .unreserve page _ | .report page _ | .discard page _ => some page
  | _ => none

/-- The page still has to be invalidated after the last bus write. -/
def Writer.pending (page : Nat) : Writer → Bool
  | .idle => false
  | .load next last | .cas next last _ => next ≤ page && page ≤ last
  | .unready done last | .report done last => done < page && page ≤ last

def After.resume : After → Cpu1
  | .done => .idle
  | .missed address => .missed address
  | .shadow address => .loadShadow address
  | .prefetch page last => if page < last then .prefetch (page + 1) last else .idle

def State.finishRead (state : State) (address : UInt32) (byte : UInt8) (missed : Bool) : State :=
  { state with
    cpu1 := .idle
    history.reads := state.history.reads ++ [⟨address, byte, missed, state.history.check⟩] }

/-- CPU1 calls `request_page`. -/
def request (page : Nat) (state : State) : Option State :=
  match state.cpu1 with
  | .idle => some { state with cpu1 := .loadMeta page .done }
  | _ => none

/-- CPU1 calls `paula_mirror_render_begin`. -/
def renderBegin (state : State) : Option State :=
  match state.cpu1 with
  | .idle => some { state with cache := state.cache.renderBegin }
  | _ => none

/-- CPU1 calls `paula_mirror_read_byte`. -/
def read (address : UInt32) (state : State) : Option State :=
  match state.cpu1 with
  | .idle =>
      let state := { state with cache := state.cache.countRead }
      if address ≥ chipLimit then
        some ({ state with cache := state.cache.refuseAddress }.finishRead address 0 false)
      else some { state with cpu1 := .check address }
  | _ => none

/-- CPU1 calls `paula_mirror_prefetch`. -/
def prefetch (address length : UInt32) (state : State) : Option State :=
  match state.cpu1 with
  | .idle =>
      if address ≥ chipLimit ∨ length = 0 then some state
      else
        let length := if length > chipLimit - address then chipLimit - address else length
        some { state with cpu1 := .prefetch (pageOf address) (pageOf (address + length - 1)) }
  | _ => none

/-- The next step of CPU1. -/
def cpu1 (state : State) : Option State :=
  let cache := state.cache
  match state.cpu1 with
  | .idle => none
  | .check address =>
      let page := pageOf address
      if cache.tagOf page ≠ ready then
        some { state with
          cache := cache.noteMiss page
          cpu1 := .loadMeta page (.missed address) }
      else
        some { state with
          cpu1 := if Cache.nearEnd address then .loadMeta (page + 1) (.shadow address)
            else .loadShadow address
          history.check := ⟨state.chip address.toNat, state.history.before address.toNat,
            state.writer.pending page⟩ }
  | .loadMeta page after =>
      if pageCount ≤ page then some { state with cpu1 := after.resume }
      else some { state with cpu1 := .casMeta page (cache.pageMeta page) after }
  | .casMeta page old after =>
      if tag old ≠ missing then some { state with cpu1 := after.resume }
      else if cache.pageMeta page = old then
        some { state with cache := cache.markRequested page, cpu1 := .fillSlot page after }
      else some { state with cpu1 := .casMeta page (cache.pageMeta page) after }
  | .fillSlot page after =>
      some { state with cache := cache.fillRequest page, cpu1 := .publish page after }
  | .publish page after =>
      some { state with
        cache := cache.publishRequest
        cpu1 := .loadTail after
        history.queue := state.history.queue ++ [page] }
  | .loadTail after =>
      some { state with cpu1 := .gauge (cache.requestHead - cache.requestTail) after }
  | .gauge pending after =>
      some { state with cache := cache.gaugeRequests pending, cpu1 := after.resume }
  | .missed address =>
      some ({ state with cache := cache.countMiss }.finishRead address 0 true)
  | .loadShadow address => some (state.finishRead address (cache.shadow address.toNat) false)
  | .prefetch page last =>
      let cache := if cache.tagOf page = missing then
          { cache with metrics := add cache.metrics ppCachePrefetchPages 1 }
        else cache
      some { state with cache := cache, cpu1 := .loadMeta page (.prefetch page last) }

/-- The end of a service call. -/
def State.finishService (state : State) : State :=
  { state with worker := .idle, history.finished := state.history.finished + 1 }

/-- CPU0 calls `paula_mirror_service`. -/
def service (state : State) : Option State :=
  match state.worker with
  | .idle =>
      if state.cache.servicePending then
        some { state with worker := .loadMeta state.cache.frontRequest }
      else some state.finishService
  | _ => none

/-- The next step of `paula_mirror_service`. -/
def worker (state : State) : Option State :=
  let cache := state.cache
  match state.worker with
  | .idle => none
  | .loadMeta page => some { state with worker := .claim page (cache.pageMeta page) }
  | .claim page old =>
      if tag old ≠ queued then
        some { state with
          cache := cache.releaseRequest
          worker := .skipped
          history.queue := state.history.queue.tail }
      else if cache.pageMeta page = old then
        some { state with
          cache.pageMeta := Function.update cache.pageMeta page (claimed old)
          cache.metrics := flag cache.metrics ppFlagCacheWorker true
          worker := .copy page (claimed old) 0
          history.bumps := 0 }
      else some { state with worker := .claim page (cache.pageMeta page) }
  | .skipped => some { state with cache := cache.gaugePending }.finishService
  | .copy page expected offset =>
      if offset < 256 then
        some { state with worker := .store page expected offset (state.chip (page * 256 + offset)) }
      else
        some { state with
          cache := cache.releaseRequest
          worker := .loadHead page expected
          history.queue := state.history.queue.tail }
  | .store page expected offset value =>
      some { state with
        cache.shadow := Function.update cache.shadow (page * 256 + offset) value
        worker := .copy page expected (offset + 1) }
  | .loadHead page expected =>
      some { state with worker := .gauge page expected (cache.requestHead - cache.requestTail) }
  | .gauge page expected pending =>
      let cache := cache.gaugeRequests pending
      some { state with
        cache.metrics := flag (add cache.metrics ppCacheFetches 1) ppFlagCacheWorker false
        worker := .reserve page expected }
  | .reserve page expected =>
      some { state with
        cache.pagesReady := cache.pagesReady + 1
        worker := .publish page expected }
  | .publish page expected =>
      if cache.pageMeta page = expected then
        some { state with
          cache.pageMeta := Function.update cache.pageMeta page (published expected)
          worker := .announce page
          history.served := state.history.served ++ [page] }
      else some { state with worker := .unreserve page (cache.pageMeta page) }
  | .announce page =>
      let cache := cache.gaugeReady
      let seen := cache.pageMissSeen page
      let cache := { cache with pageMissSeen := Function.update cache.pageMissSeen page false }
      let cache := if seen then { cache with metrics := add cache.metrics ppCacheMissReady 1 }
        else cache
      some { state with cache := cache }.finishService
  | .unreserve page compare =>
      some { state with cache := cache.countUnready, worker := .report page compare }
  | .report page compare =>
      let cache := cache.gaugeReady
      some { state with
        cache.metrics := add cache.metrics ppCacheStale 1
        worker := .discard page compare }
  | .discard page compare =>
      if tag compare ≠ loading then some state.finishService
      else if cache.pageMeta page = compare then
        some { state with
          cache.pageMeta := Function.update cache.pageMeta page (discarded compare)
          history.served := state.history.served ++ [page] }.finishService
      else some { state with worker := .discard page (cache.pageMeta page) }

def Writer.next (page last : Nat) : Writer := if page < last then .load (page + 1) last else .idle

/-- CPU0 writes to the bus and enters `paula_mirror_invalidate`. -/
def write (bus : BusWrite) (state : State) : Option State :=
  match state.writer with
  | .idle =>
      if bus.WellFormed then
        let touched := state.cache.enabled && bus.address < chipLimit
        some { state with
          chip := bus.apply state.chip
          writer := if touched then .load (pageOf bus.address)
              (min (pageOf (bus.address + bus.width - 1)) (pageCount - 1))
            else .idle
          history.before := state.chip }
      else none
  | _ => none

/-- The next step of `paula_mirror_invalidate`. -/
def writer (state : State) : Option State :=
  let cache := state.cache
  match state.writer with
  | .idle => none
  | .load page last =>
      let old := cache.pageMeta page
      some { state with
        cache.metrics := add cache.metrics ppCacheInvalidations 1
        writer := if tag old = missing then .next page last else .cas page last old }
  | .cas page last old =>
      let current := cache.pageMeta page
      if current = old then
        some { state with
          cache.pageMeta := Function.update cache.pageMeta page (invalidated old)
          writer := if tag old = ready then .unready page last else .next page last
          history.bumps := if state.worker.loading = some page then state.history.bumps + 1
            else state.history.bumps }
      else if tag current = missing then some { state with writer := .next page last }
      else some { state with writer := .cas page last current }
  | .unready page last =>
      some { state with cache := cache.countUnready, writer := .report page last }
  | .report page last =>
      some { state with cache := cache.gaugeReady, writer := .next page last }

inductive Label where
  | request (page : Nat)
  | renderBegin
  | read (address : UInt32)
  | prefetch (address length : UInt32)
  | cpu1
  | service
  | worker
  | write (bus : BusWrite)
  | writer

def step : Label → State → Option State
  | .request page => request page
  | .renderBegin => renderBegin
  | .read address => read address
  | .prefetch address length => prefetch address length
  | .cpu1 => cpu1
  | .service => service
  | .worker => worker
  | .write bus => write bus
  | .writer => writer

def machine : Machine State Label := ⟨step⟩

end Paulastorm.Mirror.PageCache
