import Paulastorm.Library.Ring
import Paulastorm.Mirror.PageMeta
import Paulastorm.Probe

namespace Paulastorm.Mirror

/-! The Chip RAM sample cache of `paula_mirror.c`, one call at a time.

These are the functions as a single processor executes them without
interference.  `PageCache` splits them into atomic steps.
-/

open Library Probe

/-- `PAULA_MIRROR_CHIP_LIMIT`. -/
abbrev chipLimit : UInt32 := 0x200000

/-- `PAGE_COUNT`, also `REQUEST_CAPACITY`. -/
abbrev pageCount : Nat := 8192

def requestCapacity : Capacity := ⟨8192, 13, Capacity.power_13⟩

/-- `address / PAULA_MIRROR_PAGE_SIZE`. -/
def pageOf (address : UInt32) : Nat := (address / 256).toNat

theorem pageOf_eq (address : UInt32) : pageOf address = address.toNat / 256 := by
  rw [pageOf, UInt32.toNat_div]
  rfl

theorem pageOf_lt {address : UInt32} (below : address < chipLimit) : pageOf address < pageCount := by
  have bound : address.toNat < 2097152 := UInt32.lt_iff_toNat_lt.mp below
  rw [pageOf_eq]
  change address.toNat / 256 < 8192
  omega

/-- The static variables of the cache. -/
structure Cache where
  pageMeta : Nat → UInt64
  shadow : Nat → UInt8
  pageMissSeen : Nat → Bool
  requests : Nat → UInt16
  requestHead : UInt32
  requestTail : UInt32
  misses : UInt32
  pagesReady : UInt32
  invalidAddresses : UInt32
  renderMiss : Bool
  enabled : Bool
  metrics : Metrics

namespace Cache

/-- The state of a page. -/
def tagOf (cache : Cache) (page : Nat) : UInt64 := tag (cache.pageMeta page)

/-- `paula_mirror_enable`, the part that clears the cache. -/
def enable (cache : Cache) : Cache :=
  { cache with
    requestHead := 0
    requestTail := 0
    misses := 0
    pagesReady := 0
    invalidAddresses := 0
    pageMeta := fun _ => 0
    pageMissSeen := fun _ => false
    enabled := true
    metrics := flag cache.metrics ppFlagArmed true }

/-- `paula_mirror_render_begin`. -/
def renderBegin (cache : Cache) : Cache := { cache with renderMiss := false }

/-- Mark a missing page as requested. -/
def markRequested (cache : Cache) (page : Nat) : Cache :=
  { cache with pageMeta := Function.update cache.pageMeta page (requested (cache.pageMeta page)) }

/-- Store a page in the slot at the head of the request queue. -/
def fillRequest (cache : Cache) (page : Nat) : Cache :=
  { cache with
    requests := Function.update cache.requests (Ring.slot requestCapacity cache.requestHead)
      page.toUInt16 }

/-- Publish the filled request. -/
def publishRequest (cache : Cache) : Cache :=
  { cache with
    requestHead := cache.requestHead + 1
    metrics := add cache.metrics ppCacheRequests 1 }

def gaugeRequests (cache : Cache) (pending : UInt32) : Cache :=
  { cache with metrics := set cache.metrics ppCachePending pending }

/-- `request_page`. -/
def requestPage (cache : Cache) (page : Nat) : Cache :=
  if pageCount ≤ page then cache
  else if cache.tagOf page ≠ missing then cache
  else
    let cache := ((cache.markRequested page).fillRequest page).publishRequest
    cache.gaugeRequests (cache.requestHead - cache.requestTail)

/-- The first step of `paula_mirror_read_byte`. -/
def countRead (cache : Cache) : Cache := { cache with metrics := add cache.metrics ppSampleReads 1 }

/-- An address past the limit reads as zero. -/
def refuseAddress (cache : Cache) : Cache :=
  { cache with
    invalidAddresses := cache.invalidAddresses + 1
    metrics := add cache.metrics ppCacheInvalidAddr 1 }

/-- A page that is not ready is noted before it is requested. -/
def noteMiss (cache : Cache) (page : Nat) : Cache :=
  { cache with
    renderMiss := true
    pageMissSeen := Function.update cache.pageMissSeen page true }

/-- The counters of a miss. -/
def countMiss (cache : Cache) : Cache :=
  { cache with
    misses := cache.misses + 1
    metrics := add (add cache.metrics ppCacheMisses 1) ppCacheZeroReturns 1 }

/-- The read is close enough to the end of its page to warm the next one. -/
def nearEnd (address : UInt32) : Bool :=
  address &&& 255 ≥ 255 - 63 && pageOf address + 1 < pageCount

/-- `paula_mirror_read_byte`. -/
def readByte (address : UInt32) (cache : Cache) : UInt8 × Cache :=
  let cache := cache.countRead
  if address ≥ chipLimit then (0, cache.refuseAddress)
  else
    let page := pageOf address
    if cache.tagOf page ≠ ready then (0, ((cache.noteMiss page).requestPage page).countMiss)
    else
      let cache := if nearEnd address then cache.requestPage (page + 1) else cache
      (cache.shadow address.toNat, cache)

/-- One page of a prefetch. -/
def prefetchPage (cache : Cache) (page : Nat) : Cache :=
  let cache := if cache.tagOf page = missing then
      { cache with metrics := add cache.metrics ppCachePrefetchPages 1 }
    else cache
  cache.requestPage page

/-- The pages of a clipped byte range. -/
def pageRange (address length : UInt32) : List Nat :=
  let length := if length > chipLimit - address then chipLimit - address else length
  let first := pageOf address
  let last := pageOf (address + length - 1)
  List.range' first (last + 1 - first)

/-- `paula_mirror_prefetch`. -/
def prefetch (address length : UInt32) (cache : Cache) : Cache :=
  if address ≥ chipLimit ∨ length = 0 then cache
  else (pageRange address length).foldl prefetchPage cache

/-- A page leaves the ready state. -/
def countUnready (cache : Cache) : Cache := { cache with pagesReady := cache.pagesReady - 1 }

def gaugeReady (cache : Cache) : Cache :=
  { cache with metrics := set cache.metrics ppCacheReady cache.pagesReady }

/-- One page of `paula_mirror_invalidate`. -/
def invalidatePage (cache : Cache) (page : Nat) : Cache :=
  let cache := { cache with metrics := add cache.metrics ppCacheInvalidations 1 }
  let old := cache.pageMeta page
  if tag old = missing then cache
  else
    let cache := { cache with pageMeta := Function.update cache.pageMeta page (invalidated old) }
    if tag old = ready then cache.countUnready.gaugeReady else cache

/-- The pages that a write of `width` bytes touches, clipped to the cache. -/
def touchedPages (address width : UInt32) : List Nat :=
  let first := pageOf address
  let last := min (pageOf (address + width - 1)) (pageCount - 1)
  List.range' first (last + 1 - first)

/-- `paula_mirror_invalidate`. -/
def invalidate (address width : UInt32) (cache : Cache) : Cache :=
  let address := address &&& 0xffffff
  if !cache.enabled || address ≥ chipLimit || width = 0 then cache
  else (touchedPages address width).foldl invalidatePage cache

/-- `paula_mirror_service_pending`. -/
def servicePending (cache : Cache) : Bool :=
  cache.enabled && cache.requestTail != cache.requestHead

/-- The page in the slot at the tail of the request queue. -/
def frontRequest (cache : Cache) : Nat :=
  (cache.requests (Ring.slot requestCapacity cache.requestTail)).toNat

/-- Release the request slot. -/
def releaseRequest (cache : Cache) : Cache := { cache with requestTail := cache.requestTail + 1 }

def gaugePending (cache : Cache) : Cache :=
  cache.gaugeRequests (cache.requestHead - cache.requestTail)

/-- Copy `count` bytes of a page from the bus, from the byte `offset` on. -/
def copyBytes (bus : Nat → UInt8) (page : Nat) : Nat → Nat → (Nat → UInt8) → (Nat → UInt8)
  | 0, _, shadow => shadow
  | count + 1, offset, shadow =>
      copyBytes bus page count (offset + 1)
        (Function.update shadow (page * 256 + offset) (bus (page * 256 + offset)))

/-- The end of `paula_mirror_service`: publish the loaded page or give it up. -/
def finishLoad (cache : Cache) (page : Nat) (expected : UInt64) : Cache :=
  let cache := { cache with pagesReady := cache.pagesReady + 1 }
  if cache.pageMeta page = expected then
    let cache :=
      { cache with pageMeta := Function.update cache.pageMeta page (published expected) }.gaugeReady
    let seen := cache.pageMissSeen page
    let cache := { cache with pageMissSeen := Function.update cache.pageMissSeen page false }
    if seen then { cache with metrics := add cache.metrics ppCacheMissReady 1 } else cache
  else
    let cache := cache.countUnready.gaugeReady
    let cache := { cache with metrics := add cache.metrics ppCacheStale 1 }
    if tag (cache.pageMeta page) ≠ loading then cache
    else { cache with
      pageMeta := Function.update cache.pageMeta page (discarded (cache.pageMeta page)) }

/-- A queued page enters the loading state. -/
def claimPage (cache : Cache) (page : Nat) (old : UInt64) : Cache :=
  { cache with
    pageMeta := Function.update cache.pageMeta page (claimed old)
    metrics := flag cache.metrics ppFlagCacheWorker true }

def copyPage (bus : Nat → UInt8) (cache : Cache) (page : Nat) : Cache :=
  { cache with shadow := copyBytes bus page 256 0 cache.shadow }

/-- The page is copied: its request slot is released. -/
def endCopy (cache : Cache) : Cache :=
  let cache := cache.releaseRequest.gaugePending
  { cache with metrics := flag (add cache.metrics ppCacheFetches 1) ppFlagCacheWorker false }

/-- `paula_mirror_service`, with the bus as it answers `PHYSICAL_READ`. -/
def service (bus : Nat → UInt8) (cache : Cache) : Cache :=
  if !cache.servicePending then cache
  else
    let page := cache.frontRequest
    let old := cache.pageMeta page
    if tag old ≠ queued then cache.releaseRequest.gaugePending
    else (((cache.claimPage page old).copyPage bus page).endCopy).finishLoad page (claimed old)

end Cache

end Paulastorm.Mirror
