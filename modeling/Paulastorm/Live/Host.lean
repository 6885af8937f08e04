import Paulastorm.Live.Frame
import Paulastorm.Mirror.Calls

namespace Paulastorm.Live

/-! The live mirror on the sample cache.

Between two calls of CPU1 the other processor may do anything to the cache that
keeps its ready pages copies of a fixed Chip RAM: load pages, take them away,
post mixer words.
-/

open Paulastorm.Core Mirror Probe

/-- Every ready page is a copy of Chip RAM. -/
def Truthful (chip : Nat → UInt8) (cache : Cache) : Prop :=
  ∀ page, page < pageCount → cache.tagOf page = ready → ∀ offset, offset < 256 →
    cache.shadow (page * 256 + offset) = chip (page * 256 + offset)

/-- A step of CPU0 between two calls of CPU1. -/
structure Interference (chip : Nat → UInt8) where
  act : Cache → Cache
  truthful : ∀ cache, Truthful chip cache → Truthful chip (act cache)
  renderMiss : ∀ cache, (act cache).renderMiss = cache.renderMiss
  metrics : ∀ cache word, word ∉ sharedWords →
    get (act cache).metrics word = get cache.metrics word

/-- The cache, and what CPU0 does before each of the next calls. -/
structure Host (chip : Nat → UInt8) where
  cache : Cache
  upcoming : List (Interference chip)

variable {chip : Nat → UInt8}

/-- CPU0 takes its turn. -/
def Host.turn (host : Host chip) : Host chip :=
  match host.upcoming with
  | [] => host
  | interference :: rest => ⟨interference.act host.cache, rest⟩

/-- `paula_mirror.c` and `paula_probe.c`, as CPU1 calls them. -/
def livePort (chip : Nat → UInt8) : Port (Host chip) where
  readByte address host :=
    let host := host.turn
    let (byte, cache) := host.cache.readByte address
    (byte, { host with cache := cache })
  prefetch address length host :=
    let host := host.turn
    { host with cache := host.cache.prefetch address length }
  renderBegin host :=
    let host := host.turn
    { host with cache := host.cache.renderBegin }
  renderMissed host := host.cache.renderMiss
  metrics host := host.cache.metrics
  probe change host := { host with cache.metrics := change host.cache.metrics }

theorem requested_truthful {before after : Cache} (requested : Requested before after)
    (truthful : Truthful chip before) : Truthful chip after := by
  intro page inside present offset below
  rw [requested.shadow]
  exact truthful page inside ((requested.ready page).mp present) offset below

theorem withdrawn_truthful {before after : Cache} (withdrawn : Withdrawn before after)
    (truthful : Truthful chip before) : Truthful chip after := by
  intro page inside present offset below
  rw [withdrawn.shadow]
  exact truthful page inside (withdrawn.ready page present) offset below

/-- A load copies its page, and its page only. -/
theorem loads_truthful {page : Nat} {before after : Cache} (loads : Loads chip page before after)
    (truthful : Truthful chip before) : Truthful chip after := by
  intro other inside present offset below
  rw [loads.shadow, copyBytes_eq]
  by_cases here : other = page
  · subst here
    rw [if_pos (by omega)]
  · rw [if_neg (by omega)]
    refine truthful other inside ?_ offset below
    rw [Cache.tagOf, loads.pageMeta, Function.update_of_ne here] at present
    exact present

/-- One `paula_mirror_service`. -/
def Interference.service (chip : Nat → UInt8) : Interference chip where
  act := Cache.service chip
  truthful cache truthful := by
    by_cases busy : cache.servicePending = true ∧ cache.tagOf cache.frontRequest = queued
    · exact loads_truthful (service_loads busy.1 busy.2) truthful
    · exact withdrawn_truthful (service_withdrawn busy) truthful
  renderMiss cache := by
    by_cases busy : cache.servicePending = true ∧ cache.tagOf cache.frontRequest = queued
    · exact (service_loads busy.1 busy.2).renderMiss
    · exact (service_withdrawn busy).renderMiss
  metrics cache := by
    by_cases busy : cache.servicePending = true ∧ cache.tagOf cache.frontRequest = queued
    · exact (service_loads busy.1 busy.2).metrics
    · exact (service_withdrawn busy).metrics

/-- One `paula_mirror_invalidate`. -/
def Interference.invalidate (chip : Nat → UInt8) (address width : UInt32) : Interference chip where
  act := Cache.invalidate address width
  truthful cache := withdrawn_truthful (invalidate_withdrawn cache address width)
  renderMiss cache := (invalidate_withdrawn cache address width).renderMiss
  metrics cache := (invalidate_withdrawn cache address width).metrics

/-- The guest posts a word in the mixer mailbox. -/
def Interference.post (chip : Nat → UInt8) (word : UInt32) : Interference chip where
  act cache := { cache with metrics := Function.update cache.metrics pmRequest word }
  truthful _ := id
  renderMiss _ := rfl
  metrics cache other own := by
    have different : other ≠ pmRequest := fun same => own (same ▸ by decide)
    simp only [Probe.get, Function.update_of_ne different]

theorem Host.turn_truthful {host : Host chip} (truthful : Truthful chip host.cache) :
    Truthful chip host.turn.cache := by
  unfold Host.turn
  split
  · exact truthful
  · exact Interference.truthful _ _ truthful

theorem Host.turn_renderMiss (host : Host chip) :
    host.turn.cache.renderMiss = host.cache.renderMiss := by
  unfold Host.turn
  split
  · rfl
  · exact Interference.renderMiss _ _

theorem Host.turn_metrics (host : Host chip) {word : Nat} (own : word ∉ sharedWords) :
    get host.turn.cache.metrics word = get host.cache.metrics word := by
  unfold Host.turn
  split
  · rfl
  · exact Interference.metrics _ _ _ own


/-- The rest of the bank is CPU1's own. -/
theorem livePort_owns (chip : Nat → UInt8) : (livePort chip).Owns fun word => word ∉ sharedWords where
  metrics_probe _ _ := rfl
  missed_probe _ _ := rfl
  readByte address host word own :=
    ((readByte_requested host.turn.cache address).metrics word own).trans (host.turn_metrics own)
  prefetch address length host word own :=
    ((prefetch_requested host.turn.cache address length).metrics word own).trans
      (host.turn_metrics own)
  renderBegin host _ own := host.turn_metrics own

/-- A read that does not miss returns the byte of Chip RAM. -/
theorem livePort_readByte {host : Host chip} (truthful : Truthful chip host.cache)
    (address : UInt32) : ((livePort chip).readByte address host).2.cache.renderMiss = true ∨
      ((livePort chip).readByte address host).1 =
        if address < chipLimit then chip address.toNat else 0 := by
  by_cases below : address < chipLimit
  · by_cases present : host.turn.cache.tagOf (pageOf address) = ready
    · refine .inr ?_
      have inside := pageOf_lt below
      have copy := Host.turn_truthful truthful (pageOf address) inside present
        (address.toNat % 256) (Nat.mod_lt _ (by decide))
      have here : pageOf address * 256 + address.toNat % 256 = address.toNat := by
        rw [pageOf_eq]
        omega
      rw [here] at copy
      rw [if_pos below, ← copy]
      exact (readByte_ready below present).1
    · exact .inl (readByte_absent below present)
  · refine .inr ?_
    rw [if_neg below]
    have zero : host.turn.cache.readByte address = (0, _) := readByte_beyond below
    exact congrArg Prod.fst zero

theorem livePort_preserves (chip : Nat → UInt8) :
    (livePort chip).Preserves fun host => Truthful chip host.cache where
  readByte _ _ truthful :=
    requested_truthful (readByte_requested _ _) (Host.turn_truthful truthful)
  prefetch _ _ _ truthful :=
    requested_truthful (prefetch_requested _ _ _) (Host.turn_truthful truthful)
  renderBegin _ truthful := Host.turn_truthful truthful
  probe _ _ truthful := truthful

end Paulastorm.Live
