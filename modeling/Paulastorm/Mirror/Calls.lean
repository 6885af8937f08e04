import Paulastorm.Mirror.Cache

namespace Paulastorm.Mirror

/-! What one call does to the sample cache. -/

open Library Probe

/-- The words of the bank that the mirror module or the guest may write. -/
def sharedWords : List Nat :=
  [ppFlags, ppCaptured, ppDropped, ppConsumed, ppPending, ppLastAddr, ppLastValue, ppLastTicksLo,
    ppLastTicksHi, ppCacheMisses, ppCacheReady, ppCachePending, ppCacheFetches,
    ppCacheInvalidations, ppCacheInvalidAddr, ppSampleReads, ppCacheRequests, ppCaptureLockDrops,
    ppCaptureFullDrops, ppCacheStale, ppCacheZeroReturns, ppCacheMissReady, ppCachePrefetchPages,
    pmRequest]

theorem get_add_shared {metrics : Metrics} {word : Nat} (own : word ∉ sharedWords) (index : Nat)
    (shared : index ∈ sharedWords) (value : UInt32) :
    get (add metrics index value) word = get metrics word :=
  get_add_of_ne fun same => own (same ▸ shared)

theorem get_set_shared {metrics : Metrics} {word : Nat} (own : word ∉ sharedWords) (index : Nat)
    (shared : index ∈ sharedWords) (value : UInt32) :
    get (set metrics index value) word = get metrics word :=
  get_set_of_ne fun same => own (same ▸ shared)

/-- What a call of CPU1 leaves of the cache: it requests pages and counts. -/
structure Requested (before after : Cache) : Prop where
  shadow : after.shadow = before.shadow
  ready : ∀ page, after.tagOf page = ready ↔ before.tagOf page = ready
  missed : before.renderMiss = true → after.renderMiss = true
  metrics : ∀ word, word ∉ sharedWords → get after.metrics word = get before.metrics word

theorem Requested.refl (cache : Cache) : Requested cache cache :=
  ⟨rfl, fun _ => Iff.rfl, id, fun _ _ => rfl⟩

theorem Requested.trans {first second third : Cache} (early : Requested first second)
    (late : Requested second third) : Requested first third where
  shadow := late.shadow.trans early.shadow
  ready page := (late.ready page).trans (early.ready page)
  missed := fun miss => late.missed (early.missed miss)
  metrics word own := (late.metrics word own).trans (early.metrics word own)

theorem requestPage_requested (cache : Cache) (page : Nat) :
    Requested cache (cache.requestPage page) := by
  unfold Cache.requestPage
  split_ifs with outside present
  · exact .refl cache
  · exact .refl cache
  · refine ⟨rfl, fun other => ?_, id, fun word own => ?_⟩
    · change tag ((Function.update _ _ _ : Nat → UInt64) other) = _ ↔ _
      by_cases here : other = page
      · subst here
        rw [Function.update_self, tag_requested (not_not.mp present), not_not.mp present]
        decide
      · rw [Function.update_of_ne here]
        exact Iff.rfl
    · exact (get_set_shared own ppCachePending (by decide) _).trans
        (get_add_shared own ppCacheRequests (by decide) 1)

theorem prefetch_requested (cache : Cache) (address length : UInt32) :
    Requested cache (cache.prefetch address length) := by
  have pages : ∀ (pages : List Nat) (cache : Cache),
      Requested cache (pages.foldl Cache.prefetchPage cache) := by
    intro pages
    induction pages with
    | nil => exact Requested.refl
    | cons page rest ih =>
        intro cache
        refine .trans ?_ (ih _)
        unfold Cache.prefetchPage
        refine .trans ?_ (requestPage_requested _ page)
        split
        · exact ⟨rfl, fun _ => Iff.rfl, id,
            fun word own => get_add_shared own ppCachePrefetchPages (by decide) 1⟩
        · exact .refl cache
  unfold Cache.prefetch
  split
  · exact .refl cache
  · exact pages _ _

theorem readByte_requested (cache : Cache) (address : UInt32) :
    Requested cache (cache.readByte address).2 := by
  have counted : Requested cache cache.countRead :=
    ⟨rfl, fun _ => Iff.rfl, id, fun word own => get_add_shared own ppSampleReads (by decide) 1⟩
  have missed : ∀ cache : Cache, Requested cache cache.countMiss :=
    fun cache => ⟨rfl, fun _ => Iff.rfl, id, fun word own =>
      (get_add_shared own ppCacheZeroReturns (by decide) 1).trans
        (get_add_shared own ppCacheMisses (by decide) 1)⟩
  have noted : ∀ (cache : Cache) page, Requested cache (cache.noteMiss page) :=
    fun cache page => ⟨rfl, fun _ => Iff.rfl, fun _ => rfl, fun _ _ => rfl⟩
  simp only [Cache.readByte]
  split_ifs
  · exact counted.trans ⟨rfl, fun _ => Iff.rfl, id,
      fun word own => get_add_shared own ppCacheInvalidAddr (by decide) 1⟩
  · exact ((counted.trans (noted _ _)).trans (requestPage_requested _ _)).trans (missed _)
  · exact counted.trans (requestPage_requested _ _)
  · exact counted

theorem requestPage_renderMiss (cache : Cache) (page : Nat) :
    (cache.requestPage page).renderMiss = cache.renderMiss := by
  unfold Cache.requestPage
  split_ifs <;> rfl

/-- A read past the limit returns zero and does not miss. -/
theorem readByte_beyond {cache : Cache} {address : UInt32} (beyond : ¬ address < chipLimit) :
    cache.readByte address = (0, cache.countRead.refuseAddress) :=
  if_pos (UInt32.not_lt.mp beyond)

/-- A read of a ready page returns its copy and does not miss. -/
theorem readByte_ready {cache : Cache} {address : UInt32} (below : address < chipLimit)
    (ready : cache.tagOf (pageOf address) = ready) :
    (cache.readByte address).1 = cache.shadow address.toNat ∧
      (cache.readByte address).2.renderMiss = cache.renderMiss := by
  have present : ¬ cache.countRead.tagOf (pageOf address) ≠ Mirror.ready := not_not.mpr ready
  simp only [Cache.readByte, if_neg (UInt32.not_le.mpr below), if_neg present]
  split_ifs
  · exact ⟨congrFun (requestPage_requested _ _).shadow _, requestPage_renderMiss _ _⟩
  · exact ⟨rfl, rfl⟩

/-- A read of any other page misses. -/
theorem readByte_absent {cache : Cache} {address : UInt32} (below : address < chipLimit)
    (absent : cache.tagOf (pageOf address) ≠ ready) :
    (cache.readByte address).2.renderMiss = true := by
  have missing : cache.countRead.tagOf (pageOf address) ≠ Mirror.ready := absent
  simp only [Cache.readByte, if_neg (UInt32.not_le.mpr below), if_pos missing]
  exact requestPage_renderMiss _ _

/-- A read that misses returns zero. -/
theorem readByte_absent_zero {cache : Cache} {address : UInt32} (below : address < chipLimit)
    (absent : cache.tagOf (pageOf address) ≠ ready) : (cache.readByte address).1 = 0 := by
  have missing : cache.countRead.tagOf (pageOf address) ≠ Mirror.ready := absent
  simp only [Cache.readByte, if_neg (UInt32.not_le.mpr below), if_pos missing]

/-- A step that makes no page ready and copies nothing. -/
structure Withdrawn (before after : Cache) : Prop where
  shadow : after.shadow = before.shadow
  ready : ∀ page, after.tagOf page = ready → before.tagOf page = ready
  renderMiss : after.renderMiss = before.renderMiss
  metrics : ∀ word, word ∉ sharedWords → get after.metrics word = get before.metrics word

theorem Withdrawn.refl (cache : Cache) : Withdrawn cache cache :=
  ⟨rfl, fun _ => id, rfl, fun _ _ => rfl⟩

theorem Withdrawn.trans {first second third : Cache} (early : Withdrawn first second)
    (late : Withdrawn second third) : Withdrawn first third where
  shadow := late.shadow.trans early.shadow
  ready page present := early.ready page (late.ready page present)
  renderMiss := late.renderMiss.trans early.renderMiss
  metrics word own := (late.metrics word own).trans (early.metrics word own)

/-- Storing a word that is not ready withdraws the page. -/
theorem withdrawn_update (cache : Cache) (page : Nat) {word : UInt64} (notReady : tag word ≠ ready) :
    Withdrawn cache { cache with pageMeta := Function.update cache.pageMeta page word } where
  shadow := rfl
  ready other present := by
    change tag ((Function.update _ _ _ : Nat → UInt64) other) = _ at present
    by_cases here : other = page
    · subst here
      rw [Function.update_self] at present
      exact absurd present notReady
    · rwa [Function.update_of_ne here] at present
  renderMiss := rfl
  metrics _ _ := rfl

theorem withdrawn_countUnready (cache : Cache) : Withdrawn cache cache.countUnready.gaugeReady :=
  ⟨rfl, fun _ => id, rfl, fun _ own => get_set_shared own ppCacheReady (by decide) _⟩

theorem invalidate_withdrawn (cache : Cache) (address width : UInt32) :
    Withdrawn cache (cache.invalidate address width) := by
  have pages : ∀ (pages : List Nat) (cache : Cache),
      Withdrawn cache (pages.foldl Cache.invalidatePage cache) := by
    intro pages
    induction pages with
    | nil => exact Withdrawn.refl
    | cons page rest ih =>
        intro cache
        refine .trans ?_ (ih _)
        have counted : Withdrawn cache
            { cache with metrics := add cache.metrics ppCacheInvalidations 1 } :=
          ⟨rfl, fun _ => id, rfl, fun _ own => get_add_shared own ppCacheInvalidations (by decide) 1⟩
        have stored := counted.trans
          (withdrawn_update _ page (tag_invalidated_ne_ready (cache.pageMeta page)))
        simp only [Cache.invalidatePage]
        split_ifs
        · exact counted
        · exact stored.trans (withdrawn_countUnready _)
        · exact stored
  unfold Cache.invalidate
  simp only
  split
  · exact .refl cache
  · exact pages _ _

theorem copyBytes_eq (bus : Nat → UInt8) (page count offset : Nat) (shadow : Nat → UInt8)
    (address : Nat) : Cache.copyBytes bus page count offset shadow address =
      if page * 256 + offset ≤ address ∧ address < page * 256 + offset + count then bus address
      else shadow address := by
  induction count generalizing offset shadow with
  | zero => rw [Cache.copyBytes, if_neg (by omega)]
  | succ count ih =>
      rw [Cache.copyBytes, ih]
      by_cases here : address = page * 256 + offset
      · subst here
        rw [if_neg (by omega), if_pos (by omega), Function.update_self]
      · rw [Function.update_of_ne here]
        split_ifs <;> first | rfl | omega

/-- The effect of a service that loads a page. -/
structure Loads (bus : Nat → UInt8) (page : Nat) (before after : Cache) : Prop where
  pageMeta : after.pageMeta =
    Function.update before.pageMeta page (published (claimed (before.pageMeta page)))
  shadow : after.shadow = Cache.copyBytes bus page 256 0 before.shadow
  renderMiss : after.renderMiss = before.renderMiss
  metrics : ∀ word, word ∉ sharedWords → get after.metrics word = get before.metrics word

/-- An undisturbed load is published. -/
theorem finishLoad_publishes {cache : Cache} {page : Nat} {expected : UInt64}
    (kept : cache.pageMeta page = expected) :
    (cache.finishLoad page expected).pageMeta =
        Function.update cache.pageMeta page (published expected) ∧
      (cache.finishLoad page expected).shadow = cache.shadow ∧
      (cache.finishLoad page expected).renderMiss = cache.renderMiss ∧
      ∀ word, word ∉ sharedWords →
        get (cache.finishLoad page expected).metrics word = get cache.metrics word := by
  have gauged : ∀ (metrics : Metrics) (count : UInt32) word, word ∉ sharedWords →
      get (set metrics ppCacheReady count) word = get metrics word :=
    fun _ _ _ own => get_set_shared own ppCacheReady (by decide) _
  simp only [Cache.finishLoad, if_pos kept]
  split_ifs
  · exact ⟨rfl, rfl, rfl, fun word own =>
      (get_add_shared own ppCacheMissReady (by decide) 1).trans (gauged _ _ word own)⟩
  · exact ⟨rfl, rfl, rfl, fun word own => gauged _ _ word own⟩

theorem get_flag_shared {metrics : Metrics} {word : Nat} (own : word ∉ sharedWords) (mask : UInt32)
    (enabled : Bool) : get (flag metrics mask enabled) word = get metrics word :=
  get_flag_of_ne fun same => own (same ▸ by decide)

theorem get_endCopy (cache : Cache) {word : Nat} (own : word ∉ sharedWords) :
    get cache.endCopy.metrics word = get cache.metrics word := by
  simp only [Cache.endCopy, Cache.gaugePending, Cache.gaugeRequests, Cache.releaseRequest]
  rw [get_flag_shared own, get_add_shared own ppCacheFetches (by decide),
    get_set_shared own ppCachePending (by decide)]

/-- A service takes the front page into the ready state with the bytes of the bus. -/
theorem service_loads {bus : Nat → UInt8} {cache : Cache} (pending : cache.servicePending = true)
    (waiting : cache.tagOf cache.frontRequest = queued) :
    Loads bus cache.frontRequest cache (cache.service bus) := by
  have busy : ¬ (!cache.servicePending) = true := by rw [pending]; decide
  have one : ¬ tag (cache.pageMeta cache.frontRequest) ≠ queued := not_not.mpr waiting
  simp only [Cache.service, if_neg busy, if_neg one]
  generalize cache.frontRequest = page
  have pageMeta : ∀ cache : Cache, cache.endCopy.pageMeta = cache.pageMeta := fun _ => rfl
  have shadow : ∀ cache : Cache, cache.endCopy.shadow = cache.shadow := fun _ => rfl
  have kept : ((cache.claimPage page (cache.pageMeta page)).copyPage bus page).endCopy.pageMeta
      page = claimed (cache.pageMeta page) := Function.update_self _ _ _
  obtain ⟨published, copied, renderMiss, metrics⟩ := finishLoad_publishes kept
  refine ⟨?_, ?_, renderMiss, ?_⟩
  · rw [published, pageMeta]
    exact Function.update_idem _ _ _
  · rw [copied, shadow]
    simp only [Cache.copyPage, Cache.claimPage]
  · intro word own
    rw [metrics word own, get_endCopy _ own]
    simp only [Cache.copyPage, Cache.claimPage]
    exact get_flag_shared own _ _

/-- A service that finds nothing to load changes no page. -/
theorem service_withdrawn {bus : Nat → UInt8} {cache : Cache}
    (nothing : ¬ (cache.servicePending = true ∧ cache.tagOf cache.frontRequest = queued)) :
    Withdrawn cache (cache.service bus) := by
  simp only [Cache.service]
  split_ifs with idle absent
  · exact .refl cache
  · exact ⟨rfl, fun _ => id, rfl, fun _ own => get_set_shared own ppCachePending (by decide) _⟩
  · refine absurd ⟨?_, not_not.mp absent⟩ nothing
    simpa using idle

end Paulastorm.Mirror
