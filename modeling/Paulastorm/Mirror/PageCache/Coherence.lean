import Paulastorm.Mirror.PageCache.Freshness
import Paulastorm.Mirror.PageCache.Service

namespace Paulastorm.Mirror.PageCache

/-! What a reader of the cache may rely on, over every run.

The bound on the invalidations of one load is sharp: after `2 ^ 62` of them the
generation is the one the load started from.
-/

open Library

variable {state : State}

/-- What a reader of the cache may rely on. -/
structure Coherence (state : State) : Prop where
  /-- A ready page is a copy of Chip RAM once every write has invalidated it. -/
  pages : ∀ page, page < pageCount → state.cache.tagOf page = ready →
    state.writer.pending page = false → ∀ offset, offset < 256 →
      state.cache.shadow (page * 256 + offset) = state.chip (page * 256 + offset)
  /-- A read that does not miss returns the byte at its ready check, or the one
  before a write that had still to invalidate the page. -/
  reads : ∀ read ∈ state.history.reads, read.address < chipLimit → read.missed = false →
    read.byte = read.check.now ∨ (read.check.pending = true ∧ read.byte = read.check.old)

theorem Coherent.coherence (held : Coherent state) : Coherence state where
  pages := by
    intro page inside present settled offset below
    rcases held.fresh page inside present offset below with now | ⟨pending, _⟩
    · exact now
    · rw [page_of_offset below, settled] at pending
      cases pending
  reads := held.reads

/-- Over every interleaving of reads, requests, bus writes, invalidations and
services in which no single load meets `2 ^ 62` invalidations, ready pages show
Chip RAM. -/
theorem ready_pages_coherent {cache : Cache} {chip : Nat → UInt8} {labels : List Label}
    {state : State} (run : machine.Runs loadsBounded (start cache chip) labels state) :
    Coherence state := by
  have preserved : ∀ label before after, loadsBounded label before →
      machine.step label before = some after → Requests before ∧ Coherent before →
        Requests after ∧ Coherent after :=
    fun _ _ _ permitted stepped held =>
      ⟨step_requests held.1 stepped, step_coherent held.1 held.2 permitted stepped⟩
  exact (run.invariant preserved ⟨start_requests cache chip, start_coherent cache chip⟩).2.coherence

/-- Page 0 is loaded while a write hits it, is discarded, loaded again and read. -/
def supersededLoad : List Label :=
  .request 0 :: List.replicate 6 .cpu1 ++ .service :: List.replicate 7 .worker ++
    [.write ⟨0, 1, 7⟩, .writer, .writer] ++ List.replicate 515 .worker ++
    .request 0 :: List.replicate 6 .cpu1 ++ .service :: List.replicate 520 .worker ++
    .read 0 :: List.replicate 2 .cpu1

set_option maxRecDepth 20000 in
theorem ready_pages_coherent_of_supersededLoad : ∃ state,
    machine.Runs loadsBounded (start sampleCache fun _ => 0) supersededLoad state ∧
    (state.history.served, state.history.reads.map Read.byte) = ([0, 0], [7]) ∧
    Coherence state := by
  have executed : (machine.run loadsBounded supersededLoad (start sampleCache fun _ => 0)).map
      (fun state => (state.history.served, state.history.reads.map Read.byte)) =
        some ([0, 0], [7]) := by rfl
  obtain ⟨state, run, seen⟩ := Machine.runs_of_observed executed
  exact ⟨state, run, seen, ready_pages_coherent run⟩

/-- Page 0 is copied while it is all zero, and is about to be published. -/
def zeroLoad : List Label :=
  .request 0 :: List.replicate 6 .cpu1 ++ .service :: List.replicate 518 .worker

/-- The load of page 0 has met `count` writes of its first byte. -/
structure Superseded (count : Nat) (state : State) : Prop where
  enabled : state.cache.enabled = true
  worker : state.worker = .publish 0 2
  writer : state.writer = .idle
  loading : state.cache.tagOf 0 = loading
  generation : generation (state.cache.pageMeta 0) = count % 2 ^ 62
  shadow : state.cache.shadow 0 = 0
  chip : 0 < count → state.chip 0 = 1

set_option maxRecDepth 20000 in
theorem superseded_zero : ∃ state,
    machine.Runs Machine.anyStep (start sampleCache fun _ => 0) zeroLoad state ∧
      Superseded 0 state := by
  have executed : (machine.run Machine.anyStep zeroLoad (start sampleCache fun _ => 0)).map
      (fun state => (state.cache.enabled, state.worker, state.writer, state.cache.pageMeta 0,
        state.cache.shadow 0)) = some (true, .publish 0 2, .idle, 2, 0) := by rfl
  obtain ⟨state, run, seen⟩ := Machine.runs_of_observed executed
  simp only [Prod.mk.injEq] at seen
  obtain ⟨enabled, worker, writer, word, shadow⟩ := seen
  exact ⟨state, run, {
    enabled := enabled
    worker := worker
    writer := writer
    loading := by
      rw [Cache.tagOf, word]
      rfl
    generation := by
      rw [word]
      rfl
    shadow := shadow
    chip := nofun }⟩

/-- One more write changes nothing that the load looks at but the generation. -/
theorem superseded_succ {count : Nat} (held : Superseded count state) : ∃ next,
    machine.Runs Machine.anyStep state [.write ⟨0, 1, 1⟩, .writer, .writer] next ∧
      Superseded (count + 1) next := by
  obtain ⟨cache, chip, party, worker, position, history⟩ := state
  obtain ⟨enabled, rfl, rfl, busy, met, shadow, _⟩ := held
  have notReady : tag (cache.pageMeta 0) ≠ ready :=
    fun three => absurd (busy.symm.trans three) (by decide)
  have notMissing : tag (cache.pageMeta 0) ≠ missing :=
    fun zero => absurd (busy.symm.trans zero) (by decide)
  have written : write ⟨0, 1, 1⟩ ⟨cache, chip, party, .publish 0 2, .idle, history⟩ =
      some ⟨cache, Function.update chip 0 1, party, .publish 0 2, .load 0 0,
        { history with before := chip }⟩ := by
    have on : cache.enabled = true := enabled
    simp only [write, on]
    rfl
  have loaded : ∀ history, PageCache.writer ⟨cache, Function.update chip 0 1, party, .publish 0 2,
      .load 0 0, history⟩ = some ⟨{ cache with
        metrics := Probe.add cache.metrics Probe.ppCacheInvalidations 1 },
        Function.update chip 0 1, party, .publish 0 2, .cas 0 0 (cache.pageMeta 0), history⟩ := by
    intro history
    simp only [PageCache.writer, if_neg notMissing]
  have swapped : ∀ metrics history, PageCache.writer ⟨{ cache with metrics := metrics },
      Function.update chip 0 1, party, .publish 0 2, .cas 0 0 (cache.pageMeta 0), history⟩ =
        some ⟨{ cache with
          metrics := metrics
          pageMeta := Function.update cache.pageMeta 0 (invalidated (cache.pageMeta 0)) },
          Function.update chip 0 1, party, .publish 0 2, .idle,
          { history with bumps := history.bumps + 1 }⟩ := by
    intro metrics history
    simp only [PageCache.writer, if_pos, if_neg notReady]
    rfl
  refine ⟨_, .step trivial written (.step trivial (loaded _) (.step trivial (swapped _ _)
    (.refl _))), {
      enabled := enabled
      worker := rfl
      writer := rfl
      loading := ?_
      generation := ?_
      shadow := shadow
      chip := fun _ => rfl }⟩
  · change tag ((Function.update _ _ _ : Nat → UInt64) _) = _
    rw [Function.update_self]
    exact tag_invalidated_eq_loading.mpr busy
  · change generation ((Function.update _ _ _ : Nat → UInt64) _) = _
    rw [Function.update_self, generation_invalidated]
    have before : generation (cache.pageMeta 0) = count % 2 ^ 62 := met
    omega

/-- After `2 ^ 62` writes the generation is back where the load started, and the
load publishes its old bytes. -/
theorem not_always_coherent : ¬ ∀ cache chip labels state,
    machine.Runs Machine.anyStep (start cache chip) labels state → Coherence state := by
  intro always
  have cycles : ∀ count, ∃ labels state,
      machine.Runs Machine.anyStep (start sampleCache fun _ => 0) labels state ∧
        Superseded count state := by
    intro count
    induction count with
    | zero =>
        obtain ⟨state, run, held⟩ := superseded_zero
        exact ⟨zeroLoad, state, run, held⟩
    | succ count ih =>
        obtain ⟨labels, state, run, held⟩ := ih
        obtain ⟨next, more, held⟩ := superseded_succ held
        exact ⟨_, next, run.append more, held⟩
  obtain ⟨labels, state, run, held⟩ := cycles (2 ^ 62)
  have word : state.cache.pageMeta 0 = 2 :=
    word_ext held.loading (held.generation.trans (Nat.mod_self _))
  obtain ⟨cache, chip, party, worker, position, history⟩ := state
  obtain ⟨enabled, rfl, rfl, _, _, shadow, written⟩ := held
  have stale : machine.step .worker ⟨cache, chip, party, .publish 0 2, .idle, history⟩ =
      some ⟨{ cache with pageMeta := Function.update cache.pageMeta 0 (published 2) },
        chip, party, .announce 0, .idle, { history with served := history.served ++ [0] }⟩ :=
    if_pos word
  have coherent := always _ _ _ _ (run.append (.step trivial stale (.refl _)))
  have present : tag ((Function.update cache.pageMeta 0 (Mirror.published 2) :
      Nat → UInt64) 0) = ready := by
    rw [Function.update_self]
    decide
  have same := coherent.pages 0 (by decide) present rfl 0 (by decide)
  exact absurd (shadow.symm.trans (same.trans (written (by decide)))) (by decide)

end Paulastorm.Mirror.PageCache
