import Paulastorm.Mirror.PageCache.Service

namespace Paulastorm.Mirror.PageCache

/-! The counter of ready pages under every interleaving.

The worker reserves a count before it publishes, and the writer gives one up after
it has taken a ready page away, so the counter is the number of ready pages plus
what the two parties still owe.
-/

open Library

/-- Changing one member of a range changes the count by that member. -/
theorem countP_range_update {first second : Nat → Bool} {count index : Nat} (inside : index < count)
    (same : ∀ other, other ≠ index → first other = second other) :
    (List.range count).countP first + (second index).toNat =
      (List.range count).countP second + (first index).toNat := by
  induction count with
  | zero => exact absurd inside (Nat.not_lt_zero index)
  | succ count ih =>
      have single : ∀ members : Nat → Bool, [count].countP members = (members count).toNat := by
        intro members
        rw [List.countP_singleton]
        cases members count <;> rfl
      rw [List.range_succ, List.countP_append, List.countP_append, single, single]
      rcases Nat.lt_succ_iff_lt_or_eq.mp inside with below | rfl
      · rw [same count (Nat.ne_of_gt below)]
        have before := ih below
        omega
      · have below : (List.range index).countP first = (List.range index).countP second := by
          apply List.countP_congr
          intro other member
          rw [same other (Nat.ne_of_lt (List.mem_range.mp member))]
        omega

/-- The pages a reader finds ready. -/
def readyPages (cache : Cache) : Nat :=
  (List.range pageCount).countP fun page => cache.tagOf page == ready

/-- The worker has counted a page that it has not published. -/
def Worker.reserved : Worker → Nat
  | .publish _ _ | .unreserve _ _ => 1
  | _ => 0

/-- The writer has taken a page away that is still counted. -/
def Writer.owed : Writer → Nat
  | .unready _ _ => 1
  | _ => 0

/-- The writer is at a page of the cache. -/
def Writer.Inside : Writer → Prop
  | .idle => True
  | .load page last | .cas page last _ | .unready page last | .report page last =>
      page < pageCount ∧ last < pageCount

structure Accounted (state : State) : Prop where
  inside : state.writer.Inside
  total : state.cache.pagesReady.toNat =
    readyPages state.cache + state.worker.reserved + state.writer.owed

theorem readyPages_le (cache : Cache) : readyPages cache ≤ pageCount := by
  have bound := @List.countP_le_length _ (fun page => cache.tagOf page == ready)
    (List.range pageCount)
  rwa [List.length_range] at bound

theorem readyPages_congr {first second : Cache} (same : first.pageMeta = second.pageMeta) :
    readyPages first = readyPages second := by
  simp only [readyPages, Cache.tagOf, same]

/-- A page that changes its state changes the number of ready pages by itself. -/
theorem readyPages_update {first second : Cache} {page : Nat} {word : UInt64}
    (inside : page < pageCount)
    (stored : second.pageMeta = Function.update first.pageMeta page word) :
    readyPages second + (first.tagOf page == ready).toNat =
      readyPages first + (tag word == ready).toNat := by
  have changed := @countP_range_update (fun page => second.tagOf page == ready)
    (fun page => first.tagOf page == ready) pageCount page inside (by
      intro other different
      simp only [Cache.tagOf, stored, Function.update_of_ne different])
  have own : second.tagOf page = tag word := by
    rw [Cache.tagOf, stored, Function.update_self]
  simp only [own] at changed
  exact changed

/-- A page that is ready neither before nor after does not count. -/
theorem readyPages_update_of_not_ready {first second : Cache} {page : Nat} {word : UInt64}
    (inside : page < pageCount)
    (stored : second.pageMeta = Function.update first.pageMeta page word)
    (before : first.tagOf page ≠ ready) (after : tag word ≠ ready) :
    readyPages second = readyPages first := by
  have changed := readyPages_update inside stored
  rw [beq_false_of_ne before, beq_false_of_ne after] at changed
  exact Nat.add_right_cancel changed

variable {state next : State}

theorem start_accounted (cache : Cache) (chip : Nat → UInt8) : Accounted (start cache chip) where
  inside := trivial
  total := by
    have none : readyPages cache.enable = 0 := by
      apply List.countP_eq_zero.mpr
      intro page _
      exact (by decide : ¬(tag 0 == ready) = true)
    change 0 = readyPages cache.enable + 0 + 0
    rw [none]

/-- A step that moves no count. -/
theorem Accounted.shift (held : Accounted state)
    (pages : readyPages next.cache = readyPages state.cache)
    (counter : next.cache.pagesReady = state.cache.pagesReady)
    (worker : next.worker.reserved = state.worker.reserved) (writer : next.writer = state.writer) :
    Accounted next where
  inside := writer ▸ held.inside
  total := by
    rw [counter, pages, worker, writer]
    exact held.total

/-- A step that changes no page, either. -/
theorem Accounted.keep (held : Accounted state) (pages : next.cache.pageMeta = state.cache.pageMeta)
    (counter : next.cache.pagesReady = state.cache.pagesReady)
    (worker : next.worker.reserved = state.worker.reserved) (writer : next.writer = state.writer) :
    Accounted next :=
  held.shift (readyPages_congr pages) counter worker writer

theorem cpu1_accounted (inv : Requests state) (held : Accounted state)
    (moved : cpu1 state = some next) : Accounted next := by
  obtain ⟨cache, chip, party, worker, writer, history⟩ := state
  cases party with
  | casMeta page old after =>
      have inside : page < pageCount := inv.cpu1
      simp only [cpu1] at moved
      split at moved
      · cases moved
        exact held.keep rfl rfl rfl rfl
      next clear =>
        rw [ne_eq, not_not] at clear
        split at moved
        next same =>
          cases moved
          have before : cache.tagOf page = missing := (congrArg tag same).trans clear
          have kept := @readyPages_update_of_not_ready cache (cache.markRequested page) page
            (requested (cache.pageMeta page)) inside rfl (by rw [before]; decide)
            (by rw [tag_requested before]; decide)
          exact held.shift kept rfl rfl rfl
        next =>
          cases moved
          exact held.keep rfl rfl rfl rfl
  | idle => cases moved
  | check address =>
      simp only [cpu1] at moved
      split at moved <;> cases moved <;> exact held.keep rfl rfl rfl rfl
  | loadMeta page after =>
      simp only [cpu1] at moved
      split at moved <;> cases moved <;> exact held.keep rfl rfl rfl rfl
  | prefetch page last =>
      simp only [cpu1] at moved
      cases moved
      split <;> exact held.keep rfl rfl rfl rfl
  | _ =>
      cases moved
      exact held.keep rfl rfl rfl rfl

theorem worker_accounted (inv : Requests state) (held : Accounted state)
    (moved : worker state = some next) : Accounted next := by
  obtain ⟨cache, chip, party, position, writer, history⟩ := state
  have total : cache.pagesReady.toNat = readyPages cache + position.reserved + writer.owed :=
    held.total
  have pages := readyPages_le cache
  have owed : writer.owed ≤ 1 := by cases writer <;> simp [Writer.owed]
  have one : (1 : UInt32).toNat = 1 := rfl
  have size : pageCount = 8192 := rfl
  cases position with
  | claim page old =>
      obtain ⟨first, queue⟩ : history.queue.head? = some page ∧ tag old = queued := inv.worker
      have inside := inv.bounded page (List.mem_of_mem_head? first)
      simp only [worker] at moved
      rw [if_neg (not_not.mpr queue)] at moved
      split at moved <;> cases moved
      next same =>
        have before : cache.tagOf page = queued := (congrArg tag same).trans queue
        have kept := @readyPages_update_of_not_ready cache
          { cache with
            pageMeta := Function.update cache.pageMeta page (claimed old)
            metrics := Probe.flag cache.metrics Probe.ppFlagCacheWorker true }
          page (claimed old) inside rfl (by rw [before]; decide) (by rw [tag_claimed]; decide)
        exact held.shift kept rfl rfl rfl
      · exact held.keep rfl rfl rfl rfl
  | reserve page expected =>
      cases moved
      refine ⟨held.inside, ?_⟩
      change (cache.pagesReady + 1).toNat = readyPages cache + 1 + writer.owed
      change cache.pagesReady.toNat = readyPages cache + 0 + writer.owed at total
      rw [UInt32.toNat_add, one, Nat.mod_eq_of_lt (by omega)]
      omega
  | publish page expected =>
      obtain ⟨-, inside, busy⟩ := inv.worker
      simp only [worker] at moved
      split at moved <;> cases moved
      next same =>
        have before : cache.tagOf page = loading := (congrArg tag same).trans busy
        have more := @readyPages_update cache
          { cache with pageMeta := Function.update cache.pageMeta page (published expected) }
          page (published expected) inside rfl
        rw [before, tag_published busy, beq_self_eq_true,
          beq_false_of_ne (show loading ≠ ready by decide)] at more
        refine ⟨held.inside, ?_⟩
        change cache.pagesReady.toNat = readyPages _ + 0 + writer.owed
        change cache.pagesReady.toNat = readyPages cache + 1 + writer.owed at total
        change readyPages _ + 0 = readyPages cache + 1 at more
        rw [total, ← more]
      next => exact held.keep rfl rfl rfl rfl
  | unreserve page compare =>
      cases moved
      refine ⟨held.inside, ?_⟩
      change (cache.pagesReady - 1).toNat = readyPages cache + 0 + writer.owed
      change cache.pagesReady.toNat = readyPages cache + 1 + writer.owed at total
      rw [UInt32.toNat_sub_of_le _ _ (UInt32.le_iff_toNat_le.mpr (by omega)), one]
      omega
  | discard page compare =>
      obtain ⟨-, inside, busy⟩ := inv.worker
      simp only [worker] at moved
      rw [if_neg (not_not.mpr busy)] at moved
      split at moved <;> cases moved
      next same =>
        have before : cache.tagOf page = loading := (congrArg tag same).trans busy
        have kept := @readyPages_update_of_not_ready cache
          { cache with pageMeta := Function.update cache.pageMeta page (discarded compare) }
          page (discarded compare) inside rfl (by rw [before]; decide)
          (by rw [tag_discarded]; decide)
        exact held.shift kept rfl rfl rfl
      next => exact held.keep rfl rfl rfl rfl
  | idle => cases moved
  | copy page expected offset =>
      simp only [worker] at moved
      split at moved <;> cases moved <;> exact held.keep rfl rfl rfl rfl
  | announce page =>
      simp only [worker] at moved
      cases moved
      split <;> exact held.keep rfl rfl rfl rfl
  | _ =>
      cases moved
      exact held.keep rfl rfl rfl rfl

theorem Writer.next_inside {page last : Nat} (inside : last < pageCount) :
    (Writer.next page last).Inside ∧ (Writer.next page last).owed = 0 := by
  unfold Writer.next
  split
  next more => exact ⟨⟨by omega, inside⟩, rfl⟩
  next => exact ⟨trivial, rfl⟩

/-- The writer moves without touching the cache. -/
theorem Accounted.pass (held : Accounted state) (pages : next.cache.pageMeta = state.cache.pageMeta)
    (counter : next.cache.pagesReady = state.cache.pagesReady)
    (worker : next.worker = state.worker) (inside : next.writer.Inside)
    (owed : next.writer.owed = state.writer.owed) : Accounted next where
  inside := inside
  total := by
    rw [counter, readyPages_congr pages, worker, owed]
    exact held.total

theorem writer_accounted (held : Accounted state) (moved : writer state = some next) :
    Accounted next := by
  obtain ⟨cache, chip, party, worker, position, history⟩ := state
  have total : cache.pagesReady.toNat = readyPages cache + worker.reserved + position.owed :=
    held.total
  cases position with
  | idle => cases moved
  | load page last =>
      obtain ⟨pageInside, lastInside⟩ := held.inside
      cases moved
      by_cases clear : tag (cache.pageMeta page) = missing
      · have after := @Writer.next_inside page last lastInside
        exact held.pass rfl rfl rfl (by rw [if_pos clear]; exact after.1)
          (by rw [if_pos clear]; exact after.2)
      · exact held.pass rfl rfl rfl (by rw [if_neg clear]; exact ⟨pageInside, lastInside⟩)
          (by rw [if_neg clear]; rfl)
  | cas page last old =>
      obtain ⟨pageInside, lastInside⟩ := held.inside
      have after := @Writer.next_inside page last lastInside
      simp only [writer] at moved
      split at moved
      next same =>
        cases moved
        have changed := @readyPages_update cache
          { cache with pageMeta := Function.update cache.pageMeta page (invalidated old) }
          page (invalidated old) pageInside rfl
        have before : cache.tagOf page = tag old := congrArg tag same
        rw [before, beq_false_of_ne (tag_invalidated_ne_ready old)] at changed
        by_cases present : tag old = ready
        · rw [present, beq_self_eq_true] at changed
          refine ⟨by rw [if_pos present]; exact ⟨pageInside, lastInside⟩, ?_⟩
          change cache.pagesReady.toNat = readyPages
            { cache with pageMeta := Function.update cache.pageMeta page (invalidated old) } +
              worker.reserved +
                (if tag old = ready then Writer.unready page last else .next page last).owed
          change cache.pagesReady.toNat = readyPages cache + worker.reserved + 0 at total
          change readyPages _ + 1 = readyPages cache + 0 at changed
          rw [if_pos present, total]
          change _ = _ + _ + 1
          omega
        · rw [beq_false_of_ne present] at changed
          refine ⟨by rw [if_neg present]; exact after.1, ?_⟩
          change cache.pagesReady.toNat = readyPages
            { cache with pageMeta := Function.update cache.pageMeta page (invalidated old) } +
              worker.reserved +
                (if tag old = ready then Writer.unready page last else .next page last).owed
          change readyPages _ + 0 = readyPages cache + 0 at changed
          change cache.pagesReady.toNat = readyPages cache + worker.reserved + 0 at total
          rw [if_neg present, after.2, total]
          omega
      · split at moved <;> cases moved
        · exact held.pass rfl rfl rfl after.1 after.2
        · exact held.pass rfl rfl rfl ⟨pageInside, lastInside⟩ rfl
  | unready page last =>
      cases moved
      have one : (1 : UInt32).toNat = 1 := rfl
      refine ⟨held.inside, ?_⟩
      change (cache.pagesReady - 1).toNat = readyPages cache + worker.reserved + 0
      change cache.pagesReady.toNat = readyPages cache + worker.reserved + 1 at total
      rw [UInt32.toNat_sub_of_le _ _ (UInt32.le_iff_toNat_le.mpr (by omega)), one]
      omega
  | report page last =>
      obtain ⟨pageInside, lastInside⟩ := held.inside
      have after := @Writer.next_inside page last lastInside
      cases moved
      exact held.pass rfl rfl rfl after.1 after.2

theorem step_accounted {label : Label} (inv : Requests state) (held : Accounted state)
    (stepped : step label state = some next) : Accounted next := by
  cases label with
  | cpu1 => exact cpu1_accounted inv held stepped
  | worker => exact worker_accounted inv held stepped
  | writer => exact writer_accounted held stepped
  | service =>
      obtain ⟨cache, chip, party, worker, writer, history⟩ := state
      cases worker with
      | idle =>
          simp only [step, service] at stepped
          split at stepped <;> cases stepped <;> exact held.keep rfl rfl rfl rfl
      | _ => cases stepped
  | write bus =>
      obtain ⟨cache, chip, party, worker, writer, history⟩ := state
      cases writer with
      | idle =>
          simp only [step, write] at stepped
          split at stepped <;> cases stepped
          by_cases touched : (cache.enabled && bus.address < chipLimit) = true
          · have below : bus.address < chipLimit := by
              rw [Bool.and_eq_true, decide_eq_true_eq] at touched
              exact touched.2
            refine held.pass rfl rfl rfl ?_ ?_
            · rw [if_pos touched]
              refine ⟨pageOf_lt below, ?_⟩
              exact (Nat.min_le_right _ _).trans_lt (by decide)
            · rw [if_pos touched]
              rfl
          · exact held.pass rfl rfl rfl (by rw [if_neg touched]; exact trivial)
              (by rw [if_neg touched])
      | _ => cases stepped
  | _ =>
      obtain ⟨cache, chip, party, worker, writer, history⟩ := state
      cases party with
      | idle =>
          first
            | (cases stepped; exact held.keep rfl rfl rfl rfl)
            | (simp only [step, read] at stepped
               split at stepped <;> cases stepped <;> exact held.keep rfl rfl rfl rfl)
            | (simp only [step, prefetch] at stepped
               split at stepped <;> cases stepped <;> exact held.keep rfl rfl rfl rfl)
      | _ => cases stepped

/-- The counter covers the ready pages, and is exact when both parties are idle. -/
structure Accurate (state : State) : Prop where
  covers : readyPages state.cache ≤ state.cache.pagesReady.toNat
  /-- A count is given up only where there is one. -/
  noUnderflow : (∃ page compare, state.worker = .unreserve page compare) ∨
    (∃ page last, state.writer = .unready page last) → 0 < state.cache.pagesReady.toNat
  atRest : state.worker = .idle → state.writer = .idle →
    state.cache.pagesReady.toNat = readyPages state.cache

theorem Accounted.accurate (held : Accounted state) : Accurate state where
  covers := by
    rw [held.total]
    omega
  noUnderflow := by
    have total := held.total
    rintro (⟨page, compare, worker⟩ | ⟨page, last, writer⟩)
    · have one : state.worker.reserved = 1 := by rw [worker, Worker.reserved]
      omega
    · have one : state.writer.owed = 1 := by rw [writer, Writer.owed]
      omega
  atRest := by
    intro worker writer
    have none : state.worker.reserved = 0 := by
      rw [worker]
      rfl
    have nothing : state.writer.owed = 0 := by
      rw [writer]
      rfl
    have total := held.total
    omega

/-- Over every interleaving of requests, services and invalidations, the counter of
ready pages is never below their number, never underflows, and is their number
whenever neither a service nor an invalidation is in progress. -/
theorem ready_pages_accurate {cache : Cache} {chip : Nat → UInt8} {labels : List Label}
    {state : State} (run : machine.Runs Machine.anyStep (start cache chip) labels state) :
    Accurate state := by
  have preserved : ∀ label before after, Machine.anyStep label before →
      machine.step label before = some after → Requests before ∧ Accounted before →
        Requests after ∧ Accounted after :=
    fun _ _ _ _ stepped held => ⟨step_requests held.1 stepped, step_accounted held.1 held.2 stepped⟩
  exact (run.invariant preserved
    ⟨start_requests cache chip, start_accounted cache chip⟩).2.accurate

/-- Page 0 is published and taken away by a write before the worker reports it. -/
def publishedThenInvalidated : List Label :=
  .request 0 :: List.replicate 6 .cpu1 ++ .service :: List.replicate 519 .worker ++
    .write ⟨0, 1, 7⟩ :: List.replicate 2 .writer

set_option maxRecDepth 20000 in
theorem ready_pages_accurate_of_publishedThenInvalidated : ∃ state,
    machine.Runs Machine.anyStep (start sampleCache fun _ => 0) publishedThenInvalidated state ∧
    (state.cache.pagesReady, state.cache.tagOf 0) = (1, missing) ∧ Accurate state := by
  have executed : (machine.run Machine.anyStep publishedThenInvalidated
      (start sampleCache fun _ => 0)).map
        (fun state => (state.cache.pagesReady, state.cache.tagOf 0)) = some (1, missing) := rfl
  obtain ⟨state, run, counts⟩ := Machine.runs_of_observed executed
  exact ⟨state, run, counts, ready_pages_accurate run⟩

end Paulastorm.Mirror.PageCache
