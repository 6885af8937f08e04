import Paulastorm.Mirror.PageCache
import Mathlib.Data.List.Perm.Subperm

namespace Paulastorm.Mirror.PageCache

/-! The request queue under every interleaving: no page is stranded, queued
twice or overwritten. -/

open Library

/-- The page that a slot of the queue names. -/
def pageIn (cache : Cache) (slot : Nat) : Nat := (cache.requests slot).toNat

/-- The page that CPU1 has marked but not yet published. -/
def Cpu1.pending : Cpu1 → Option Nat
  | .fillSlot page _ | .publish page _ => some page
  | _ => none

/-- What CPU1's local values say about the cache. -/
def Cpu1Holds (cache : Cache) : Cpu1 → Prop
  | .casMeta page _ _ => page < pageCount
  | .publish page _ => pageIn cache (Ring.slot requestCapacity cache.requestHead) = page
  | _ => True

/-- What the worker's local values say about the queue. -/
def WorkerHolds (queue : List Nat) : Worker → Prop
  | .idle | .announce _ => True
  | .loadMeta page => queue.head? = some page
  | .claim page old => queue.head? = some page ∧ tag old = queued
  | .skipped => False
  | .copy page expected _ | .store page expected _ _ =>
      queue.head? = some page ∧ tag expected = loading
  | .loadHead page expected | .gauge page expected _ | .reserve page expected
  | .publish page expected | .unreserve page expected | .report page expected
  | .discard page expected => page ∉ queue ∧ page < pageCount ∧ tag expected = loading

structure Requests (state : State) : Prop where
  enabled : state.cache.enabled = true
  ring : Ring.Represents requestCapacity (pageIn state.cache) state.cache.requestHead
    state.cache.requestTail state.history.queue
  distinct : state.history.queue.Nodup
  bounded : ∀ page ∈ state.history.queue, page < pageCount
  pending : ∀ page, state.cpu1.pending = some page →
    page < pageCount ∧ page ∉ state.history.queue ∧ state.worker.loading ≠ some page
  loadingIff : ∀ page, page < pageCount →
    (state.cache.tagOf page = loading ↔ state.worker.loading = some page)
  queuedIff : ∀ page, page < pageCount → (state.cache.tagOf page = queued ↔
    (page ∈ state.history.queue ∨ state.cpu1.pending = some page) ∧
      state.worker.loading ≠ some page)
  cpu1 : Cpu1Holds state.cache state.cpu1
  worker : WorkerHolds state.history.queue state.worker

/-- Distinct pages leave room for one more. -/
theorem room_of_distinct {queue : List Nat} (distinct : queue.Nodup)
    (bounded : ∀ page ∈ queue, page < pageCount) {page : Nat} (inside : page < pageCount)
    (fresh : page ∉ queue) : queue.length < pageCount := by
  have all : (page :: queue) ⊆ List.range pageCount := by
    intro other member
    rcases List.mem_cons.mp member with rfl | old
    · exact List.mem_range.mpr inside
    · exact List.mem_range.mpr (bounded other old)
  have length := (List.subperm_of_subset (List.nodup_cons.mpr ⟨fresh, distinct⟩) all).length_le
  rw [List.length_range] at length
  exact length

theorem start_requests (cache : Cache) (chip : Nat → UInt8) : Requests (start cache chip) where
  enabled := rfl
  ring := Ring.Represents.empty _ 0
  distinct := List.nodup_nil
  bounded := by simp [start]
  pending := by simp [start, Cpu1.pending]
  loadingIff page _ :=
    ⟨fun busy => absurd busy (by decide : tag 0 ≠ loading), fun busy => by cases busy⟩
  queuedIff page _ :=
    ⟨fun listed => absurd listed (by decide : tag 0 ≠ queued), fun listed => by
      rcases listed.1 with member | marked
      · cases member
      · cases marked⟩
  cpu1 := trivial
  worker := trivial

@[simp] theorem resume_pending (after : After) : after.resume.pending = none := by
  cases after <;> simp only [After.resume] <;> first | rfl | (split <;> rfl)

theorem resume_holds (cache : Cache) (after : After) : Cpu1Holds cache after.resume := by
  cases after <;> simp only [After.resume] <;> first | exact trivial | (split <;> exact trivial)

variable {state next : State}

/-- A step of CPU1 that ends at a point without a pending page. -/
theorem Requests.settle {state : State} (inv : Requests state) {cpu1 : Cpu1}
    (before : state.cpu1.pending = none) (after : cpu1.pending = none)
    (holds : Cpu1Holds state.cache cpu1) : Requests { state with cpu1 := cpu1 } :=
  { inv with
    pending := by simp [after]
    queuedIff := by simpa [before, after] using inv.queuedIff
    cpu1 := holds }

theorem tag_update (pageMeta : Nat → UInt64) (page : Nat) (word : UInt64) (other : Nat) :
    tag (Function.update pageMeta page word other) =
      if other = page then tag word else tag (pageMeta other) := by
  rw [Function.update_apply]
  split <;> rfl

/-- A party without a page is not at any page. -/
theorem nowhere {page : Nat} : none ≠ some page := nofun

theorem cpu1_requests (inv : Requests state) (moved : cpu1 state = some next) : Requests next := by
  obtain ⟨cache, chip, party, worker, writer, history⟩ := state
  cases party with
  | idle => cases moved
  | check address =>
      simp only [cpu1] at moved
      split at moved <;> cases moved
      · exact { inv with cpu1 := trivial }
      · split <;> exact { inv with cpu1 := trivial }
  | loadMeta page after =>
      simp only [cpu1] at moved
      split at moved <;> cases moved
      · exact inv.settle rfl (resume_pending after) (resume_holds cache after)
      next inside => exact inv.settle rfl rfl (Nat.lt_of_not_le inside)
  | casMeta page old after =>
      simp only [cpu1] at moved
      split at moved
      · cases moved
        exact inv.settle rfl (resume_pending after) (resume_holds cache after)
      next clear =>
        rw [ne_eq, not_not] at clear
        split at moved
        next same =>
          cases moved
          have inside : page < pageCount := inv.cpu1
          have absent : cache.tagOf page = missing := (congrArg tag same).trans clear
          have notLoading : worker.loading ≠ some page := fun busy => by
            have two := (inv.loadingIff page inside).mpr busy
            rw [absent] at two
            cases two
          have notQueued : page ∉ history.queue := fun member => by
            have one := (inv.queuedIff page inside).mpr ⟨.inl member, notLoading⟩
            rw [absent] at one
            cases one
          have marked : tag (requested (cache.pageMeta page)) = queued := tag_requested absent
          exact { inv with
            pending := by
              intro other same
              cases same
              exact ⟨inside, notQueued, notLoading⟩
            loadingIff := by
              intro other below
              change tag ((Function.update _ _ _ : Nat → UInt64) _) = _ ↔ _
              rw [tag_update]
              split
              next equal =>
                subst equal
                rw [marked]
                exact ⟨fun impossible => absurd impossible (by decide), fun busy => absurd busy notLoading⟩
              · exact inv.loadingIff other below
            queuedIff := by
              intro other below
              change tag ((Function.update _ _ _ : Nat → UInt64) _) = _ ↔ _
              rw [tag_update]
              split
              next equal =>
                subst equal
                exact ⟨fun _ => ⟨.inr rfl, notLoading⟩, fun _ => marked⟩
              next different =>
                refine (inv.queuedIff other below).trans (and_congr_left' (or_congr_right ?_))
                simp [Cpu1.pending, Ne.symm different]
            cpu1 := trivial }
        · cases moved
          exact { inv with cpu1 := inv.cpu1 }
  | fillSlot page after =>
      cases moved
      obtain ⟨inside, fresh, apart⟩ := inv.pending page rfl
      have room := room_of_distinct inv.distinct inv.bounded inside fresh
      have slots : pageIn (cache.fillRequest page) =
          Function.update (pageIn cache) (Ring.slot requestCapacity cache.requestHead) page := by
        funext slot
        simp only [pageIn, Cache.fillRequest, Function.update_apply]
        split
        · exact UInt16.toNat_ofNat_of_lt' (Nat.lt_trans inside (by decide))
        · rfl
      exact { inv with
        ring := slots ▸ inv.ring.write_free room page
        pending := by
          intro other same
          cases same
          exact ⟨inside, fresh, apart⟩
        cpu1 := by
          change pageIn (cache.fillRequest page) _ = page
          rw [slots]
          exact Function.update_self _ _ _ }
  | publish page after =>
      cases moved
      obtain ⟨inside, fresh, apart⟩ := inv.pending page rfl
      have room := room_of_distinct inv.distinct inv.bounded inside fresh
      exact { inv with
        ring := inv.ring.push room inv.cpu1
        distinct := List.nodup_append.mpr ⟨inv.distinct, List.nodup_singleton page, by
          intro first member second last
          rw [List.mem_singleton] at last
          subst last
          rintro rfl
          exact fresh member⟩
        bounded := by
          intro other member
          rcases List.mem_append.mp member with old | last
          · exact inv.bounded other old
          · rw [List.mem_singleton] at last
            exact last ▸ inside
        pending := by simp [Cpu1.pending]
        queuedIff := by
          intro other below
          refine (inv.queuedIff other below).trans (and_congr_left' ?_)
          simp [Cpu1.pending, eq_comm]
        cpu1 := trivial
        worker := by
          have holds := inv.worker
          have grow : ∀ {front}, history.queue.head? = some front →
              (history.queue ++ [page]).head? = some front :=
            fun first => by simp [List.head?_append, first]
          have outside : ∀ {other}, other ∉ history.queue → worker.loading = some other →
              other ∉ history.queue ++ [page] := by
            intro other absent busy member
            rcases List.mem_append.mp member with old | last
            · exact absent old
            · rw [List.mem_singleton] at last
              exact apart (last ▸ busy)
          cases worker with
          | idle => exact trivial
          | announce => exact trivial
          | skipped => exact holds
          | loadMeta => exact grow holds
          | claim => exact ⟨grow holds.1, holds.2⟩
          | copy => exact ⟨grow holds.1, holds.2⟩
          | store => exact ⟨grow holds.1, holds.2⟩
          | _ => exact ⟨outside holds.1 rfl, holds.2⟩ }
  | loadTail after =>
      cases moved
      exact { inv with cpu1 := trivial }
  | gauge pending after =>
      cases moved
      have gauged : Requests ⟨cache.gaugeRequests pending, chip, .gauge pending after, worker,
          writer, history⟩ := { inv with }
      exact gauged.settle rfl (resume_pending after) (resume_holds _ after)
  | missed address =>
      cases moved
      exact { inv with cpu1 := trivial }
  | loadShadow address =>
      cases moved
      exact { inv with cpu1 := trivial }
  | prefetch page last =>
      simp only [cpu1] at moved
      cases moved
      split <;> exact { inv with cpu1 := trivial }

/-- The page leaves the loading state for good, after its slot was released. -/
theorem Requests.leave {state : State} (inv : Requests state) {page : Nat} {word : UInt64}
    (worker : Worker) (busy : state.worker.loading = some page) (inside : page < pageCount)
    (released : page ∉ state.history.queue) (idle : worker.loading = none)
    (holds : WorkerHolds state.history.queue worker) (notLoading : tag word ≠ loading)
    (notQueued : tag word ≠ queued) :
    Requests { state with
      cache.pageMeta := Function.update state.cache.pageMeta page word
      worker := worker } where
  enabled := inv.enabled
  ring := inv.ring
  distinct := inv.distinct
  bounded := inv.bounded
  pending other marked := ⟨(inv.pending other marked).1, (inv.pending other marked).2.1, by
    change worker.loading ≠ _
    rw [idle]
    exact nowhere⟩
  loadingIff other below := by
    change tag ((Function.update _ _ _ : Nat → UInt64) _) = _ ↔ worker.loading = _
    rw [tag_update, idle]
    split
    · exact ⟨fun impossible => absurd impossible notLoading, fun busy => absurd busy nowhere⟩
    next different =>
      refine (inv.loadingIff other below).trans ?_
      rw [busy]
      exact ⟨fun same => absurd (Option.some.inj same).symm different,
        fun busy => absurd busy nowhere⟩
  queuedIff other below := by
    change tag ((Function.update _ _ _ : Nat → UInt64) _) = _ ↔ _ ∧ worker.loading ≠ _
    rw [tag_update, idle]
    split
    next equal =>
      subst equal
      refine ⟨fun impossible => absurd impossible notQueued, fun listed => ?_⟩
      rcases listed.1 with member | marked
      · exact absurd member released
      · exact absurd busy (inv.pending other marked).2.2
    next different =>
      refine (inv.queuedIff other below).trans (and_congr_right fun _ => ?_)
      rw [busy]
      exact ⟨fun _ => nowhere, fun _ same => different (Option.some.inj same).symm⟩
  cpu1 := by
    have holds := inv.cpu1
    cases party : state.cpu1 <;> simp only [party] at holds ⊢ <;> exact holds
  worker := holds

theorem service_requests (inv : Requests state) (begun : service state = some next) :
    Requests next := by
  obtain ⟨cache, chip, party, worker, writer, history⟩ := state
  cases worker with
  | idle =>
      simp only [service] at begun
      split at begun
      next waiting =>
        cases begun
        have nonempty : history.queue ≠ [] := by
          intro none
          have same := inv.ring.head_eq_tail_iff.mpr none
          simp only [Cache.servicePending, Bool.and_eq_true, bne_iff_ne] at waiting
          exact waiting.2 same.symm
        obtain ⟨front, rest, queue⟩ := List.exists_cons_of_ne_nil nonempty
        have first : cache.frontRequest = front := Ring.Represents.front (queue ▸ inv.ring)
        exact { inv with
          loadingIff := inv.loadingIff
          worker := by
            change history.queue.head? = some cache.frontRequest
            rw [queue, first]
            rfl }
      · cases begun
        exact { inv with worker := trivial }
  | _ => cases begun

theorem worker_requests (inv : Requests state) (moved : worker state = some next) :
    Requests next := by
  obtain ⟨cache, chip, party, position, writer, history⟩ := state
  have front : ∀ {page}, history.queue.head? = some page → page ∈ history.queue ∧
      page < pageCount := fun first =>
    have member := List.mem_of_mem_head? first
    ⟨member, inv.bounded _ member⟩
  cases position with
  | idle => cases moved
  | loadMeta page =>
      cases moved
      have first : history.queue.head? = some page := inv.worker
      obtain ⟨member, inside⟩ := front first
      exact { inv with
        worker := ⟨first, (inv.queuedIff page inside).mpr ⟨.inl member, nowhere⟩⟩ }
  | claim page old =>
      obtain ⟨first, one⟩ : history.queue.head? = some page ∧ tag old = queued := inv.worker
      obtain ⟨member, inside⟩ := front first
      simp only [worker] at moved
      rw [if_neg (not_not.mpr one)] at moved
      split at moved <;> cases moved
      next same =>
        exact { inv with
          pending := by
            intro other marked
            obtain ⟨below, fresh, _⟩ := inv.pending other marked
            refine ⟨below, fresh, fun equal => fresh ?_⟩
            exact Option.some.inj equal ▸ member
          loadingIff := by
            intro other below
            change tag ((Function.update _ _ _ : Nat → UInt64) _) = _ ↔ _
            rw [tag_update]
            split
            next equal =>
              subst equal
              exact ⟨fun _ => rfl, fun _ => tag_claimed old⟩
            next different =>
              refine (inv.loadingIff other below).trans
                ⟨fun busy => absurd busy nowhere, fun equal => ?_⟩
              exact absurd (Option.some.inj equal).symm different
          queuedIff := by
            intro other below
            change tag ((Function.update _ _ _ : Nat → UInt64) _) = _ ↔ _
            rw [tag_update]
            split
            next equal =>
              subst equal
              rw [tag_claimed]
              exact ⟨fun impossible => absurd impossible (by decide), fun listed =>
                absurd rfl listed.2⟩
            next different =>
              refine (inv.queuedIff other below).trans (and_congr_right fun _ => ?_)
              exact ⟨fun _ equal => different (Option.some.inj equal).symm, fun _ => nowhere⟩
          cpu1 := by cases party <;> exact inv.cpu1
          worker := ⟨first, tag_claimed old⟩ }
      · exact { inv with
          worker := ⟨first, (inv.queuedIff page inside).mpr ⟨.inl member, nowhere⟩⟩ }
  | skipped => exact absurd inv.worker id
  | copy page expected offset =>
      obtain ⟨first, two⟩ : history.queue.head? = some page ∧ tag expected = loading := inv.worker
      obtain ⟨member, inside⟩ := front first
      simp only [worker] at moved
      split at moved <;> cases moved
      · exact { inv with worker := ⟨first, two⟩ }
      · obtain ⟨rest, queue⟩ : ∃ rest, history.queue = page :: rest := List.head?_eq_some_iff.mp first
        have distinct : (page :: rest).Nodup := queue ▸ inv.distinct
        have absent : page ∉ rest := (List.nodup_cons.mp distinct).1
        have tail : history.queue.tail = rest := by rw [queue]; rfl
        exact { inv with
          ring := by
            rw [tail]
            exact Ring.Represents.pop (queue ▸ inv.ring)
          distinct := by
            rw [tail]
            exact (List.nodup_cons.mp distinct).2
          bounded := fun other member => inv.bounded other (List.mem_of_mem_tail member)
          pending := fun other marked =>
            have ⟨below, fresh, apart⟩ := inv.pending other marked
            ⟨below, fun member => fresh (List.mem_of_mem_tail member), apart⟩
          queuedIff := by
            intro other below
            refine (inv.queuedIff other below).trans (and_congr_left fun apart => ?_)
            have different : other ≠ page := fun equal => apart (equal ▸ rfl)
            rw [tail]
            refine or_congr_left ?_
            rw [queue, List.mem_cons]
            exact ⟨fun either => either.resolve_left different, .inr⟩
          cpu1 := by cases party <;> exact inv.cpu1
          worker := ⟨tail ▸ absent, inside, two⟩ }
  | store page expected offset value =>
      cases moved
      exact { inv with
        cpu1 := by cases party <;> exact inv.cpu1 }
  | loadHead page expected =>
      cases moved
      exact { inv with worker := inv.worker }
  | gauge page expected pending =>
      cases moved
      exact { inv with
        cpu1 := by cases party <;> exact inv.cpu1
        worker := inv.worker }
  | reserve page expected =>
      cases moved
      exact { inv with
        cpu1 := by cases party <;> exact inv.cpu1
        worker := inv.worker }
  | publish page expected =>
      obtain ⟨released, inside, two⟩ := inv.worker
      simp only [worker] at moved
      split at moved <;> cases moved
      · have three := tag_published two
        exact { inv.leave (.announce page) rfl inside released rfl trivial
          (by rw [three]; decide) (by rw [three]; decide) with }
      · exact { inv with
          worker := ⟨released, inside, (inv.loadingIff page inside).mpr rfl⟩ }
  | announce page =>
      simp only [worker] at moved
      cases moved
      split <;> exact { inv with
        cpu1 := by cases party <;> exact inv.cpu1
        worker := trivial }
  | unreserve page compare =>
      cases moved
      exact { inv with
        cpu1 := by cases party <;> exact inv.cpu1
        worker := inv.worker }
  | report page compare =>
      cases moved
      exact { inv with
        cpu1 := by cases party <;> exact inv.cpu1
        worker := inv.worker }
  | discard page compare =>
      obtain ⟨released, inside, two⟩ := inv.worker
      simp only [worker] at moved
      rw [if_neg (not_not.mpr two)] at moved
      split at moved <;> cases moved
      · exact { inv.leave .idle rfl inside released rfl trivial
          (by rw [tag_discarded]; decide) (by rw [tag_discarded]; decide) with }
      · exact { inv with
          worker := ⟨released, inside, (inv.loadingIff page inside).mpr rfl⟩ }

theorem writer_requests (inv : Requests state) (moved : writer state = some next) :
    Requests next := by
  obtain ⟨cache, chip, party, worker, position, history⟩ := state
  cases position with
  | idle => cases moved
  | cas page last old =>
      simp only [writer] at moved
      split at moved
      next same =>
        cases moved
        have unchanged : tag (cache.pageMeta page) = tag old := congrArg tag same
        exact { inv with
          loadingIff := by
            intro other below
            change tag ((Function.update _ _ _ : Nat → UInt64) _) = _ ↔ _
            rw [tag_update]
            split
            next equal =>
              subst equal
              rw [tag_invalidated_eq_loading, ← unchanged]
              exact inv.loadingIff other below
            · exact inv.loadingIff other below
          queuedIff := by
            intro other below
            change tag ((Function.update _ _ _ : Nat → UInt64) _) = _ ↔ _
            rw [tag_update]
            split
            next equal =>
              subst equal
              rw [tag_invalidated_eq_queued, ← unchanged]
              exact inv.queuedIff other below
            · exact inv.queuedIff other below
          cpu1 := by cases party <;> exact inv.cpu1 }
      · split at moved <;> cases moved <;> exact { inv with }
  | _ =>
      cases moved
      exact { inv with
        cpu1 := by cases party <;> exact inv.cpu1 }

theorem step_requests {label : Label} (inv : Requests state) (stepped : step label state = some next) :
    Requests next := by
  cases label with
  | cpu1 => exact cpu1_requests inv stepped
  | service => exact service_requests inv stepped
  | worker => exact worker_requests inv stepped
  | writer => exact writer_requests inv stepped
  | write bus =>
      obtain ⟨cache, chip, party, worker, writer, history⟩ := state
      cases writer with
      | idle =>
          simp only [step, write] at stepped
          split at stepped <;> cases stepped
          exact { inv with }
      | _ => cases stepped
  | _ =>
      obtain ⟨cache, chip, party, worker, writer, history⟩ := state
      cases party with
      | idle =>
          first
            | (cases stepped; exact { inv with pending := inv.pending, cpu1 := trivial })
            | (simp only [step, read] at stepped
               split at stepped <;> cases stepped <;>
                 exact { inv with pending := inv.pending, cpu1 := trivial })
            | (simp only [step, prefetch] at stepped
               split at stepped <;> cases stepped <;>
                 first | exact inv | exact { inv with pending := inv.pending, cpu1 := trivial })
      | _ => cases stepped

end Paulastorm.Mirror.PageCache
