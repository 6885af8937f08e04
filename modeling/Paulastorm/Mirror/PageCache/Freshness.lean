import Paulastorm.Mirror.PageCache.Requests

namespace Paulastorm.Mirror.PageCache

/-! Ready pages show Chip RAM.

A load publishes only if the generation it started from is still there.  The
generation has sixty-two bits, so this detects every invalidation as long as
fewer than `2 ^ 62` of them hit one load.
-/

open Library

/-- The byte is the one Chip RAM holds, or the one it held before the last bus
write while that write still has to invalidate the page. -/
def Fresh (chip before : Nat → UInt8) (writer : Writer) (address : Nat) (byte : UInt8) : Prop :=
  byte = chip address ∨ (writer.pending (address / 256) = true ∧ byte = before address)

/-- A load of a page that has copied its first `count` bytes. -/
structure Loading (pageMeta : Nat → UInt64) (shadow chip before : Nat → UInt8) (writer : Writer)
    (bumps page : Nat) (expected : UInt64) (count : Nat) : Prop where
  generation : generation (pageMeta page) = (generation expected + bumps) % 2 ^ 62
  fresh : bumps = 0 → ∀ offset, offset < count → offset < 256 →
    Fresh chip before writer (page * 256 + offset) (shadow (page * 256 + offset))

def WorkerFresh (pageMeta : Nat → UInt64) (shadow chip before : Nat → UInt8) (writer : Writer)
    (bumps : Nat) : Worker → Prop
  | .copy page expected offset =>
      Loading pageMeta shadow chip before writer bumps page expected offset
  | .store page expected offset value =>
      Loading pageMeta shadow chip before writer bumps page expected offset ∧ offset < 256 ∧
        (bumps = 0 → Fresh chip before writer (page * 256 + offset) value)
  | .loadHead page expected | .gauge page expected _ | .reserve page expected
  | .publish page expected => Loading pageMeta shadow chip before writer bumps page expected 256
  | _ => True

/-- The byte that the last ready check allows. -/
def Allowed (check : Check) (byte : UInt8) : Prop :=
  byte = check.now ∨ (check.pending = true ∧ byte = check.old)

/-- Between a ready check and its load, no service can touch the page. -/
structure Stable (pageMeta : Nat → UInt64) (shadow : Nat → UInt8) (check : Check)
    (address : UInt32) : Prop where
  inside : pageOf address < pageCount
  notQueued : tag (pageMeta (pageOf address)) ≠ queued
  notLoading : tag (pageMeta (pageOf address)) ≠ loading
  allowed : Allowed check (shadow address.toNat)

/-- The read that CPU1 resumes after a page request. -/
def After.reading : After → Option UInt32
  | .shadow address => some address
  | _ => none

/-- The read that has passed its ready check. -/
def Cpu1.reading : Cpu1 → Option UInt32
  | .loadMeta _ after | .casMeta _ _ after | .fillSlot _ after | .publish _ after
  | .loadTail after | .gauge _ after => after.reading
  | .loadShadow address => some address
  | _ => none

/-- The page that CPU1 is about to mark. -/
def Cpu1.marking : Cpu1 → Option Nat
  | .loadMeta page _ | .casMeta page _ _ => some page
  | _ => none

structure Coherent (state : State) : Prop where
  bumps : state.history.bumps < 2 ^ 62
  fresh : ∀ page, page < pageCount → state.cache.tagOf page = ready → ∀ offset, offset < 256 →
    Fresh state.chip state.history.before state.writer (page * 256 + offset)
      (state.cache.shadow (page * 256 + offset))
  worker : WorkerFresh state.cache.pageMeta state.cache.shadow state.chip state.history.before
    state.writer state.history.bumps state.worker
  checked : ∀ address, state.cpu1 = .check address → address < chipLimit
  reading : ∀ address, state.cpu1.reading = some address →
    Stable state.cache.pageMeta state.cache.shadow state.history.check address ∧
      state.cpu1.marking ≠ some (pageOf address)
  reads : ∀ read ∈ state.history.reads, read.address < chipLimit → read.missed = false →
    Allowed read.check read.byte

theorem page_of_offset {page offset : Nat} (inside : offset < 256) :
    (page * 256 + offset) / 256 = page := by
  omega

/-- Freshness only looks at the pages the writer still has to invalidate. -/
theorem Fresh.of_pending {chip before : Nat → UInt8} {writer other : Writer} {address : Nat}
    {byte : UInt8} (fresh : Fresh chip before writer address byte)
    (same : other.pending (address / 256) = writer.pending (address / 256)) :
    Fresh chip before other address byte := by
  rcases fresh with now | ⟨pending, old⟩
  · exact .inl now
  · exact .inr ⟨same.trans pending, old⟩

/-- What preserves every load preserves the worker's part of the invariant. -/
theorem WorkerFresh.map {pageMeta pageMeta' : Nat → UInt64}
    {shadow shadow' chip chip' before before' : Nat → UInt8} {writer writer' : Writer}
    {bumps bumps' : Nat} {worker : Worker}
    (fresh : WorkerFresh pageMeta shadow chip before writer bumps worker)
    (load : ∀ page expected count, worker.loading = some page →
      Loading pageMeta shadow chip before writer bumps page expected count →
        Loading pageMeta' shadow' chip' before' writer' bumps' page expected count)
    (byte : ∀ page offset value, worker.loading = some page → offset < 256 →
      (bumps = 0 → Fresh chip before writer (page * 256 + offset) value) →
        bumps' = 0 → Fresh chip' before' writer' (page * 256 + offset) value) :
    WorkerFresh pageMeta' shadow' chip' before' writer' bumps' worker := by
  cases worker with
  | copy page expected offset => exact load page expected offset rfl fresh
  | store page expected offset value =>
      obtain ⟨before, inside, value⟩ := fresh
      exact ⟨load page expected offset rfl before, inside, byte page offset _ rfl inside value⟩
  | loadHead page expected | reserve page expected | publish page expected =>
      exact load page expected 256 rfl fresh
  | gauge page expected pending => exact load page expected 256 rfl fresh
  | _ => exact trivial

theorem WorkerFresh.of_pending {pageMeta : Nat → UInt64} {shadow chip before : Nat → UInt8}
    {writer other : Writer} {bumps : Nat} {worker : Worker}
    (fresh : WorkerFresh pageMeta shadow chip before writer bumps worker)
    (same : ∀ page, worker.loading = some page → other.pending page = writer.pending page) :
    WorkerFresh pageMeta shadow chip before other bumps worker := by
  refine fresh.map (fun page expected count busy load => ⟨load.generation, ?_⟩) ?_
  · intro still offset copied inside
    exact (load.fresh still offset copied inside).of_pending
      (by rw [page_of_offset inside, same page busy])
  · intro page offset value busy inside byte still
    exact (byte still).of_pending (by rw [page_of_offset inside, same page busy])

variable {state next : State}

/-- The page being loaded exists. -/
theorem Requests.loading_inside (inv : Requests state) {page : Nat}
    (busy : state.worker.loading = some page) : page < pageCount := by
  have held := inv.worker
  cases position : state.worker <;> simp only [position, Worker.loading, Option.some.injEq,
    reduceCtorEq, WorkerHolds] at busy held
  all_goals first
    | (subst busy; exact inv.bounded _ (List.mem_of_mem_head? held.1))
    | (subst busy; exact held.2.1)

/-- The writer moves on without touching what is known. -/
theorem Coherent.repose (held : Coherent state) (writer : Writer)
    (same : ∀ page, writer.pending page = state.writer.pending page) :
    Coherent { state with writer := writer } :=
  { held with
    fresh := fun page inside present offset below =>
      (held.fresh page inside present offset below).of_pending (same _)
    worker := held.worker.of_pending fun page _ => same page }

/-- The writer passes a page that is neither ready nor loading. -/
theorem Coherent.pass (held : Coherent state) {page : Nat} (writer : Writer)
    (same : ∀ other, other ≠ page → writer.pending other = state.writer.pending other)
    (notReady : page < pageCount → state.cache.tagOf page ≠ ready)
    (notLoading : state.worker.loading ≠ some page) : Coherent { state with writer := writer } :=
  { held with
    fresh := fun other inside present offset below =>
      (held.fresh other inside present offset below).of_pending (by
        rw [page_of_offset below]
        refine same other fun equal => ?_
        subst equal
        exact notReady inside present)
    worker := held.worker.of_pending fun other busy =>
      same other fun equal => notLoading (equal ▸ busy) }

theorem next_pending (page last other : Nat) :
    (Writer.next page last).pending other = (decide (page < other) && decide (other ≤ last)) := by
  rw [Writer.next]
  split
  · rw [Writer.pending, Bool.eq_iff_iff]
    simp only [Bool.and_eq_true, decide_eq_true_eq]
    omega
  · rw [Writer.pending, Bool.eq_iff_iff]
    simp only [Bool.false_eq_true, Bool.and_eq_true, decide_eq_true_eq, false_iff]
    omega

/-- Invalidating a page ends its being pending and nothing else. -/
theorem next_pending_of_ne {page other : Nat} (last : Nat) (different : other ≠ page) :
    (Writer.next page last).pending other = (Writer.load page last).pending other := by
  rw [next_pending, Writer.pending, Bool.eq_iff_iff]
  simp only [Bool.and_eq_true, decide_eq_true_eq]
  omega

theorem start_coherent (cache : Cache) (chip : Nat → UInt8) : Coherent (start cache chip) where
  bumps := by simp [start]
  fresh page _ present := absurd present (by decide : tag 0 ≠ ready)
  worker := trivial
  checked address checking := by cases checking
  reading address passed := by cases passed
  reads := by simp [start]

theorem writer_coherent (inv : Requests state) (held : Coherent state)
    (moved : writer state = some next) (few : next.history.bumps < 2 ^ 62) : Coherent next := by
  obtain ⟨cache, chip, party, worker, position, history⟩ := state
  have absent : ∀ page, cache.tagOf page = missing → worker.loading ≠ some page := by
    intro page zero busy
    have two := (inv.loadingIff page (inv.loading_inside busy)).mpr busy
    rw [zero] at two
    exact absurd two (by decide)
  cases position with
  | idle => cases moved
  | load page last =>
      cases moved
      split
      next zero =>
        exact { held.pass _ (fun other => next_pending_of_ne _)
          (fun _ present => absurd (zero.symm.trans present) (by decide)) (absent page zero) with }
      · exact { held.repose (.cas page last (cache.pageMeta page)) (fun _ => rfl) with }
  | cas page last old =>
      simp only [writer] at moved
      split at moved
      next same =>
        cases moved
        have elsewhere : ∀ other, other ≠ page →
            (if tag old = ready then Writer.unready page last else Writer.next page last).pending
              other = (Writer.cas page last old).pending other := by
          intro other different
          have passed := next_pending_of_ne last different
          rw [next_pending] at passed
          split
          · exact passed
          · rw [next_pending]
            exact passed
        have untouched : ∀ other, other ≠ page →
            (Function.update cache.pageMeta page (invalidated old) : Nat → UInt64) other =
              cache.pageMeta other := fun other different => Function.update_of_ne different _ _
        exact { held with
          bumps := few
          fresh := by
            intro other inside present offset below
            change tag ((Function.update _ _ _ : Nat → UInt64) _) = _ at present
            rw [tag_update] at present
            split at present
            · exact absurd present (tag_invalidated_ne_ready old)
            next different =>
              exact (held.fresh other inside present offset below).of_pending (by
                rw [page_of_offset below]
                exact elsewhere other different)
          worker := by
            refine held.worker.map ?_ ?_
            · intro other expected count busy load
              by_cases here : other = page
              · subst here
                refine ⟨?_, fun still => ?_⟩
                · have before : generation (cache.pageMeta other) =
                      (generation expected + history.bumps) % 2 ^ 62 := load.generation
                  change cache.pageMeta other = old at same
                  simp only [Function.update_self, if_pos busy]
                  rw [← same, generation_invalidated, before]
                  omega
                · simp only [if_pos busy] at still
                  omega
              · have notHere : worker.loading ≠ some page := fun equal =>
                  here (Option.some.inj (busy.symm.trans equal))
                refine ⟨?_, fun still offset copied below => ?_⟩
                · simp only [untouched other here, if_neg notHere]
                  exact load.generation
                · simp only [if_neg notHere] at still
                  exact (load.fresh still offset copied below).of_pending (by
                    rw [page_of_offset below]
                    exact elsewhere other here)
            · intro other offset value busy below byte still
              by_cases here : other = page
              · subst here
                simp only [if_pos busy] at still
                omega
              · have notHere : worker.loading ≠ some page := fun equal =>
                  here (Option.some.inj (busy.symm.trans equal))
                simp only [if_neg notHere] at still
                exact (byte still).of_pending (by
                  rw [page_of_offset below]
                  exact elsewhere other here)
          reading := by
            intro address passed
            obtain ⟨⟨inside, notQueued, notLoading, allowed⟩, marks⟩ := held.reading address passed
            have kept : ∀ value, (value = queued ∨ value = loading) →
                cache.tagOf (pageOf address) ≠ value →
                tag ((Function.update cache.pageMeta page (invalidated old) : Nat → UInt64)
                  (pageOf address)) ≠ value := by
              intro value either different
              rw [tag_update]
              split
              next here =>
                have before : cache.tagOf (pageOf address) = tag old := by
                  rw [here]
                  exact congrArg tag same
                rw [before] at different
                rcases either with rfl | rfl
                · exact fun one => different (tag_invalidated_eq_queued.mp one)
                · exact fun two => different (tag_invalidated_eq_loading.mp two)
              · exact different
            exact ⟨⟨inside, kept _ (.inl rfl) notQueued, kept _ (.inr rfl) notLoading, allowed⟩,
              marks⟩ }
      next changed =>
        split at moved <;> cases moved
        next zero =>
          refine held.pass _ (fun other => next_pending_of_ne _) (fun _ present => ?_)
            (absent page zero)
          exact absurd (zero.symm.trans present) (by decide)
        · exact held.repose _ fun _ => rfl
  | unready page last =>
      cases moved
      exact { held.repose (.report page last) (fun _ => rfl) with }
  | report page last =>
      cases moved
      exact { held.repose (.next page last) (fun other => next_pending page last other) with }

/-- Every byte a bus write changes lies in a page it will invalidate. -/
theorem write_pending {bus : BusWrite} (wellFormed : bus.WellFormed) (chip : Nat → UInt8)
    {address : Nat} (inside : address / 256 < pageCount)
    (changed : bus.apply chip address ≠ chip address) :
    bus.address < chipLimit ∧ (Writer.load (pageOf bus.address)
      (min (pageOf (bus.address + bus.width - 1)) (pageCount - 1))).pending (address / 256) =
        true := by
  obtain ⟨masked, width⟩ := wellFormed
  have below : address < 2097152 := by
    change address / 256 < 8192 at inside
    omega
  have bus24 : bus.address.toNat < 2 ^ 24 := by
    have small : (bus.address &&& 0xffffff).toNat = bus.address.toNat % 2 ^ 24 := by
      rw [UInt32.toNat_and]
      exact Nat.and_two_pow_sub_one_eq_mod _ 24
    rw [masked] at small
    omega
  have last : (bus.address + bus.width - 1).toNat = bus.address.toNat + bus.width.toNat - 1 := by
    have positive : (1 : UInt32) ≤ bus.address + bus.width := by
      rw [UInt32.le_iff_toNat_le, UInt32.toNat_add]
      rcases width with byte | ⟨word, _⟩
      · rw [byte]
        change 1 ≤ (bus.address.toNat + 1) % 2 ^ 32
        omega
      · rw [word]
        change 1 ≤ (bus.address.toNat + 2) % 2 ^ 32
        omega
    rw [UInt32.toNat_sub_of_le _ _ positive, UInt32.toNat_add]
    rcases width with byte | ⟨word, _⟩
    · rw [byte]
      change (bus.address.toNat + 1) % 2 ^ 32 - 1 = bus.address.toNat + 1 - 1
      omega
    · rw [word]
      change (bus.address.toNat + 2) % 2 ^ 32 - 1 = bus.address.toNat + 2 - 1
      omega
  have near : bus.address.toNat ≤ address ∧ address ≤ bus.address.toNat + bus.width.toNat - 1 := by
    rcases width with byte | ⟨word, _⟩
    · rw [BusWrite.apply, if_pos byte, Function.update_apply] at changed
      split at changed
      next same =>
        rw [byte, same]
        exact ⟨Nat.le_refl _, Nat.le_refl _⟩
      · exact absurd rfl changed
    · have notByte : bus.width ≠ 1 := by
        rw [word]
        decide
      rw [BusWrite.apply, if_neg notByte, Function.update_apply, Function.update_apply] at changed
      have two : bus.width.toNat = 2 := by
        rw [word]
        rfl
      split at changed
      next same => omega
      · split at changed
        next same => omega
        · exact absurd rfl changed
  refine ⟨UInt32.lt_iff_toNat_lt.mpr (Nat.lt_of_le_of_lt near.1 below), ?_⟩
  simp only [Writer.pending, pageOf_eq, last, Bool.and_eq_true, decide_eq_true_eq, le_min_iff]
  change address / 256 < 8192 at inside
  change _ ∧ _ ∧ address / 256 ≤ 8192 - 1
  omega

theorem write_coherent {bus : BusWrite} (inv : Requests state) (held : Coherent state)
    (written : write bus state = some next) : Coherent next := by
  obtain ⟨cache, chip, party, worker, position, history⟩ := state
  cases position with
  | idle =>
      simp only [write] at written
      split at written <;> cases written
      next wellFormed =>
        have enabled : cache.enabled = true := inv.enabled
        have aged : ∀ address byte, address / 256 < pageCount →
            Fresh chip history.before .idle address byte →
            Fresh (bus.apply chip) chip
              (if cache.enabled && decide (bus.address < chipLimit) then
                Writer.load (pageOf bus.address)
                  (min (pageOf (bus.address + bus.width - 1)) (pageCount - 1))
              else .idle) address byte := by
          intro address byte inside fresh
          have current : byte = chip address := fresh.resolve_right fun old => by
            exact absurd old.1 Bool.false_ne_true
          by_cases same : bus.apply chip address = chip address
          · exact .inl (current.trans same.symm)
          · obtain ⟨below, pending⟩ := write_pending wellFormed chip inside same
            refine .inr ⟨?_, current⟩
            rw [enabled, Bool.true_and, if_pos (decide_eq_true below)]
            exact pending
        exact { held with
          fresh := fun page inside present offset below =>
            aged _ _ (by rw [page_of_offset below]; exact inside)
              (held.fresh page inside present offset below)
          worker := by
            refine held.worker.map (fun page expected count busy load => ⟨load.generation, ?_⟩) ?_
            · intro still offset copied below
              refine aged _ _ ?_ (load.fresh still offset copied below)
              rw [page_of_offset below]
              exact inv.loading_inside busy
            · intro page offset value busy below byte still
              refine aged _ _ ?_ (byte still)
              rw [page_of_offset below]
              exact inv.loading_inside busy }
  | _ => cases written

theorem worker_coherent (inv : Requests state) (held : Coherent state)
    (moved : worker state = some next) : Coherent next := by
  obtain ⟨cache, chip, party, position, writer, history⟩ := state
  cases position with
  | idle => cases moved
  | loadMeta page =>
      cases moved
      exact { held with worker := trivial }
  | claim page old =>
      obtain ⟨first, one⟩ : history.queue.head? = some page ∧ tag old = queued := inv.worker
      simp only [worker] at moved
      rw [if_neg (not_not.mpr one)] at moved
      split at moved <;> cases moved
      next same =>
        exact { held with
          bumps := by
            change 0 < 2 ^ 62
            decide
          fresh := by
            intro other inside present offset below
            change tag ((Function.update _ _ _ : Nat → UInt64) _) = _ at present
            rw [tag_update] at present
            split at present
            · rw [tag_claimed] at present
              exact absurd present (by decide)
            · exact held.fresh other inside present offset below
          worker := by
            refine ⟨?_, fun _ offset copied => absurd copied (Nat.not_lt_zero offset)⟩
            change generation ((Function.update cache.pageMeta page (claimed old) : Nat → UInt64)
              page) = (generation (claimed old) + 0) % 2 ^ 62
            have bounded := (claimed old).toNat_lt
            rw [Function.update_self, generation]
            omega
          reading := by
            intro address passed
            obtain ⟨⟨inside, notQueued, notLoading, allowed⟩, marks⟩ := held.reading address passed
            have different : pageOf address ≠ page := by
              intro here
              refine notQueued ?_
              rw [here]
              exact (congrArg tag same).trans one
            have kept : (Function.update cache.pageMeta page (claimed old) : Nat → UInt64)
                (pageOf address) = cache.pageMeta (pageOf address) :=
              Function.update_of_ne different _ _
            exact ⟨⟨inside, fun one => notQueued (kept ▸ one), fun two => notLoading (kept ▸ two),
              allowed⟩, marks⟩ }
      · exact { held with worker := trivial }
  | skipped => exact absurd inv.worker id
  | copy page expected offset =>
      simp only [worker] at moved
      have load : Loading cache.pageMeta cache.shadow chip history.before writer history.bumps page
          expected offset := held.worker
      split at moved <;> cases moved
      next below => exact { held with worker := ⟨load, below, fun _ => .inl rfl⟩ }
      next complete =>
        exact { held with
          worker := ⟨load.generation, fun still other _ below =>
            load.fresh still other (Nat.lt_of_lt_of_le below (Nat.le_of_not_lt complete)) below⟩ }
  | store page expected offset value =>
      cases moved
      obtain ⟨load, inside, byte⟩ := held.worker
      have two : tag (cache.pageMeta page) = loading :=
        (inv.loadingIff page (inv.loading_inside rfl)).mpr rfl
      have elsewhere : ∀ address, address / 256 ≠ page →
          (Function.update cache.shadow (page * 256 + offset) value : Nat → UInt8) address =
            cache.shadow address := by
        intro address different
        refine Function.update_of_ne ?_ _ _
        rintro rfl
        exact different (page_of_offset inside)
      exact { held with
        fresh := by
          intro other within present place below
          have different : other ≠ page := by
            rintro rfl
            exact absurd (two.symm.trans present) (by decide)
          have kept := elsewhere (other * 256 + place) (by rw [page_of_offset below]; exact different)
          simp only [kept]
          exact held.fresh other within present place below
        worker := by
          refine ⟨load.generation, fun still place copied below => ?_⟩
          by_cases last : place = offset
          · subst last
            simp only [Function.update_self]
            exact byte still
          · have apart : page * 256 + place ≠ page * 256 + offset := by omega
            simp only [Function.update_of_ne apart]
            exact load.fresh still place (by omega) below
        reading := by
          intro address passed
          obtain ⟨⟨within, notQueued, notLoading, allowed⟩, marks⟩ := held.reading address passed
          refine ⟨⟨within, notQueued, notLoading, ?_⟩, marks⟩
          change Allowed _ ((Function.update cache.shadow _ value : Nat → UInt8) _)
          rw [elsewhere]
          · exact allowed
          · intro here
            rw [← pageOf_eq] at here
            exact notLoading (here ▸ two) }
  | loadHead page expected =>
      cases moved
      exact { held with worker := held.worker }
  | gauge page expected pending =>
      cases moved
      exact { held with worker := held.worker }
  | reserve page expected =>
      cases moved
      exact { held with worker := held.worker }
  | publish page expected =>
      obtain ⟨_, inside, two⟩ := inv.worker
      have load : Loading cache.pageMeta cache.shadow chip history.before writer history.bumps page
          expected 256 := held.worker
      simp only [worker] at moved
      split at moved <;> cases moved
      next same =>
        have still : history.bumps = 0 := by
          have unchanged := load.generation
          have few : history.bumps < 2 ^ 62 := held.bumps
          have bounded := expected.toNat_lt
          rw [same] at unchanged
          simp only [generation] at unchanged
          omega
        exact { held with
          fresh := by
            intro other within present offset below
            change tag ((Function.update _ _ _ : Nat → UInt64) _) = _ at present
            by_cases here : other = page
            · subst here
              exact load.fresh still offset below below
            · rw [tag_update, if_neg here] at present
              exact held.fresh other within present offset below
          worker := trivial
          reading := by
            intro address passed
            obtain ⟨⟨within, notQueued, notLoading, allowed⟩, marks⟩ := held.reading address passed
            have three := tag_published two
            refine ⟨⟨within, ?_, ?_, allowed⟩, marks⟩
            · change tag ((Function.update _ _ _ : Nat → UInt64) _) ≠ _
              rw [tag_update]
              split
              · rw [three]
                decide
              · exact notQueued
            · change tag ((Function.update _ _ _ : Nat → UInt64) _) ≠ _
              rw [tag_update]
              split
              · rw [three]
                decide
              · exact notLoading }
      · exact { held with worker := trivial }
  | announce page =>
      simp only [worker] at moved
      cases moved
      split <;> exact { held with worker := trivial }
  | unreserve page compare =>
      cases moved
      exact { held with worker := trivial }
  | report page compare =>
      cases moved
      exact { held with worker := trivial }
  | discard page compare =>
      obtain ⟨_, inside, two⟩ := inv.worker
      simp only [worker] at moved
      rw [if_neg (not_not.mpr two)] at moved
      split at moved <;> cases moved
      · exact { held with
          fresh := by
            intro other within present offset below
            change tag ((Function.update _ _ _ : Nat → UInt64) _) = _ at present
            rw [tag_update] at present
            split at present
            · rw [tag_discarded] at present
              exact absurd present (by decide)
            · exact held.fresh other within present offset below
          worker := trivial
          reading := by
            intro address passed
            obtain ⟨⟨within, notQueued, notLoading, allowed⟩, marks⟩ := held.reading address passed
            refine ⟨⟨within, ?_, ?_, allowed⟩, marks⟩
            · change tag ((Function.update _ _ _ : Nat → UInt64) _) ≠ _
              rw [tag_update]
              split
              · rw [tag_discarded]
                decide
              · exact notQueued
            · change tag ((Function.update _ _ _ : Nat → UInt64) _) ≠ _
              rw [tag_update]
              split
              · rw [tag_discarded]
                decide
              · exact notLoading }
      · exact { held with worker := trivial }

@[simp] theorem resume_reading (after : After) : after.resume.reading = after.reading := by
  cases after <;> simp only [After.resume] <;> first | rfl | (split <;> rfl)

@[simp] theorem resume_marking (after : After) : after.resume.marking = none := by
  cases after <;> simp only [After.resume] <;> first | rfl | (split <;> rfl)

theorem resume_ne_check (after : After) (address : UInt32) : after.resume ≠ .check address := by
  cases after with
  | prefetch page last =>
      rw [After.resume]
      split <;> (intro same; cases same)
  | _ => intro same; cases same

/-- CPU1 moves on with the same read, marking nothing new. -/
theorem Coherent.advance (held : Coherent state) (cpu1 : Cpu1)
    (reading : ∀ address, cpu1.reading = some address → state.cpu1.reading = some address ∧
      (cpu1.marking = none ∨ cpu1.marking = state.cpu1.marking))
    (notCheck : ∀ address, cpu1 ≠ .check address) : Coherent { state with cpu1 := cpu1 } :=
  { held with
    checked := fun address checking => absurd checking (notCheck address)
    reading := by
      intro address passed
      obtain ⟨before, marking⟩ := reading address passed
      obtain ⟨stable, different⟩ := held.reading address before
      refine ⟨stable, ?_⟩
      rcases marking with none | same
      · rw [none]
        exact nowhere
      · rw [same]
        exact different }

/-- CPU1 finishes a read. -/
theorem Coherent.finish (held : Coherent state) {address : UInt32} {byte : UInt8} {missed : Bool}
    (allowed : address < chipLimit → missed = false → Allowed state.history.check byte) :
    Coherent (state.finishRead address byte missed) :=
  { held with
    checked := fun _ checking => by cases checking
    reading := fun _ passed => by cases passed
    reads := by
      intro read member
      rcases List.mem_append.mp member with old | last
      · exact held.reads read old
      · rw [List.mem_singleton] at last
        subst last
        exact allowed }

theorem cpu1_coherent (inv : Requests state) (held : Coherent state)
    (moved : cpu1 state = some next) : Coherent next := by
  obtain ⟨cache, chip, party, worker, writer, history⟩ := state
  cases party with
  | idle => cases moved
  | check address =>
      have below : address < chipLimit := held.checked address rfl
      have inside := pageOf_lt below
      simp only [cpu1] at moved
      split at moved <;> cases moved
      · exact { held.advance (.loadMeta (pageOf address) (.missed address))
          (fun _ passed => by cases passed) (fun _ checking => by cases checking) with }
      next present =>
        rw [ne_eq, not_not] at present
        have here : pageOf address * 256 + address.toNat % 256 = address.toNat := by
          rw [pageOf_eq]
          omega
        have byte := held.fresh (pageOf address) inside present (address.toNat % 256)
          (Nat.mod_lt _ (by decide))
        simp only [here] at byte
        have stable : Stable cache.pageMeta cache.shadow ⟨chip address.toNat,
            history.before address.toNat, writer.pending (pageOf address)⟩ address :=
          { inside := inside
            notQueued := fun one => absurd (present.symm.trans one) (by decide)
            notLoading := fun two => absurd (present.symm.trans two) (by decide)
            allowed := by
              rw [pageOf_eq]
              exact byte }
        split
        · exact { held with
            checked := fun _ checking => by cases checking
            reading := by
              intro other passed
              cases passed
              refine ⟨stable, fun same => ?_⟩
              have equal := Option.some.inj same
              omega }
        · exact { held with
            checked := fun _ checking => by cases checking
            reading := by
              intro other passed
              cases passed
              exact ⟨stable, nowhere⟩ }
  | loadMeta page after =>
      simp only [cpu1] at moved
      split at moved <;> cases moved
      · exact held.advance _ (fun address passed => ⟨(resume_reading after).symm.trans passed,
          .inl (resume_marking after)⟩) (resume_ne_check after)
      · exact held.advance _ (fun address passed => ⟨passed, .inr rfl⟩)
          (fun _ checking => by cases checking)
  | casMeta page old after =>
      simp only [cpu1] at moved
      split at moved
      · cases moved
        exact held.advance _ (fun address passed => ⟨(resume_reading after).symm.trans passed,
          .inl (resume_marking after)⟩) (resume_ne_check after)
      next clear =>
        rw [ne_eq, not_not] at clear
        split at moved <;> cases moved
        next same =>
          have absent : cache.tagOf page = missing := (congrArg tag same).trans clear
          have marked : tag (requested (cache.pageMeta page)) = queued := tag_requested absent
          have others : ∀ other, other ≠ page →
              (Function.update cache.pageMeta page (requested (cache.pageMeta page)) :
                Nat → UInt64) other = cache.pageMeta other :=
            fun other different => Function.update_of_ne different _ _
          exact { held with
            fresh := by
              intro other within present offset below
              change tag ((Function.update _ _ _ : Nat → UInt64) _) = _ at present
              rw [tag_update] at present
              split at present
              · exact absurd (marked.symm.trans present) (by decide)
              · exact held.fresh other within present offset below
            worker := by
              refine held.worker.map (fun other expected count busy load => ⟨?_, load.fresh⟩)
                (fun _ _ _ _ _ byte => byte)
              have different : other ≠ page := by
                rintro rfl
                have two := (inv.loadingIff other (inv.loading_inside busy)).mpr busy
                exact absurd (absent.symm.trans two) (by decide)
              simp only [Cache.markRequested, others other different]
              exact load.generation
            checked := fun _ checking => by cases checking
            reading := by
              intro address passed
              obtain ⟨⟨within, notQueued, notLoading, allowed⟩, marks⟩ :=
                held.reading address passed
              have different : pageOf address ≠ page := fun here => marks (here ▸ rfl)
              have kept := others _ different
              exact ⟨⟨within, fun one => notQueued (kept ▸ one), fun two => notLoading (kept ▸ two),
                allowed⟩, nowhere⟩ }
        · exact held.advance _ (fun address passed => ⟨passed, .inr rfl⟩)
            (fun _ checking => by cases checking)
  | fillSlot page after =>
      cases moved
      exact { held.advance (.publish page after) (fun address passed => ⟨passed, .inl rfl⟩)
        (fun _ checking => by cases checking) with }
  | publish page after =>
      cases moved
      exact { held.advance (.loadTail after) (fun address passed => ⟨passed, .inl rfl⟩)
        (fun _ checking => by cases checking) with }
  | loadTail after =>
      cases moved
      exact held.advance _ (fun address passed => ⟨passed, .inl rfl⟩)
        (fun _ checking => by cases checking)
  | gauge pending after =>
      cases moved
      exact { held.advance after.resume (fun address passed =>
        ⟨(resume_reading after).symm.trans passed, .inl (resume_marking after)⟩)
        (resume_ne_check after) with }
  | missed address =>
      cases moved
      have counted : Coherent ⟨cache.countMiss, chip, .missed address, worker, writer, history⟩ :=
        { held with }
      exact counted.finish fun _ hit => absurd hit (by decide)
  | loadShadow address =>
      cases moved
      exact held.finish fun _ _ => (held.reading address rfl).1.allowed
  | prefetch page last =>
      simp only [cpu1] at moved
      cases moved
      split <;> exact { held.advance (.loadMeta page (.prefetch page last))
        (fun _ passed => by cases passed) (fun _ checking => by cases checking) with }

/-- A load survives as long as it meets fewer than `2 ^ 62` invalidations. -/
def loadsBounded (label : Label) (state : State) : Prop :=
  match step label state with
  | some next => next.history.bumps < 2 ^ 62
  | none => True

instance (label : Label) (state : State) : Decidable (loadsBounded label state) := by
  unfold loadsBounded
  split <;> infer_instance

theorem step_coherent {label : Label} (inv : Requests state) (held : Coherent state)
    (permitted : loadsBounded label state) (stepped : step label state = some next) :
    Coherent next := by
  have few : next.history.bumps < 2 ^ 62 := by
    rw [loadsBounded, stepped] at permitted
    exact permitted
  cases label with
  | cpu1 => exact cpu1_coherent inv held stepped
  | worker => exact worker_coherent inv held stepped
  | writer => exact writer_coherent inv held stepped few
  | write bus => exact write_coherent inv held stepped
  | service =>
      obtain ⟨cache, chip, party, worker, writer, history⟩ := state
      cases worker with
      | idle =>
          simp only [step, service] at stepped
          split at stepped <;> cases stepped <;> exact { held with worker := trivial }
      | _ => cases stepped
  | read address =>
      obtain ⟨cache, chip, party, worker, writer, history⟩ := state
      cases party with
      | idle =>
          simp only [step, read] at stepped
          split at stepped <;> cases stepped
          next beyond =>
            have refused : Coherent ⟨cache.countRead.refuseAddress, chip, .idle, worker, writer,
                history⟩ := { held with }
            exact refused.finish fun below => absurd below (UInt32.not_lt.mpr beyond)
          next below =>
            exact { held with
              checked := by
                intro other checking
                cases checking
                exact UInt32.not_le.mp below
              reading := fun _ passed => by cases passed }
      | _ => cases stepped
  | prefetch address length =>
      obtain ⟨cache, chip, party, worker, writer, history⟩ := state
      cases party with
      | idle =>
          simp only [step, prefetch] at stepped
          split at stepped <;> cases stepped
          · exact held
          · exact held.advance _ (fun _ passed => by cases passed)
              (fun _ checking => by cases checking)
      | _ => cases stepped
  | request page =>
      obtain ⟨cache, chip, party, worker, writer, history⟩ := state
      cases party with
      | idle =>
          cases stepped
          exact held.advance _ (fun _ passed => by cases passed)
            (fun _ checking => by cases checking)
      | _ => cases stepped
  | renderBegin =>
      obtain ⟨cache, chip, party, worker, writer, history⟩ := state
      cases party with
      | idle =>
          cases stepped
          exact { held with }
      | _ => cases stepped

end Paulastorm.Mirror.PageCache
