import Paulastorm.Mirror.PageCache.Service

namespace Paulastorm.Mirror.PageCache

/-! Reads and refills that spare some pages: what has been asked for is not forgotten,
and at rest it is there. -/

open Library

variable {state next : State} {page : Nat} {pages : Nat → Prop}

/-- No invalidation of these pages. -/
def Spares (pages : Nat → Prop) (label : Label) (state : State) : Prop :=
  label = .writer → ∀ page last old, state.writer = .cas page last old → ¬pages page

/-- No invalidation. -/
def Quiet : Label → State → Prop
  | .write _, _ | .writer, _ => False
  | _, _ => True

instance quietDecidable (label : Label) (state : State) : Decidable (Quiet label state) :=
  match label with
  | .write _ | .writer => .isFalse id
  | .request _ | .renderBegin | .read _ | .prefetch _ _ | .cpu1 | .service | .worker =>
      .isTrue trivial

theorem Quiet.spares {label : Label} (quiet : Quiet label state) : Spares pages label state := by
  rintro rfl
  exact quiet.elim

/-- The page being loaded, and the state word it was claimed with. -/
def Worker.expects : Worker → Option (Nat × UInt64)
  | .copy page expected _ | .store page expected _ _ | .loadHead page expected
  | .gauge page expected _ | .reserve page expected | .publish page expected => some (page, expected)
  | _ => none

/-- The page whose load has been found stale. -/
def Worker.stale : Worker → Option Nat
  | .unreserve page _ | .report page _ | .discard page _ => some page
  | _ => none

/-- If the page is being loaded, no invalidation has superseded the load. -/
structure Current (state : State) (page : Nat) : Prop where
  expected : ∀ expected, state.worker.expects = some (page, expected) →
    state.cache.pageMeta page = expected
  stale : state.worker.stale ≠ some page

theorem Worker.expects_loading {worker : Worker} {expected : UInt64}
    (expects : worker.expects = some (page, expected)) : worker.loading = some page := by
  cases worker <;> cases expects <;> rfl

/-- What a step that spares the page does to it. -/
inductive Turn (state next : State) (page : Nat) : Prop
  | kept (same : next.cache.pageMeta page = state.cache.pageMeta page)
  | marked (before : state.cache.tagOf page = missing) (after : next.cache.tagOf page = queued)
  | claimed (before : state.cache.tagOf page = queued) (after : next.cache.tagOf page = loading)
  | published (before : state.cache.tagOf page = loading) (after : next.cache.tagOf page = ready)
  | discarded (before : state.cache.tagOf page = loading) (stale : state.worker.stale = some page)

/-- A store to one page. -/
theorem Turn.update {stored : Nat} {word : UInt64}
    (pages : next.cache.pageMeta = Function.update state.cache.pageMeta stored word)
    (here : next.cache.tagOf stored = tag word → Turn state next stored) : Turn state next page := by
  by_cases same : page = stored
  · subst same
    refine here ?_
    rw [Cache.tagOf, pages, Function.update_self]
  · refine .kept ?_
    rw [pages, Function.update_of_ne same]

theorem cpu1_turn (inv : Requests state) (moved : cpu1 state = some next) (page : Nat) :
    Turn state next page ∧ next.worker = state.worker := by
  obtain ⟨cache, chip, party, worker, writer, history⟩ := state
  cases party with
  | casMeta stored old after =>
      simp only [cpu1] at moved
      split at moved
      · cases moved
        exact ⟨.kept rfl, rfl⟩
      next clear =>
        rw [ne_eq, not_not] at clear
        split at moved <;> cases moved
        next same =>
          have before : cache.tagOf stored = missing := (congrArg tag same).trans clear
          refine ⟨.update rfl fun after => .marked before ?_, rfl⟩
          rw [after, tag_requested before]
        · exact ⟨.kept rfl, rfl⟩
  | idle => cases moved
  | check address =>
      simp only [cpu1] at moved
      split at moved <;> cases moved <;> exact ⟨.kept rfl, rfl⟩
  | loadMeta stored after =>
      simp only [cpu1] at moved
      split at moved <;> cases moved <;> exact ⟨.kept rfl, rfl⟩
  | prefetch stored last =>
      simp only [cpu1] at moved
      cases moved
      split <;> exact ⟨.kept rfl, rfl⟩
  | _ =>
      cases moved
      exact ⟨.kept rfl, rfl⟩

theorem worker_turn (inv : Requests state) (moved : worker state = some next) (page : Nat) :
    Turn state next page := by
  obtain ⟨cache, chip, party, position, writer, history⟩ := state
  cases position with
  | claim stored old =>
      obtain ⟨first, queue⟩ : history.queue.head? = some stored ∧ tag old = queued := inv.worker
      simp only [worker] at moved
      rw [if_neg (not_not.mpr queue)] at moved
      split at moved <;> cases moved
      next same =>
        have before : cache.tagOf stored = queued := (congrArg tag same).trans queue
        refine .update rfl fun after => .claimed before ?_
        rw [after, tag_claimed]
      · exact .kept rfl
  | publish stored expected =>
      obtain ⟨-, inside, busy⟩ := inv.worker
      simp only [worker] at moved
      split at moved <;> cases moved
      next same =>
        have before : cache.tagOf stored = loading := (congrArg tag same).trans busy
        refine .update rfl fun after => .published before ?_
        rw [after, tag_published busy]
      · exact .kept rfl
  | discard stored compare =>
      obtain ⟨-, inside, busy⟩ := inv.worker
      simp only [worker] at moved
      rw [if_neg (not_not.mpr busy)] at moved
      split at moved <;> cases moved
      next same =>
        have before : cache.tagOf stored = loading := (congrArg tag same).trans busy
        exact .update rfl fun _ => .discarded before rfl
      · exact .kept rfl
  | idle => cases moved
  | copy stored expected offset =>
      simp only [worker] at moved
      split at moved <;> cases moved <;> exact .kept rfl
  | announce stored =>
      simp only [worker] at moved
      cases moved
      split <;> exact .kept rfl
  | _ =>
      cases moved
      exact .kept rfl

/-- A write to the bus leaves the pages, and an invalidation the pages that it spares. -/
theorem writer_turn {label : Label} (spares : Spares pages label state) (here : pages page)
    (moves : (∃ bus, label = .write bus) ∨ label = .writer)
    (stepped : step label state = some next) :
    next.cache.pageMeta page = state.cache.pageMeta page ∧ next.worker = state.worker := by
  obtain ⟨cache, chip, party, worker, writer, history⟩ := state
  rcases moves with ⟨bus, rfl⟩ | rfl
  · cases writer with
    | idle =>
        simp only [step, write] at stepped
        split at stepped <;> cases stepped
        exact ⟨rfl, rfl⟩
    | _ => cases stepped
  · cases writer with
    | cas other last old =>
        have apart : page ≠ other := fun same => spares rfl other last old rfl (same ▸ here)
        simp only [step, PageCache.writer] at stepped
        split at stepped
        · cases stepped
          exact ⟨Function.update_of_ne apart _ _, rfl⟩
        · split at stepped <;> cases stepped <;> exact ⟨rfl, rfl⟩
    | idle => cases stepped
    | _ =>
        cases stepped
        exact ⟨rfl, rfl⟩

/-- The calls of CPU1 and of the worker touch no page. -/
theorem step_turn {label : Label} (spares : Spares pages label state) (here : pages page)
    (inv : Requests state) (stepped : step label state = some next) : Turn state next page := by
  cases label with
  | cpu1 => exact (cpu1_turn inv stepped page).1
  | worker => exact worker_turn inv stepped page
  | write bus => exact .kept (writer_turn spares here (.inl ⟨bus, rfl⟩) stepped).1
  | writer => exact .kept (writer_turn spares here (.inr rfl) stepped).1
  | service =>
      obtain ⟨cache, chip, party, worker, writer, history⟩ := state
      cases worker with
      | idle =>
          simp only [step, service] at stepped
          split at stepped <;> cases stepped <;> exact .kept rfl
      | _ => cases stepped
  | _ =>
      obtain ⟨cache, chip, party, worker, writer, history⟩ := state
      cases party with
      | idle =>
          first
            | (cases stepped; exact .kept rfl)
            | (simp only [step, read] at stepped
               split at stepped <;> cases stepped <;> exact .kept rfl)
            | (simp only [step, prefetch] at stepped
               split at stepped <;> cases stepped <;> exact .kept rfl)
      | _ => cases stepped

/-- A ready page stays ready. -/
theorem Turn.ready (turn : Turn state next page) (present : state.cache.tagOf page = ready) :
    next.cache.tagOf page = ready := by
  cases turn with
  | kept same => exact (congrArg tag same).trans present
  | marked before => exact absurd (before.symm.trans present) (by decide)
  | claimed before => exact absurd (before.symm.trans present) (by decide)
  | published _ after => exact after
  | discarded before => exact absurd (before.symm.trans present) (by decide)

/-- A page that has been asked for is not forgotten, unless its load is stale. -/
theorem Turn.present (turn : Turn state next page) (current : Current state page)
    (asked : state.cache.tagOf page ≠ missing) : next.cache.tagOf page ≠ missing := by
  cases turn with
  | kept same => exact fun absent => asked ((congrArg tag same).symm.trans absent)
  | marked _ after => exact fun absent => absurd (after.symm.trans absent) (by decide)
  | claimed _ after => exact fun absent => absurd (after.symm.trans absent) (by decide)
  | published _ after => exact fun absent => absurd (after.symm.trans absent) (by decide)
  | discarded _ stale => exact absurd stale current.stale

/-- Nothing is expected of a page without a load. -/
theorem Worker.expects_none {worker : Worker} {word : UInt64} {motive : Prop}
    (none : worker.expects = none) (expects : worker.expects = some (page, word)) : motive := by
  rw [none] at expects
  cases expects

/-- A step that leaves the page and its load. -/
theorem Current.kept (current : Current state page)
    (same : next.cache.pageMeta page = state.cache.pageMeta page)
    (worker : next.worker = state.worker) : Current next page where
  expected word expects := same.trans (current.expected word (worker ▸ expects))
  stale := worker ▸ current.stale

/-- A step of CPU1 leaves the page being loaded. -/
theorem Current.cpu1 (current : Current state page) (inv : Requests state) (inside : page < pageCount)
    (moved : cpu1 state = some next) : Current next page := by
  obtain ⟨turn, worker⟩ := cpu1_turn inv moved page
  refine ⟨fun word expects => ?_, worker ▸ current.stale⟩
  have same := current.expected word (worker ▸ expects)
  have busy : state.cache.tagOf page = loading :=
    (inv.loadingIff page inside).mpr (Worker.expects_loading (worker ▸ expects))
  have still : next.cache.tagOf page = loading :=
    ((cpu1_requests inv moved).loadingIff page inside).mpr (Worker.expects_loading expects)
  cases turn with
  | kept kept => exact kept.trans same
  | marked before => exact absurd (before.symm.trans busy) (by decide)
  | claimed before => exact absurd (before.symm.trans busy) (by decide)
  | published _ after => exact absurd (after.symm.trans still) (by decide)
  | discarded _ stale => exact absurd stale current.stale

/-- A load that starts is not superseded, and one that is found stale was. -/
theorem Current.worker (current : Current state page) (inv : Requests state)
    (moved : worker state = some next) : Current next page := by
  obtain ⟨cache, chip, party, position, writer, history⟩ := state
  obtain ⟨expected, stale⟩ := current
  cases position with
  | claim stored old =>
      obtain ⟨first, queue⟩ : history.queue.head? = some stored ∧ tag old = queued := inv.worker
      simp only [PageCache.worker] at moved
      rw [if_neg (not_not.mpr queue)] at moved
      split at moved <;> cases moved
      · refine ⟨fun word expects => ?_, nowhere⟩
        cases expects
        exact Function.update_self _ _ _
      · exact ⟨fun _ => Worker.expects_none rfl, nowhere⟩
  | copy stored word offset =>
      simp only [PageCache.worker] at moved
      split at moved <;> cases moved <;> exact ⟨expected, nowhere⟩
  | publish stored word =>
      simp only [PageCache.worker] at moved
      split at moved <;> cases moved
      · exact ⟨fun _ => Worker.expects_none rfl, nowhere⟩
      next changed =>
        refine ⟨fun _ => Worker.expects_none rfl, fun here => ?_⟩
        cases here
        exact changed (expected word rfl)
  | unreserve stored word | report stored word =>
      cases moved
      exact ⟨fun _ => Worker.expects_none rfl, stale⟩
  | discard stored word =>
      simp only [PageCache.worker] at moved
      split at moved
      · cases moved
        exact ⟨fun _ => Worker.expects_none rfl, nowhere⟩
      · split at moved <;> cases moved
        · exact ⟨fun _ => Worker.expects_none rfl, nowhere⟩
        · exact ⟨fun _ => Worker.expects_none rfl, stale⟩
  | store stored word offset value | loadHead stored word | gauge stored word pending
  | reserve stored word =>
      cases moved
      exact ⟨expected, nowhere⟩
  | idle => cases moved
  | loadMeta | skipped | announce =>
      cases moved
      exact ⟨fun _ => Worker.expects_none rfl, nowhere⟩

/-- No load of a page that is spared becomes stale. -/
theorem step_current {label : Label} (spares : Spares pages label state) (here : pages page)
    (inv : Requests state) (inside : page < pageCount) (stepped : step label state = some next)
    (current : Current state page) : Current next page := by
  cases label with
  | cpu1 => exact current.cpu1 inv inside stepped
  | worker => exact current.worker inv stepped
  | write bus =>
      obtain ⟨same, worker⟩ := writer_turn spares here (.inl ⟨bus, rfl⟩) stepped
      exact current.kept same worker
  | writer =>
      obtain ⟨same, worker⟩ := writer_turn spares here (.inr rfl) stepped
      exact current.kept same worker
  | service =>
      obtain ⟨cache, chip, party, worker, writer, history⟩ := state
      cases worker with
      | idle =>
          simp only [step, service] at stepped
          split at stepped <;> cases stepped
          · exact ⟨fun _ => Worker.expects_none rfl, nowhere⟩
          · exact current.kept rfl rfl
      | _ => cases stepped
  | _ =>
      obtain ⟨cache, chip, party, worker, writer, history⟩ := state
      cases party with
      | idle =>
          first
            | (cases stepped; exact current.kept rfl rfl)
            | (simp only [step, read] at stepped
               split at stepped <;> cases stepped <;> exact current.kept rfl rfl)
            | (simp only [step, prefetch] at stepped
               split at stepped <;> cases stepped <;> exact current.kept rfl rfl)
      | _ => cases stepped

section Runs

variable {labels : List Label}

/-- A ready page stays ready while it is spared. -/
theorem run_ready (inv : Requests state) (here : pages page)
    (run : machine.Runs (Spares pages) state labels next)
    (present : state.cache.tagOf page = ready) : next.cache.tagOf page = ready :=
  (run.invariant (motive := fun state => Requests state ∧ state.cache.tagOf page = ready)
    (fun _ _ _ spares stepped held =>
      ⟨step_requests held.1 stepped, (step_turn spares here held.1 stepped).ready held.2⟩)
    ⟨inv, present⟩).2

/-- A page that has been asked for is not forgotten while it is spared. -/
theorem run_present (inv : Requests state) (inside : page < pageCount) (here : pages page)
    (run : machine.Runs (Spares pages) state labels next) (current : Current state page)
    (asked : state.cache.tagOf page ≠ missing) : next.cache.tagOf page ≠ missing :=
  (run.invariant
    (motive := fun state => Requests state ∧ Current state page ∧ state.cache.tagOf page ≠ missing)
    (fun _ _ _ spares stepped held => ⟨step_requests held.1 stepped,
      step_current spares here held.1 inside stepped held.2.1,
      (step_turn spares here held.1 stepped).present held.2.1 held.2.2⟩)
    ⟨inv, current, asked⟩).2.2

theorem run_current (inv : Requests state) (inside : page < pageCount) (here : pages page)
    (run : machine.Runs (Spares pages) state labels next) (current : Current state page) :
    Current next page :=
  (run.invariant (motive := fun state => Requests state ∧ Current state page)
    (fun _ _ _ spares stepped held =>
      ⟨step_requests held.1 stepped, step_current spares here held.1 inside stepped held.2⟩)
    ⟨inv, current⟩).2

end Runs

/-- A page that has been asked for is there when nobody is working any more. -/
theorem Requests.rest_ready (inv : Requests state) (cpu1 : state.cpu1 = .idle)
    (worker : state.worker = .idle) (served : state.cache.servicePending = false)
    (inside : page < pageCount) (asked : state.cache.tagOf page ≠ missing) :
    state.cache.tagOf page = ready := by
  have empty : state.history.queue = [] := by
    refine inv.ring.head_eq_tail_iff.mp ?_
    simp only [Cache.servicePending, inv.enabled, Bool.true_and, bne_eq_false_iff_eq] at served
    exact served.symm
  rcases tag_cases (state.cache.pageMeta page) with absent | queue | busy | present
  · exact absurd absent asked
  · rcases ((inv.queuedIff page inside).mp queue).1 with member | marked
    · rw [empty] at member
      cases member
    · rw [cpu1] at marked
      cases marked
  · have loads := (inv.loadingIff page inside).mp busy
    rw [worker] at loads
    cases loads
  · exact present

end Paulastorm.Mirror.PageCache
