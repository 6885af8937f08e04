import Paulastorm.Mirror.PageCache.Requests

namespace Paulastorm.Mirror.PageCache

/-! Every queued page is served, in order, one page a service call. -/

open Library

/-- The page whose slot is released but whose load is not finished. -/
def Worker.released : Worker → Option Nat
  | .loadHead page _ | .gauge page _ _ | .reserve page _ | .publish page _ | .unreserve page _
  | .report page _ | .discard page _ => some page
  | _ => none

/-- Calls that have served their page but not returned yet. -/
def Worker.finishing : Worker → Nat
  | .announce _ => 1
  | _ => 0

/-- A service call is in progress. -/
def Worker.busy : Worker → Nat
  | .idle => 0
  | _ => 1

/-- Every page requested so far, in order: served, being finished, queued. -/
def State.order (state : State) : List Nat :=
  state.history.served ++ state.worker.released.toList ++ state.history.queue

/-- The calls that have served their page or found none. -/
def State.worked (state : State) : Nat := state.history.finished + state.worker.finishing

/-- Neither queued nor loading. -/
def Settled (state : State) (page : Nat) : Prop :=
  state.cache.tagOf page ≠ queued ∧ state.cache.tagOf page ≠ loading

/-- What one step does to the order of service. -/
structure Served (state next : State) : Prop where
  order : state.order <+: next.order
  served : next.history.served = state.history.served ∨
    ∃ page, next.history.served = state.history.served ++ [page] ∧ Settled next page
  worked : next.worked + state.history.served.length = state.worked + next.history.served.length ∨
    next.history.served = next.order

theorem Served.unchanged {state next : State} (served : next.history.served = state.history.served)
    (order : state.order <+: next.order) (worked : next.worked = state.worked) :
    Served state next :=
  ⟨order, .inl served, .inl (by rw [served, worked])⟩

/-- The page leaves the loading state: it is served by this step. -/
theorem Served.finish {state next : State} {page : Nat}
    (released : state.worker.released = some page) (after : next.worker.released = none)
    (served : next.history.served = state.history.served ++ [page])
    (queue : next.history.queue = state.history.queue) (settled : Settled next page)
    (worked : next.worked = state.worked + 1) : Served state next where
  order := by
    rw [State.order, State.order, released, after, served, queue]
    simp
  served := .inr ⟨page, served, settled⟩
  worked := .inl (by
    rw [worked, served, List.length_append, List.length_singleton]
    omega)

variable {state next : State}

theorem worker_served (inv : Requests state) (moved : worker state = some next) :
    Served state next := by
  obtain ⟨cache, chip, party, position, writer, history⟩ := state
  cases position with
  | idle => cases moved
  | skipped => exact absurd inv.worker id
  | claim page old =>
      obtain ⟨_, one⟩ : history.queue.head? = some page ∧ tag old = queued := inv.worker
      simp only [worker] at moved
      rw [if_neg (not_not.mpr one)] at moved
      split at moved <;> cases moved <;> exact .unchanged rfl (List.prefix_refl _) rfl
  | copy page expected offset =>
      obtain ⟨first, _⟩ : history.queue.head? = some page ∧ tag expected = loading := inv.worker
      obtain ⟨rest, queue⟩ : ∃ rest, history.queue = page :: rest := List.head?_eq_some_iff.mp first
      simp only [worker] at moved
      split at moved <;> cases moved
      · exact .unchanged rfl (List.prefix_refl _) rfl
      · refine .unchanged rfl ?_ rfl
        simp [State.order, Worker.released, queue]
  | publish page expected =>
      obtain ⟨_, _, two⟩ := inv.worker
      simp only [worker] at moved
      split at moved <;> cases moved
      · refine .finish rfl rfl rfl rfl ?_ rfl
        have three : tag ((Function.update cache.pageMeta page (published expected) :
            Nat → UInt64) page) = ready := by
          rw [Function.update_self]
          exact tag_published two
        exact ⟨fun one => absurd (three.symm.trans one) (by decide),
          fun two => absurd (three.symm.trans two) (by decide)⟩
      · exact .unchanged rfl (List.prefix_refl _) rfl
  | announce page =>
      simp only [worker] at moved
      cases moved
      split <;> exact .unchanged rfl (List.prefix_refl _) rfl
  | discard page compare =>
      obtain ⟨_, _, two⟩ := inv.worker
      simp only [worker] at moved
      rw [if_neg (not_not.mpr two)] at moved
      split at moved <;> cases moved
      · refine .finish rfl rfl rfl rfl ?_ rfl
        have zero : tag ((Function.update cache.pageMeta page (discarded compare) :
            Nat → UInt64) page) = missing := by
          rw [Function.update_self]
          exact tag_discarded compare
        exact ⟨fun one => absurd (zero.symm.trans one) (by decide),
          fun two => absurd (zero.symm.trans two) (by decide)⟩
      · exact .unchanged rfl (List.prefix_refl _) rfl
  | _ =>
      cases moved
      exact .unchanged rfl (List.prefix_refl _) rfl

theorem service_served (inv : Requests state) (begun : service state = some next) :
    Served state next := by
  obtain ⟨cache, chip, party, position, writer, history⟩ := state
  cases position with
  | idle =>
      simp only [service] at begun
      split at begun <;> cases begun
      · exact .unchanged rfl (List.prefix_refl _) rfl
      next nothing =>
        have enabled : cache.enabled = true := inv.enabled
        have empty : history.queue = [] := by
          refine inv.ring.head_eq_tail_iff.mp ?_
          by_contra different
          refine nothing ?_
          simp only [Cache.servicePending, enabled, Bool.true_and, bne_iff_ne]
          exact fun same => different same.symm
        refine ⟨List.prefix_refl _, .inl rfl, .inr ?_⟩
        simp [State.order, State.finishService, Worker.released, empty]
  | _ => cases begun

theorem cpu1_served (moved : cpu1 state = some next) : Served state next := by
  obtain ⟨cache, chip, party, position, writer, history⟩ := state
  cases party with
  | idle => cases moved
  | publish page after =>
      cases moved
      refine .unchanged rfl ?_ rfl
      rw [State.order, State.order, ← List.append_assoc]
      exact List.prefix_append _ _
  | check | loadMeta =>
      simp only [cpu1] at moved
      split at moved <;> cases moved <;> exact .unchanged rfl (List.prefix_refl _) rfl
  | casMeta =>
      simp only [cpu1] at moved
      split at moved
      · cases moved
        exact .unchanged rfl (List.prefix_refl _) rfl
      · split at moved <;> cases moved <;> exact .unchanged rfl (List.prefix_refl _) rfl
  | _ =>
      cases moved
      exact .unchanged rfl (List.prefix_refl _) rfl

theorem step_served {label : Label} (inv : Requests state) (stepped : step label state = some next) :
    Served state next := by
  cases label with
  | cpu1 => exact cpu1_served stepped
  | service => exact service_served inv stepped
  | worker => exact worker_served inv stepped
  | writer =>
      obtain ⟨cache, chip, party, worker, position, history⟩ := state
      cases position with
      | idle => cases stepped
      | cas page last old =>
          simp only [step, writer] at stepped
          split at stepped
          · cases stepped
            exact .unchanged rfl (List.prefix_refl _) rfl
          · split at stepped <;> cases stepped <;> exact .unchanged rfl (List.prefix_refl _) rfl
      | _ =>
          cases stepped
          exact .unchanged rfl (List.prefix_refl _) rfl
  | write bus =>
      obtain ⟨cache, chip, party, worker, position, history⟩ := state
      cases position with
      | idle =>
          simp only [step, write] at stepped
          split at stepped <;> cases stepped
          exact .unchanged rfl (List.prefix_refl _) rfl
      | _ => cases stepped
  | read address =>
      obtain ⟨cache, chip, party, worker, position, history⟩ := state
      cases party with
      | idle =>
          simp only [step, read] at stepped
          split at stepped <;> cases stepped <;> exact .unchanged rfl (List.prefix_refl _) rfl
      | _ => cases stepped
  | prefetch address length =>
      obtain ⟨cache, chip, party, worker, position, history⟩ := state
      cases party with
      | idle =>
          simp only [step, prefetch] at stepped
          split at stepped <;> cases stepped <;> exact .unchanged rfl (List.prefix_refl _) rfl
      | _ => cases stepped
  | _ =>
      obtain ⟨cache, chip, party, worker, position, history⟩ := state
      cases party with
      | idle =>
          cases stepped
          exact .unchanged rfl (List.prefix_refl _) rfl
      | _ => cases stepped

variable {labels : List Label} {allowed : Label → State → Prop}

theorem run_requests (inv : Requests state) (run : machine.Runs allowed state labels next) :
    Requests next :=
  run.invariant (fun _ _ _ _ stepped inv => step_requests inv stepped) inv

/-- Every service call that completes serves the next page in order, as long as
one is waiting. -/
structure Progress (start state : State) : Prop where
  requests : Requests state
  order : start.order <+: state.order
  served : start.history.served <+: state.history.served
  worked : start.order.length ≤ state.history.served.length ∨
    state.worked + start.history.served.length = start.worked + state.history.served.length

theorem step_progress {start : State} {label : Label} (progress : Progress start state)
    (stepped : step label state = some next) : Progress start next := by
  obtain ⟨held, order, before, worked⟩ := progress
  obtain ⟨grown, served, even⟩ := step_served held stepped
  have longer : state.history.served <+: next.history.served := by
    rcases served with same | ⟨page, more, _⟩
    · exact same ▸ List.prefix_refl _
    · exact more ▸ List.prefix_append _ _
  refine ⟨step_requests held stepped, order.trans grown, before.trans longer, ?_⟩
  rcases worked with done | worked
  · exact .inl (done.trans longer.length_le)
  rcases even with even | all
  · exact .inr (by omega)
  · exact .inl (all ▸ (order.trans grown).length_le)

theorem run_progress (inv : Requests state) (run : machine.Runs allowed state labels next) :
    Progress state next :=
  run.invariant (fun _ _ _ _ stepped progress => step_progress progress stepped)
    ⟨inv, List.prefix_refl _, List.prefix_refl _, .inr rfl⟩

/-- A page that a run serves is settled somewhere on the way. -/
theorem served_settled (inv : Requests state) (run : machine.Runs allowed state labels next)
    {index : Nat} (after : state.history.served.length ≤ index) {page : Nat}
    (served : next.history.served[index]? = some page) :
    ∃ first second middle, labels = first ++ second ∧ machine.Runs allowed state first middle ∧
      machine.Runs allowed middle second next ∧ Settled middle page := by
  induction run with
  | refl state =>
      rw [List.getElem?_eq_none after] at served
      cases served
  | step permitted stepped rest ih =>
      rename_i before middle last label labels
      have held := step_requests inv stepped
      have later : middle.history.served.length ≤ index →
          ∃ first second found, label :: labels = first ++ second ∧
            machine.Runs allowed before first found ∧ machine.Runs allowed found second last ∧
            Settled found page := by
        intro beyond
        obtain ⟨first, second, found, split, early, late, settled⟩ := ih held beyond served
        exact ⟨label :: first, second, found, by rw [split]; rfl, .step permitted stepped early,
          late, settled⟩
      rcases (step_served inv stepped).served with same | ⟨page', more, settled⟩
      · exact later (same ▸ after)
      · by_cases here : index = before.history.served.length
        · have inside : index < middle.history.served.length := by simp [more, here]
          have kept := (run_progress held rest).served.getElem inside
          have found : middle.history.served[index]? = some page' := by simp [more, here]
          rw [List.getElem?_eq_getElem inside, Option.some.injEq] at found
          rw [List.getElem?_eq_some_iff] at served
          obtain ⟨_, value⟩ := served
          have equal : page' = page := found.symm.trans (kept.trans value)
          exact ⟨[label], labels, middle, rfl, .step permitted stepped (.refl _), rest,
            equal ▸ settled⟩
        · refine later ?_
          rw [more, List.length_append, List.length_singleton]
          omega

/-- The page in the queue slot `index` places behind the tail. -/
def State.entry (state : State) (index : Nat) : Nat :=
  pageIn state.cache
    (Ring.slot requestCapacity (state.cache.requestTail + UInt32.ofNat index))

/-- The number of queued requests. -/
def State.waiting (state : State) : Nat := (state.cache.requestHead - state.cache.requestTail).toNat

/-- No page is stranded, queued twice or overwritten, in terms of the queue's slots. -/
structure Unstranded (state : State) : Prop where
  bounded : state.waiting ≤ pageCount
  valid : ∀ index, index < state.waiting → state.entry index < pageCount
  /-- The stored pages are pairwise distinct. -/
  distinct : ∀ first second, first < state.waiting → second < state.waiting →
    state.entry first = state.entry second → first = second
  /-- They are queued, but for the front one while it is being loaded. -/
  states : ∀ index, index < state.waiting → state.cache.tagOf (state.entry index) = queued ∨
    (index = 0 ∧ state.cache.tagOf (state.entry index) = loading ∧
      state.worker.loading = some (state.entry index))
  /-- A page is queued or loading only if someone is going to settle it. -/
  owned : ∀ page, page < pageCount →
    state.cache.tagOf page = queued ∨ state.cache.tagOf page = loading →
      (∃ index, index < state.waiting ∧ state.entry index = page) ∨
        state.cpu1.pending = some page ∨ state.worker.released = some page
  /-- The slot that CPU1 fills is free. -/
  room : ∀ page, state.cpu1.pending = some page → state.waiting < pageCount
  /-- The worker always finds the page it takes in the queued state. -/
  claims : ∀ page old, state.worker = .claim page old → tag old = queued
  neverSkips : state.worker ≠ .skipped

theorem Requests.entry_eq (inv : Requests state) {index : Nat}
    (inside : index < state.history.queue.length) :
    state.entry index = state.history.queue[index] :=
  inv.ring.holds index inside

theorem Requests.unstranded (inv : Requests state) : Unstranded state := by
  have length : state.waiting = state.history.queue.length := inv.ring.pending
  have entry : ∀ index (inside : index < state.waiting), ∃ inside' : index < state.history.queue.length,
      state.entry index = state.history.queue[index] :=
    fun index inside => ⟨length ▸ inside, inv.entry_eq (length ▸ inside)⟩
  have member : ∀ index, index < state.waiting → state.entry index ∈ state.history.queue := by
    intro index inside
    obtain ⟨inside', value⟩ := entry index inside
    exact value ▸ List.getElem_mem inside'
  have held := inv.worker
  refine {
    bounded := length ▸ inv.ring.bounded
    valid := fun index inside => inv.bounded _ (member index inside)
    distinct := ?_, states := ?_, owned := ?_, room := ?_, claims := ?_, neverSkips := ?_ }
  · intro first second insideFirst insideSecond same
    obtain ⟨first', valueFirst⟩ := entry first insideFirst
    obtain ⟨second', valueSecond⟩ := entry second insideSecond
    exact (List.Nodup.getElem_inj_iff inv.distinct).mp
      (valueFirst.symm.trans (same.trans valueSecond))
  · intro index inside
    have below := inv.bounded _ (member index inside)
    by_cases busy : state.worker.loading = some (state.entry index)
    · refine .inr ⟨?_, (inv.loadingIff _ below).mpr busy, busy⟩
      obtain ⟨inside', value⟩ := entry index inside
      have first : state.history.queue.head? = some (state.entry index) := by
        have absent := member index inside
        cases position : state.worker <;> simp only [position, Worker.loading, Option.some.injEq,
          reduceCtorEq, WorkerHolds] at busy held
        all_goals first
          | (subst busy; exact held.1)
          | (subst busy; exact absurd absent held.1)
      rw [List.head?_eq_getElem?, List.getElem?_eq_some_iff] at first
      obtain ⟨nonempty, front⟩ := first
      exact ((List.Nodup.getElem_inj_iff inv.distinct).mp (front.trans value)).symm
    · exact .inl ((inv.queuedIff _ below).mpr ⟨.inl (member index inside), busy⟩)
  · intro page below active
    have listed : ∀ page, page ∈ state.history.queue →
        ∃ index, index < state.waiting ∧ state.entry index = page := by
      intro page member
      obtain ⟨index, inside, value⟩ := List.mem_iff_getElem.mp member
      exact ⟨index, length ▸ inside, (inv.entry_eq inside).trans value⟩
    rcases active with one | two
    · rcases ((inv.queuedIff page below).mp one).1 with member | marked
      · exact .inl (listed page member)
      · exact .inr (.inl marked)
    · have busy := (inv.loadingIff page below).mp two
      cases position : state.worker <;> simp only [position, Worker.loading, Option.some.injEq,
        reduceCtorEq, WorkerHolds] at busy held
      all_goals first
        | (subst busy; exact .inl (listed _ (List.mem_of_mem_head? held.1)))
        | (subst busy; exact .inr (.inr rfl))
  · intro page marked
    obtain ⟨below, fresh, _⟩ := inv.pending page marked
    exact length ▸ room_of_distinct inv.distinct inv.bounded below fresh
  · intro page old position
    rw [position] at held
    exact held.2
  · intro position
    rw [position] at held
    exact held

/-- From any state of a run on, every page then queued has been settled once
as many further service calls have completed as requests were waiting. -/
theorem Requests.drains (inv : Requests state) (run : machine.Runs allowed state labels next)
    (calls : state.history.finished + state.worker.busy + state.waiting ≤ next.history.finished)
    {index : Nat} (inside : index < state.waiting) :
    ∃ first second middle, labels = first ++ second ∧ machine.Runs allowed state first middle ∧
      machine.Runs allowed middle second next ∧ Settled middle (state.entry index) := by
  have length : state.waiting = state.history.queue.length := inv.ring.pending
  have progress := run_progress inv run
  have released : state.worker.released.toList.length + state.worker.finishing ≤
      state.worker.busy := by
    cases state.worker <;> simp [Worker.released, Worker.finishing, Worker.busy]
  have total : state.order.length = state.history.served.length +
      state.worker.released.toList.length + state.history.queue.length := by
    simp only [State.order, List.length_append]
  have done : state.order.length ≤ next.history.served.length := by
    rcases progress.worked with done | even
    · exact done
    · simp only [State.worked] at even
      omega
  obtain ⟨more, grown⟩ := progress.order
  have here : state.history.served.length + state.worker.released.toList.length + index <
      state.order.length := by omega
  have later : next.history.served[state.history.served.length +
      state.worker.released.toList.length + index]? = some (state.entry index) := by
    calc next.history.served[_]?
        = next.order[state.history.served.length + state.worker.released.toList.length + index]? := by
          rw [State.order, List.append_assoc, List.getElem?_append_left (Nat.lt_of_lt_of_le here done)]
      _ = state.order[state.history.served.length +
            state.worker.released.toList.length + index]? := by
          rw [← grown, List.getElem?_append_left here]
      _ = state.history.queue[index]? := by
          rw [State.order, List.getElem?_append_right (by simp)]
          simp
      _ = some (state.entry index) := by
          rw [inv.entry_eq (length ▸ inside), List.getElem?_eq_getElem]
  exact served_settled inv run (by omega) later

/-- Over every interleaving of page requests, service calls and invalidations,
of any length, no page request is stranded, duplicated or overwritten: the queue
is always sound, and from every reachable state each queued page is settled by
the time as many further service calls have completed as requests were waiting. -/
theorem requests_never_stranded {cache : Cache} {chip : Nat → UInt8} {labels : List Label}
    {state : State} (run : machine.Runs Machine.anyStep (start cache chip) labels state) :
    Unstranded state ∧ ∀ labels' next, machine.Runs Machine.anyStep state labels' next →
      state.history.finished + state.worker.busy + state.waiting ≤ next.history.finished →
      ∀ index, index < state.waiting → ∃ first second middle, labels' = first ++ second ∧
        machine.Runs Machine.anyStep state first middle ∧
        machine.Runs Machine.anyStep middle second next ∧ Settled middle (state.entry index) := by
  have inv := run_requests (start_requests cache chip) run
  exact ⟨inv.unstranded, fun labels' next rest calls index inside => inv.drains rest calls inside⟩

/-- The cleared cache of the sample runs. -/
def sampleCache : Cache where
  pageMeta := fun _ => 0
  shadow := fun _ => 0
  pageMissSeen := fun _ => false
  requests := fun _ => 0
  requestHead := 0
  requestTail := 0
  misses := 0
  pagesReady := 0
  invalidAddresses := 0
  renderMiss := false
  enabled := false
  metrics := Probe.init

/-- CPU1 requests page 5 while page 3 is being loaded. -/
def twoRequests : List Label :=
  .request 3 :: List.replicate 6 .cpu1 ++ .service :: List.replicate 4 .worker ++
    .request 5 :: List.replicate 6 .cpu1

theorem requests_never_stranded_of_twoRequests : ∃ state,
    machine.Runs Machine.anyStep (start sampleCache fun _ => 0) twoRequests state ∧
    (state.waiting, state.entry 0, state.entry 1) = (2, 3, 5) ∧ Unstranded state := by
  have executed : (machine.run Machine.anyStep twoRequests (start sampleCache fun _ => 0)).map
      (fun state => (state.waiting, state.entry 0, state.entry 1)) = some (2, 3, 5) := rfl
  obtain ⟨state, run, waiting⟩ := Machine.runs_of_observed executed
  exact ⟨state, run, waiting, (requests_never_stranded run).1⟩

end Paulastorm.Mirror.PageCache
