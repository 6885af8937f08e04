import Paulastorm.Library.Gauge
import Paulastorm.Mirror.EventRing.Delivery
import Paulastorm.Mirror.PageCache.Service

namespace Paulastorm.Mirror

/-! The two gauges of pending work, `PP_PENDING` and `PP_CACHE_PENDING`.

Each of them is stored by both processors from counters loaded separately.  A store
can land after the other side's newer one, so a gauge is not always right at rest.
-/

open Library Probe

namespace EventRing

/-- What a step does with the gauge and the counters of the ring. -/
def gaugeEvents : Label → State → List Gauge.Event
  | .produce _, state =>
      match state.producer with
      | .loadTail _ => [.loadTail]
      | .fill _ _ _ field => if field < 5 then [] else [.publish]
      | .gauge _ => [.storeHead]
      | _ => []
  | .consume, state =>
      match state.consumer with
      | .advance tail => [.retire (tail + 1)]
      | .popPending _ => [.loadHead]
      | .popGauge _ => [.storeTail]
      | .loadHead => [.loadHead]
      | .discard head => [.retire head]
      | .snapshotGauge => [.storeTail]
      | _ => []
  | _, _ => []

/-- The producer has published an event and not stored the gauge since. -/
def Producer.owes : Producer → Bool
  | .count _ _ _ | .gauge _ => true
  | _ => false

/-- The consumer has retired events and not stored the gauge since. -/
def Consumer.owes : Consumer → Bool
  | .popPending _ | .popGauge _ | .snapshotGauge => true
  | _ => false

/-- The producer's local values, by the counters they were loaded from. -/
def ProducerGauged (gauge : Gauge) : Producer → Prop
  | .test _ tail | .fill _ tail _ _ | .count _ tail _ => tail = gauge.seenTail
  | .gauge pending => pending = gauge.head - gauge.seenTail
  | _ => True

/-- The consumer's local values, by the counters they were loaded from. -/
def ConsumerGauged (gauge : Gauge) : Consumer → Prop
  | .advance tail => tail = gauge.tail
  | .popPending tail => tail + 1 = gauge.tail
  | .popGauge pending => pending = gauge.seenHead - gauge.tail
  | .loadTail head | .copyLatest head _ | .loadDropped head | .discard head =>
      head = gauge.seenHead
  | .snapshotGauge => gauge.seenHead = gauge.tail
  | _ => True

/-- The gauge follows the ring. -/
structure Gauged (state : State) (gauge : Gauge) : Prop where
  settled : gauge.Settled
  head : gauge.head = state.shared.eventHead
  tail : gauge.tail = state.shared.eventTail
  shown : gauge.shown = get state.shared.metrics ppPending
  headOwes : gauge.headOwes = state.producer.owes
  tailOwes : gauge.tailOwes = state.consumer.owes
  producer : ProducerGauged gauge state.producer
  consumer : ConsumerGauged gauge state.consumer

theorem start_gauged (events : Nat → Event) {metrics : Metrics} (out : Out)
    (cleared : get metrics ppPending = 0) : Gauged (start events metrics out) .start where
  settled := Gauge.start_settled
  head := rfl
  tail := rfl
  shown := by
    change 0 = get (flag metrics ppFlagArmed true) ppPending
    rw [get_flag_of_ne (by decide), cleared]
  headOwes := rfl
  tailOwes := rfl
  producer := trivial
  consumer := trivial

theorem noteCaptured_pending (metrics : Metrics) (call : Call) (event : Event) :
    get (noteCaptured metrics call event) ppPending = get metrics ppPending := by
  simp [noteCaptured]

theorem step_gauged {label : Label} {state next : State} {gauge : Gauge}
    (stepped : machine.step label state = some next) (held : Gauged state gauge) :
    Gauged next ((gaugeEvents label state).foldl Gauge.apply gauge) := by
  obtain ⟨shared, producer, consumer, out, history⟩ := state
  cases label with
  | capture call =>
      cases producer with
      | idle =>
          simp only [machine, step, capture] at stepped
          split at stepped <;> cases stepped
          · exact { held with producer := trivial }
          · exact held
      | _ => cases stepped
  | begin operation =>
      cases consumer <;> cases operation <;> cases stepped
      all_goals exact { held with consumer := trivial }
  | produce ticks =>
      cases producer with
      | idle => cases stepped
      | exchange call =>
          simp only [machine, step, produce] at stepped
          split at stepped <;> cases stepped <;> exact { held with producer := trivial }
      | refuse call =>
          cases stepped
          exact { held with
            shown := by simpa [gaugeEvents] using held.shown }
      | shadow call =>
          cases stepped
          exact { held with }
      | stamp call =>
          cases stepped
          exact { held with }
      | loadTail call =>
          cases stepped
          exact { held with
            settled := Gauge.apply_settled held.settled .loadTail
            producer := held.tail.symm
            consumer := by cases consumer <;> exact held.consumer }
      | test call tail =>
          simp only [machine, step, produce] at stepped
          split at stepped <;> cases stepped
          · exact { held with producer := trivial }
          · exact { held with producer := held.producer }
      | overflow call =>
          cases stepped
          exact { held with
            shown := by simpa [gaugeEvents] using held.shown }
      | fill call tail event field =>
          simp only [machine, step, produce] at stepped
          split at stepped <;> cases stepped
          next more =>
            simp only [gaugeEvents, if_pos more]
            exact { held with producer := held.producer }
          next complete =>
            simp only [gaugeEvents, if_neg complete]
            exact { held with
              settled := Gauge.apply_settled held.settled .publish
              head := congrArg (· + 1) held.head
              headOwes := rfl
              producer := held.producer
              consumer := by cases consumer <;> exact held.consumer }
      | count call tail event =>
          cases stepped
          have seen : tail = gauge.seenTail := held.producer
          exact { held with
            shown := by
              change gauge.shown = get (noteCaptured shared.metrics call event) ppPending
              rw [noteCaptured_pending]
              exact held.shown
            producer := by
              change shared.eventHead - tail = gauge.head - gauge.seenTail
              rw [held.head, seen] }
      | gauge pending =>
          cases stepped
          have value : pending = gauge.head - gauge.seenTail := held.producer
          exact { held with
            settled := Gauge.apply_settled held.settled .storeHead
            shown := by
              change gauge.head - gauge.seenTail = get (set shared.metrics ppPending pending) ppPending
              rw [get_set_self (by decide) (by decide), value]
            headOwes := rfl
            producer := trivial
            consumer := by cases consumer <;> exact held.consumer }
      | release =>
          cases stepped
          exact { held with producer := trivial }
  | consume =>
      cases consumer with
      | idle => cases stepped
      | peek =>
          simp only [machine, step, consume] at stepped
          split at stepped <;> cases stepped <;> exact { held with consumer := trivial }
      | copy field =>
          simp only [machine, step, consume] at stepped
          split at stepped <;> cases stepped <;> exact { held with consumer := trivial }
      | pop =>
          simp only [machine, step, consume] at stepped
          split at stepped <;> cases stepped
          · exact { held with consumer := trivial }
          · exact { held with consumer := held.tail.symm }
      | advance tail =>
          cases stepped
          exact { held with
            settled := Gauge.apply_settled held.settled (.retire (tail + 1))
            tail := rfl
            shown := by
              change gauge.shown = get (add shared.metrics ppConsumed 1) ppPending
              rw [get_add_of_ne (by decide)]
              exact held.shown
            tailOwes := rfl
            producer := by cases producer <;> exact held.producer
            consumer := rfl }
      | popPending tail =>
          have moved : tail + 1 = gauge.tail := held.consumer
          cases stepped
          exact { held with
            settled := Gauge.apply_settled held.settled .loadHead
            producer := by cases producer <;> exact held.producer
            consumer := by
              change shared.eventHead - (tail + 1) = gauge.head - gauge.tail
              rw [held.head, moved] }
      | popGauge pending =>
          have value : pending = gauge.seenHead - gauge.tail := held.consumer
          cases stepped
          exact { held with
            settled := Gauge.apply_settled held.settled .storeTail
            shown := by
              change gauge.seenHead - gauge.tail = get (set shared.metrics ppPending pending) ppPending
              rw [get_set_self (by decide) (by decide), value]
            tailOwes := rfl
            producer := by cases producer <;> exact held.producer
            consumer := trivial }
      | snapshot =>
          simp only [machine, step, consume] at stepped
          split at stepped <;> cases stepped <;> exact { held with consumer := trivial }
      | loadHead =>
          cases stepped
          exact { held with
            settled := Gauge.apply_settled held.settled .loadHead
            producer := by cases producer <;> exact held.producer
            consumer := held.head.symm }
      | loadTail head =>
          cases stepped
          exact { held with consumer := held.consumer }
      | copyLatest head tail =>
          cases stepped
          exact { held with consumer := held.consumer }
      | loadDropped head =>
          cases stepped
          exact { held with consumer := held.consumer }
      | discard head =>
          have seen : head = gauge.seenHead := held.consumer
          cases stepped
          exact { held with
            settled := Gauge.apply_settled held.settled (.retire head)
            tail := rfl
            shown := by
              change gauge.shown = get (add shared.metrics ppConsumed _) ppPending
              rw [get_add_of_ne (by decide)]
              exact held.shown
            tailOwes := rfl
            producer := by cases producer <;> exact held.producer
            consumer := seen.symm }
      | snapshotGauge =>
          have same : gauge.seenHead = gauge.tail := held.consumer
          cases stepped
          exact { held with
            settled := Gauge.apply_settled held.settled .storeTail
            shown := by
              change gauge.seenHead - gauge.tail = get (set shared.metrics ppPending 0) ppPending
              rw [get_set_self (by decide) (by decide), same, UInt32.sub_self]
            tailOwes := rfl
            producer := by cases producer <;> exact held.producer
            consumer := trivial }
      | release =>
          cases stepped
          exact { held with consumer := trivial }

end EventRing

namespace PageCache

/-- What a step does with the gauge and the counters of the request queue. -/
def gaugeEvents : Label → State → List Gauge.Event
  | .cpu1, state =>
      match state.cpu1 with
      | .publish _ _ => [.publish]
      | .loadTail _ => [.loadTail]
      | .gauge _ _ => [.storeHead]
      | _ => []
  | .worker, state =>
      match state.worker with
      | .claim _ old => if tag old ≠ queued then [.retire (state.cache.requestTail + 1)] else []
      | .skipped => [.loadHead, .storeTail]
      | .copy _ _ offset =>
          if offset < 256 then [] else [.retire (state.cache.requestTail + 1)]
      | .loadHead _ _ => [.loadHead]
      | .gauge _ _ _ => [.storeTail]
      | _ => []
  | _, _ => []

/-- CPU1 has published a request and not stored the gauge since. -/
def Cpu1.owes : Cpu1 → Bool
  | .loadTail _ | .gauge _ _ => true
  | _ => false

/-- The worker has released a request and not stored the gauge since. -/
def Worker.owes : Worker → Bool
  | .skipped | .loadHead _ _ | .gauge _ _ _ => true
  | _ => false

def Cpu1Gauged (gauge : Gauge) : Cpu1 → Prop
  | .gauge pending _ => pending = gauge.head - gauge.seenTail
  | _ => True

def WorkerGauged (gauge : Gauge) : Worker → Prop
  | .gauge _ _ pending => pending = gauge.seenHead - gauge.tail
  | _ => True

/-- The gauge follows the queue. -/
structure Gauged (state : State) (gauge : Gauge) : Prop where
  settled : gauge.Settled
  head : gauge.head = state.cache.requestHead
  tail : gauge.tail = state.cache.requestTail
  shown : gauge.shown = get state.cache.metrics ppCachePending
  headOwes : gauge.headOwes = state.cpu1.owes
  tailOwes : gauge.tailOwes = state.worker.owes
  cpu1 : Cpu1Gauged gauge state.cpu1
  worker : WorkerGauged gauge state.worker

theorem start_gauged {cache : Cache} (chip : Nat → UInt8)
    (cleared : get cache.metrics ppCachePending = 0) : Gauged (start cache chip) .start where
  settled := Gauge.start_settled
  head := rfl
  tail := rfl
  shown := by
    change 0 = get (flag cache.metrics ppFlagArmed true) ppCachePending
    rw [get_flag_of_ne (by decide), cleared]
  headOwes := rfl
  tailOwes := rfl
  cpu1 := trivial
  worker := trivial

theorem resume_gauged (gauge : Gauge) (after : After) :
    after.resume.owes = false ∧ Cpu1Gauged gauge after.resume := by
  cases after with
  | prefetch page last =>
      by_cases more : page < last
      · rw [After.resume, if_pos more]
        exact ⟨rfl, trivial⟩
      · rw [After.resume, if_neg more]
        exact ⟨rfl, trivial⟩
  | _ => exact ⟨rfl, trivial⟩

variable {state next : State} {gauge : Gauge}

theorem cpu1_gauged (moved : cpu1 state = some next) (held : Gauged state gauge) :
    Gauged next ((gaugeEvents .cpu1 state).foldl Gauge.apply gauge) := by
  obtain ⟨cache, chip, party, worker, writer, history⟩ := state
  cases party with
  | idle => cases moved
  | check address =>
      simp only [cpu1] at moved
      split at moved <;> cases moved
      · exact { held with cpu1 := trivial }
      · split <;> exact { held with cpu1 := trivial }
  | loadMeta page after =>
      have resumed := resume_gauged gauge after
      simp only [cpu1] at moved
      split at moved <;> cases moved
      · exact { held with headOwes := held.headOwes.trans resumed.1.symm, cpu1 := resumed.2 }
      · exact { held with cpu1 := trivial }
  | casMeta page old after =>
      have resumed := resume_gauged gauge after
      simp only [cpu1] at moved
      split at moved
      · cases moved
        exact { held with headOwes := held.headOwes.trans resumed.1.symm, cpu1 := resumed.2 }
      · split at moved <;> cases moved <;> exact { held with cpu1 := trivial }
  | fillSlot page after =>
      cases moved
      exact { held with cpu1 := trivial }
  | publish page after =>
      cases moved
      exact { held with
        settled := Gauge.apply_settled held.settled .publish
        head := congrArg (· + 1) held.head
        shown := by
          change gauge.shown = get (add cache.metrics ppCacheRequests 1) ppCachePending
          rw [get_add_of_ne (by decide)]
          exact held.shown
        headOwes := rfl
        cpu1 := trivial
        worker := by cases worker <;> exact held.worker }
  | loadTail after =>
      cases moved
      exact { held with
        settled := Gauge.apply_settled held.settled .loadTail
        cpu1 := by
          change cache.requestHead - cache.requestTail = gauge.head - gauge.tail
          rw [held.head, held.tail]
        worker := by cases worker <;> exact held.worker }
  | gauge pending after =>
      have value : pending = gauge.head - gauge.seenTail := held.cpu1
      have resumed := resume_gauged (gauge.apply .storeHead) after
      cases moved
      exact { held with
        settled := Gauge.apply_settled held.settled .storeHead
        shown := by
          change gauge.head - gauge.seenTail = get (set cache.metrics ppCachePending pending) _
          rw [get_set_self (by decide) (by decide), value]
        headOwes := resumed.1.symm
        cpu1 := resumed.2
        worker := by cases worker <;> exact held.worker }
  | missed address =>
      cases moved
      exact { held with
        shown := by
          change gauge.shown = get (add (add cache.metrics ppCacheMisses 1) ppCacheZeroReturns 1) _
          rw [get_add_of_ne (by decide), get_add_of_ne (by decide)]
          exact held.shown
        cpu1 := trivial }
  | loadShadow address =>
      cases moved
      exact { held with cpu1 := trivial }
  | prefetch page last =>
      simp only [cpu1] at moved
      cases moved
      split
      · exact { held with
          shown := by
            change gauge.shown = get (add cache.metrics ppCachePrefetchPages 1) ppCachePending
            rw [get_add_of_ne (by decide)]
            exact held.shown
          cpu1 := trivial }
      · exact { held with cpu1 := trivial }

theorem worker_gauged (moved : worker state = some next) (held : Gauged state gauge) :
    Gauged next ((gaugeEvents .worker state).foldl Gauge.apply gauge) := by
  obtain ⟨cache, chip, party, position, writer, history⟩ := state
  cases position with
  | idle => cases moved
  | loadMeta page =>
      cases moved
      exact { held with worker := trivial }
  | claim page old =>
      simp only [worker] at moved
      split at moved
      next skip =>
        cases moved
        simp only [gaugeEvents, if_pos skip]
        exact { held with
          settled := Gauge.apply_settled held.settled (.retire (cache.requestTail + 1))
          tail := rfl
          tailOwes := rfl
          cpu1 := by cases party <;> exact held.cpu1
          worker := trivial }
      next claim =>
        simp only [gaugeEvents, if_neg claim]
        split at moved <;> cases moved
        · exact { held with
            shown := by
              change gauge.shown = get (flag cache.metrics ppFlagCacheWorker true) ppCachePending
              rw [get_flag_of_ne (by decide)]
              exact held.shown
            worker := trivial }
        · exact { held with worker := trivial }
  | skipped =>
      cases moved
      have loaded := Gauge.apply_settled held.settled .loadHead
      exact { held with
        settled := Gauge.apply_settled loaded .storeTail
        shown := by
          change gauge.head - gauge.tail =
            get (set cache.metrics ppCachePending (cache.requestHead - cache.requestTail)) _
          rw [get_set_self (by decide) (by decide), held.head, held.tail]
        tailOwes := rfl
        cpu1 := by cases party <;> exact held.cpu1
        worker := trivial }
  | copy page expected offset =>
      simp only [worker] at moved
      split at moved <;> cases moved
      next more =>
        simp only [gaugeEvents, if_pos more]
        exact { held with worker := trivial }
      next complete =>
        simp only [gaugeEvents, if_neg complete]
        exact { held with
          settled := Gauge.apply_settled held.settled (.retire (cache.requestTail + 1))
          tail := rfl
          tailOwes := rfl
          cpu1 := by cases party <;> exact held.cpu1
          worker := trivial }
  | loadHead page expected =>
      cases moved
      exact { held with
        settled := Gauge.apply_settled held.settled .loadHead
        cpu1 := by cases party <;> exact held.cpu1
        worker := by
          change cache.requestHead - cache.requestTail = gauge.head - gauge.tail
          rw [held.head, held.tail] }
  | gauge page expected pending =>
      have value : pending = gauge.seenHead - gauge.tail := held.worker
      cases moved
      exact { held with
        settled := Gauge.apply_settled held.settled .storeTail
        shown := by
          change gauge.seenHead - gauge.tail = get (flag (add (set cache.metrics ppCachePending
            pending) ppCacheFetches 1) ppFlagCacheWorker false) ppCachePending
          rw [get_flag_of_ne (by decide), get_add_of_ne (by decide),
            get_set_self (by decide) (by decide), value]
        tailOwes := rfl
        cpu1 := by cases party <;> exact held.cpu1
        worker := trivial }
  | publish page expected =>
      simp only [worker] at moved
      split at moved <;> cases moved <;> exact { held with worker := trivial }
  | announce page =>
      have reported : get (cache.gaugeReady).metrics ppCachePending =
          get cache.metrics ppCachePending := by
        rw [Cache.gaugeReady, get_set_of_ne (by decide)]
      simp only [worker] at moved
      cases moved
      split
      · exact { held with
          shown := by
            change gauge.shown = get (add cache.gaugeReady.metrics ppCacheMissReady 1) _
            rw [get_add_of_ne (by decide), reported]
            exact held.shown
          worker := trivial }
      · exact { held with
          shown := held.shown.trans reported.symm
          worker := trivial }
  | report page compare =>
      cases moved
      exact { held with
        shown := by
          change gauge.shown = get (add cache.gaugeReady.metrics ppCacheStale 1) ppCachePending
          rw [get_add_of_ne (by decide), Cache.gaugeReady, get_set_of_ne (by decide)]
          exact held.shown
        worker := trivial }
  | discard page compare =>
      simp only [worker] at moved
      split at moved
      · cases moved
        exact { held with worker := trivial }
      · split at moved <;> cases moved <;> exact { held with worker := trivial }
  | _ =>
      cases moved
      exact { held with worker := trivial }

theorem writer_gauged (moved : writer state = some next) (held : Gauged state gauge) :
    Gauged next gauge := by
  obtain ⟨cache, chip, party, worker, position, history⟩ := state
  cases position with
  | idle => cases moved
  | load page last =>
      cases moved
      exact { held with
        shown := by
          change gauge.shown = get (add cache.metrics ppCacheInvalidations 1) ppCachePending
          rw [get_add_of_ne (by decide)]
          exact held.shown }
  | cas page last old =>
      simp only [writer] at moved
      split at moved
      · cases moved
        exact { held with }
      · split at moved <;> cases moved <;> exact { held with }
  | unready page last =>
      cases moved
      exact { held with }
  | report page last =>
      cases moved
      exact { held with
        shown := by
          change gauge.shown = get cache.gaugeReady.metrics ppCachePending
          rw [Cache.gaugeReady, get_set_of_ne (by decide)]
          exact held.shown }

theorem step_gauged {label : Label} (stepped : machine.step label state = some next)
    (held : Gauged state gauge) :
    Gauged next ((gaugeEvents label state).foldl Gauge.apply gauge) := by
  cases label with
  | cpu1 => exact cpu1_gauged stepped held
  | worker => exact worker_gauged stepped held
  | writer => exact writer_gauged stepped held
  | service =>
      obtain ⟨cache, chip, party, worker, writer, history⟩ := state
      cases worker with
      | idle =>
          simp only [machine, step, service] at stepped
          split at stepped <;> cases stepped <;> exact { held with worker := trivial }
      | _ => cases stepped
  | write bus =>
      obtain ⟨cache, chip, party, worker, writer, history⟩ := state
      cases writer with
      | idle =>
          simp only [machine, step, write] at stepped
          split at stepped <;> cases stepped
          exact { held with }
      | _ => cases stepped
  | read address =>
      have counted : get state.cache.countRead.metrics ppCachePending =
          get state.cache.metrics ppCachePending := by
        rw [Cache.countRead, get_add_of_ne (by decide)]
      obtain ⟨cache, chip, party, worker, writer, history⟩ := state
      cases party with
      | idle =>
          simp only [machine, step, read] at stepped
          split at stepped <;> cases stepped
          · exact { held with
              shown := by
                change gauge.shown = get (add cache.countRead.metrics ppCacheInvalidAddr 1) _
                rw [get_add_of_ne (by decide), counted]
                exact held.shown
              cpu1 := trivial }
          · exact { held with shown := held.shown.trans counted.symm, cpu1 := trivial }
      | _ => cases stepped
  | request page =>
      obtain ⟨cache, chip, party, worker, writer, history⟩ := state
      cases party <;> cases stepped
      exact { held with cpu1 := trivial }
  | renderBegin =>
      obtain ⟨cache, chip, party, worker, writer, history⟩ := state
      cases party <;> cases stepped
      exact { held with }
  | prefetch address length =>
      obtain ⟨cache, chip, party, worker, writer, history⟩ := state
      cases party with
      | idle =>
          simp only [machine, step, prefetch] at stepped
          split at stepped <;> cases stepped
          · exact held
          · exact { held with cpu1 := trivial }
      | _ => cases stepped

end PageCache

/-- At rest a gauge is right exactly if the last store to it was made while the counter
loaded for it had not moved. -/
theorem pending_at_rest (events : Nat → Event) {metrics : Metrics} (out : EventRing.Out)
    {cache : Cache} (chip : Nat → UInt8) (ringCleared : get metrics ppPending = 0)
    (queueCleared : get cache.metrics ppCachePending = 0) :
    (∀ (labels : List EventRing.Label) (state : EventRing.State),
      EventRing.machine.Runs Machine.anyStep (EventRing.start events metrics out) labels state →
      state.producer = .idle → state.consumer = .idle →
      (get state.shared.metrics ppPending = state.shared.eventHead - state.shared.eventTail ↔
        (Gauge.after EventRing.machine EventRing.gaugeEvents labels
          (EventRing.start events metrics out) .start).fresh = true)) ∧
    ∀ (labels : List PageCache.Label) (state : PageCache.State),
      PageCache.machine.Runs Machine.anyStep (PageCache.start cache chip) labels state →
      state.cpu1 = .idle → state.worker = .idle →
      (get state.cache.metrics ppCachePending = state.cache.requestHead - state.cache.requestTail ↔
        (Gauge.after PageCache.machine PageCache.gaugeEvents labels
          (PageCache.start cache chip) .start).fresh = true) := by
  constructor
  · intro labels state run producer consumer
    have held := Gauge.after_related (fun _ _ _ _ stepped => EventRing.step_gauged stepped) run
      (EventRing.start_gauged events out ringCleared)
    rw [← held.shown, ← held.head, ← held.tail]
    exact held.settled (by rw [held.headOwes, producer]; rfl) (by rw [held.tailOwes, consumer]; rfl)
  · intro labels state run cpu1 worker
    have held := Gauge.after_related (fun _ _ _ _ stepped => PageCache.step_gauged stepped) run
      (PageCache.start_gauged chip queueCleared)
    rw [← held.shown, ← held.head, ← held.tail]
    exact held.settled (by rw [held.headOwes, cpu1]; rfl) (by rw [held.tailOwes, worker]; rfl)

namespace EventRing

/-- A write is captured, then popped. -/
def capturedAndPopped : List Label :=
  .capture ⟨0xdff096, 0x8201, 2⟩ :: List.replicate 14 (.produce 7) ++
    .begin .pop :: List.replicate 4 .consume

/-- A second write is captured, and the first one popped after the capture has loaded
the tail. -/
def poppedDuringCapture : List Label :=
  .capture ⟨0xdff096, 0x8201, 2⟩ :: List.replicate 14 (.produce 7) ++
    .capture ⟨0xdff0a8, 64, 2⟩ :: List.replicate 4 (.produce 9) ++
    .begin .pop :: List.replicate 4 .consume ++ List.replicate 10 (.produce 9)

end EventRing

namespace PageCache

/-- A page is requested and loaded. -/
def requestedAndLoaded : List Label :=
  .request 0 :: List.replicate 6 .cpu1 ++ .service :: List.replicate 520 .worker

/-- A page is loaded between the last load and the store of its request. -/
def loadedDuringRequest : List Label :=
  .request 0 :: List.replicate 5 .cpu1 ++ .service :: List.replicate 520 .worker ++ [.cpu1]

end PageCache

set_option maxRecDepth 20000 in
theorem pending_at_rest_of_oneOfEach :
    (∃ state, EventRing.machine.Runs Machine.anyStep EventRing.sampleStart
        EventRing.capturedAndPopped state ∧
      (get state.shared.metrics ppPending = state.shared.eventHead - state.shared.eventTail ↔
        (Gauge.after EventRing.machine EventRing.gaugeEvents EventRing.capturedAndPopped
          EventRing.sampleStart .start).fresh = true)) ∧
    ∃ state, PageCache.machine.Runs Machine.anyStep
        (PageCache.start PageCache.sampleCache fun _ => 0) PageCache.requestedAndLoaded state ∧
      (get state.cache.metrics ppCachePending = state.cache.requestHead - state.cache.requestTail ↔
        (Gauge.after PageCache.machine PageCache.gaugeEvents PageCache.requestedAndLoaded
          (PageCache.start PageCache.sampleCache fun _ => 0) .start).fresh = true) := by
  have held := @pending_at_rest (fun _ => EventRing.blankEvent) Probe.init
    ⟨EventRing.blankEvent, false, { Latest.empty with ticks := 0, skipped := 0, dropped := 0 }, false⟩
    PageCache.sampleCache (fun _ => 0) rfl rfl
  constructor
  · have executed : (EventRing.machine.run Machine.anyStep EventRing.capturedAndPopped
        EventRing.sampleStart).map (fun state => (state.producer, state.consumer)) =
          some (.idle, .idle) := rfl
    obtain ⟨state, run, rest⟩ := Machine.runs_of_observed executed
    obtain ⟨producer, consumer⟩ := Prod.mk.inj rest
    exact ⟨state, run, held.1 _ state run producer consumer⟩
  · have executed : (PageCache.machine.run Machine.anyStep PageCache.requestedAndLoaded
        (PageCache.start PageCache.sampleCache fun _ => 0)).map
          (fun state => (state.cpu1, state.worker)) = some (.idle, .idle) := rfl
    obtain ⟨state, run, rest⟩ := Machine.runs_of_observed executed
    obtain ⟨cpu1, worker⟩ := Prod.mk.inj rest
    exact ⟨state, run, held.2 _ state run cpu1 worker⟩

set_option maxRecDepth 20000 in
/-- Both gauges can be wrong at rest. -/
theorem stale_gauges_at_rest :
    (∃ state, EventRing.machine.Runs Machine.anyStep EventRing.sampleStart
        EventRing.poppedDuringCapture state ∧
      (state.producer, state.consumer, get state.shared.metrics ppPending,
        state.shared.eventHead - state.shared.eventTail) = (.idle, .idle, 2, 1)) ∧
    ∃ state, PageCache.machine.Runs Machine.anyStep
        (PageCache.start PageCache.sampleCache fun _ => 0) PageCache.loadedDuringRequest state ∧
      (state.cpu1, state.worker, get state.cache.metrics ppCachePending,
        state.cache.requestHead - state.cache.requestTail) = (.idle, .idle, 1, 0) := by
  constructor
  · exact Machine.runs_of_observed (show (EventRing.machine.run Machine.anyStep
      EventRing.poppedDuringCapture EventRing.sampleStart).map (fun state =>
        (state.producer, state.consumer, get state.shared.metrics ppPending,
          state.shared.eventHead - state.shared.eventTail)) = some (.idle, .idle, 2, 1) from rfl)
  · exact Machine.runs_of_observed (show (PageCache.machine.run Machine.anyStep
      PageCache.loadedDuringRequest (PageCache.start PageCache.sampleCache fun _ => 0)).map
        (fun state => (state.cpu1, state.worker, get state.cache.metrics ppCachePending,
          state.cache.requestHead - state.cache.requestTail)) = some (.idle, .idle, 1, 0) from rfl)

end Paulastorm.Mirror
