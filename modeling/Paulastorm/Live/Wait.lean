import Paulastorm.Core.Asks
import Paulastorm.Live.Frame
import Paulastorm.Mirror.PageCache.Reading

namespace Paulastorm.Live

/-! A cache wait ends after one refill. -/

open Paulastorm.Core Library Mirror Probe

/-- CPU1's calls of the cache while it renders, and the reads that answer it. -/
structure Script where
  calls : List PageCache.Label
  answers : List PageCache.Read
  missed : Bool
  metrics : Metrics

/-- A cache that answers as it is told and notes the calls. -/
def scripted : Port Script where
  readByte address script :=
    ((script.answers.head?.map PageCache.Read.byte).getD 0,
      { script with calls := script.calls ++ [.read address], answers := script.answers.tail })
  prefetch address length script :=
    { script with calls := script.calls ++ [.prefetch address length] }
  renderBegin script := { script with calls := script.calls ++ [.renderBegin] }
  renderMissed script := script.missed
  metrics script := script.metrics
  probe change script := { script with metrics := change script.metrics }

theorem scripted_owns : scripted.Owns fun _ => True where
  metrics_probe _ _ := rfl
  missed_probe _ _ := rfl
  readByte _ _ _ _ := rfl
  prefetch _ _ _ _ _ := rfl
  renderBegin _ _ _ := rfl

variable {F D : Type}

/-- The calls of one lookahead. -/
def ahead (core : Paula F D) : List PageCache.Label :=
  ((List.finRange 4).flatMap fun ch => windows (core.fetchState ch)).map fun window =>
    .prefetch window.1 window.2

theorem prefetch_calls (core : Paula F D) (script : Script) :
    (prefetch scripted core script).calls = script.calls ++ ahead core := by
  rw [prefetch_eq, ahead]
  generalize (List.finRange 4).flatMap (fun ch => windows (core.fetchState ch)) = windows
  induction windows generalizing script with
  | nil => simp
  | cons window rest ih =>
      rw [List.foldl_cons, ih]
      simp [scripted]

/-- The answers play no part in what a frame calls. -/
theorem perform_calls (asks : List Ask) {state : Speculation Script}
    (speculative : state.renderAttempt = true) :
    (asks.foldl (Ask.perform (callbacks scripted)) state).host.calls =
      state.host.calls ++ (asks.filterMap Ask.address?).map PageCache.Label.read := by
  induction asks generalizing state with
  | nil => simp
  | cons ask rest ih =>
      cases ask with
      | read address =>
          rw [List.foldl_cons, ih (by exact speculative)]
          simp [Ask.perform, Ask.address?, callbacks, scripted]
      | interrupt bits =>
          have counted : Ask.perform (callbacks scripted) state (.interrupt bits) =
              { state with speculativeIrqs := state.speculativeIrqs + 1 } := if_pos speculative
          rw [List.foldl_cons, counted, ih (by exact speculative)]
          rfl

variable [Floating F]

theorem commit_calls (mix : F × F) (irqs : UInt32) (live : Live F D) (script : Script) :
    (live.commit scripted mix irqs script).2.2.calls = script.calls := by
  simp only [commit]
  split_ifs <;> rfl

variable [Floating D] [Arith F D]

theorem attempt_calls (core : Paula F D) (script : Script) :
    (attempt scripted core script).2.host.calls =
      script.calls ++ .renderBegin :: core.sampled.map PageCache.Label.read := by
  rw [attempt, Paula.render_asks, perform_calls _ rfl]
  simp [scripted, Paula.sampled]

theorem renderFrame_calls (live : Live F D) (script : Script) :
    (live.renderFrame scripted script).2.2.calls = script.calls ++
      (if live.prefetchCountdown = 0 then ahead live.core else []) ++
      .renderBegin :: live.core.sampled.map PageCache.Label.read := by
  have looked : (live.lookAhead scripted script).2.calls =
      script.calls ++ if live.prefetchCountdown = 0 then ahead live.core else [] := by
    simp only [lookAhead]
    split_ifs
    · exact prefetch_calls _ _
    · exact (List.append_nil _).symm
  have attempted : (speculation live script scripted).2.host.calls =
      script.calls ++ (if live.prefetchCountdown = 0 then ahead live.core else []) ++
        .renderBegin :: live.core.sampled.map PageCache.Label.read := by
    rw [speculation, attempt_calls, looked]
  rw [renderFrame_eq]
  split
  · exact attempted
  · exact (commit_calls _ _ _ _).trans attempted

/-- Nobody but the cache sets the miss flag. -/
theorem frameMissed_scripted (live : Live F D) (script : Script) :
    live.frameMissed script scripted = script.missed := by
  have kept : scripted.Upholds fun other => other.missed = script.missed :=
    ⟨fun _ _ same => same, fun _ _ _ same => same, fun _ same => same, fun _ _ _ same => same⟩
  exact attempt_upholds kept live.core (lookAhead_upholds kept live rfl)

/-- The step is a call of CPU1. -/
def called : PageCache.Label → Bool
  | .cpu1 | .service | .worker | .write _ | .writer => false
  | _ => true

/-- How the cache has answered between two states. -/
def script (before after : PageCache.State) (answers : List PageCache.Read) : Script :=
  ⟨[], answers, after.cache.renderMiss, before.cache.metrics⟩

/-- The pages below the limit that a frame reads. -/
def framePages (core : Paula F D) (page : Nat) : Prop :=
  ∃ address ∈ core.sampled, address < chipLimit ∧ pageOf address = page

/-- The condition on a run of the cache that a frame shares with the other parties. -/
abbrev Allowed := PageCache.Label → PageCache.State → Prop

/-- A run in which CPU1 renders one frame on the cache. -/
structure Rendered (allowed : Allowed) (live : Live F D) (before : PageCache.State)
    (labels : List PageCache.Label) (answers : List PageCache.Read) (after : PageCache.State) :
    Prop where
  run : PageCache.machine.Runs allowed before labels after
  started : before.cpu1 = .idle
  returned : after.cpu1 = .idle
  answered : after.history.reads = before.history.reads ++ answers
  calls : labels.filter called = (live.renderFrame scripted (script before after answers)).2.2.calls

namespace Rendered

variable {allowed stronger : Allowed} {pages : Nat → Prop} {live : Live F D}
  {before after : PageCache.State} {labels : List PageCache.Label} {answers : List PageCache.Read}

theorem weaken (rendered : Rendered stronger live before labels answers after)
    (implies : ∀ label state, stronger label state → allowed label state) :
    Rendered allowed live before labels answers after :=
  { rendered with run := rendered.run.weaken implies }

theorem sampled (rendered : Rendered allowed live before labels answers after) :
    labels.filterMap PageCache.Label.address? = live.core.sampled := by
  have own : ∀ label : PageCache.Label,
      (if called label then label.address? else none) = label.address? := by
    intro label
    cases label <;> rfl
  have ahead : (if live.prefetchCountdown = 0 then ahead live.core else []).filterMap
      PageCache.Label.address? = [] := by
    split
    · simp [Live.ahead, List.filterMap_map, PageCache.Label.address?, Function.comp_def]
    · rfl
  have reads : (live.core.sampled.map PageCache.Label.read).filterMap PageCache.Label.address? =
      live.core.sampled := by
    simp [List.filterMap_map, PageCache.Label.address?, Function.comp_def]
  calc labels.filterMap PageCache.Label.address?
      = (labels.filter called).filterMap PageCache.Label.address? := by
        simp only [List.filterMap_filter, own]
    _ = live.core.sampled := by
        rw [rendered.calls, renderFrame_calls, List.filterMap_append, List.filterMap_append, ahead,
          List.filterMap_cons_none rfl, reads]
        rfl

/-- The reads of the frame are the reads of the core. -/
theorem answers_eq (rendered : Rendered allowed live before labels answers after) :
    answers.map PageCache.Read.address = live.core.sampled :=
  (PageCache.run_reads rendered.started rendered.run rendered.returned rendered.answered).trans
    rendered.sampled

/-- A frame leaves the pages that it reads asked for, if they are spared. -/
theorem asks (rendered : Rendered (PageCache.Spares pages) live before labels answers after)
    (inv : PageCache.Requests before) {address : UInt32} (member : address ∈ live.core.sampled)
    (below : address < chipLimit) (spared : pages (pageOf address))
    (current : PageCache.Current before (pageOf address)) :
    after.cache.tagOf (pageOf address) ≠ missing := by
  obtain ⟨more, reads, asked⟩ := PageCache.reads_ask inv current (pageOf_lt below) spared
    rendered.started rendered.run
  have same : more = answers := List.append_cancel_left (reads.symm.trans rendered.answered)
  rw [← rendered.answers_eq] at member
  obtain ⟨read, finished, rfl⟩ := List.mem_map.mp member
  exact asked read (same ▸ finished) below rfl

/-- A run with the calls of the frame renders it. -/
theorem of_run (run : PageCache.machine.Runs allowed before labels after)
    (started : before.cpu1 = .idle) (returned : after.cpu1 = .idle)
    (calls : labels.filter called = (if live.prefetchCountdown = 0 then ahead live.core else []) ++
      .renderBegin :: live.core.sampled.map PageCache.Label.read) :
    ∃ answers, Rendered allowed live before labels answers after := by
  obtain ⟨answers, grown⟩ := PageCache.run_grows run
  refine ⟨answers, run, started, returned, grown.symm, ?_⟩
  rw [renderFrame_calls, calls]
  rfl

/-- A frame that finds its pages ready is complete, if they are spared. -/
theorem complete (rendered : Rendered (PageCache.Spares pages) live before labels answers after)
    (inv : PageCache.Requests before) (present : ∀ address ∈ live.core.sampled, address < chipLimit →
      pages (pageOf address) ∧ before.cache.tagOf (pageOf address) = ready) :
    after.cache.renderMiss = false := by
  have member : PageCache.Label.renderBegin ∈ labels := by
    have listed : PageCache.Label.renderBegin ∈ labels.filter called := by
      rw [rendered.calls, renderFrame_calls]
      exact List.mem_append_right _ List.mem_cons_self
    exact List.mem_of_mem_filter listed
  obtain ⟨first, second, labels⟩ := List.append_of_mem member
  obtain ⟨begins, early, late⟩ := (labels ▸ rendered.run).split
  cases late with
  | @step _ begun _ _ _ _ stepped rest =>
      obtain ⟨idle, clear, ready⟩ : begun.cpu1 = .idle ∧ begun.cache.renderMiss = false ∧
          begun.cache.pageMeta = begins.cache.pageMeta := by
        obtain ⟨cache, chip, party, worker, writer, history⟩ := begins
        cases party with
        | idle =>
            cases stepped
            exact ⟨rfl, rfl, rfl⟩
        | _ => cases stepped
      have held : PageCache.Requests begun :=
        @PageCache.step_requests _ _ .renderBegin (PageCache.run_requests inv early) stepped
      refine PageCache.reads_hit held idle clear rest rendered.returned ?_
      intro address read below
      have sampled : address ∈ live.core.sampled := by
        rw [← rendered.sampled, labels, List.filterMap_append]
        exact List.mem_append_right _ read
      obtain ⟨spared, there⟩ := present address sampled below
      rw [Cache.tagOf, ready]
      exact ⟨spared, PageCache.run_ready inv spared early there⟩

end Rendered

/-- From every reachable state of the cache, whatever the core holds: after a frame has failed,
the pages that it reads are asked for; and once they have been served, the frame is complete.
These pages must not be invalidated on the way, and a load that an earlier invalidation has
superseded does not count as asked for. -/
theorem cache_wait_ends {cache : Cache} {chip : Nat → UInt8} {before failed rested after :
    PageCache.State} {labels first refill second : List PageCache.Label}
    {zeros answers : List PageCache.Read} {live retried : Live F D}
    (reached : PageCache.machine.Runs Machine.anyStep (PageCache.start cache chip) labels before)
    (attempt : Rendered (PageCache.Spares (framePages live.core)) live before first zeros failed)
    (missed : failed.cache.renderMiss = true)
    (current : ∀ page, framePages live.core page → PageCache.Current before page)
    (refilled : PageCache.machine.Runs (PageCache.Spares (framePages live.core)) failed refill rested)
    (worker : rested.worker = .idle) (served : rested.cache.servicePending = false)
    (core : retried.core.dma =
      (live.renderFrame scripted (script before failed zeros)).2.1.core.dma)
    (retry : Rendered (PageCache.Spares (framePages live.core)) retried rested second answers after) :
    (∀ address ∈ retried.core.sampled, address < chipLimit →
      failed.cache.tagOf (pageOf address) ≠ missing) ∧
    (∀ labels state, PageCache.machine.Runs Machine.anyStep before labels state →
      PageCache.Unstranded state) ∧
    after.cache.renderMiss = false ∧
    ∃ mix core irqs, Committed scripted retried (script rested after answers) mix core irqs
      (retried.renderFrame scripted (script rested after answers)).2.1
      (retried.renderFrame scripted (script rested after answers)).2.2 := by
  have inv := PageCache.run_requests (PageCache.start_requests cache chip) reached
  have invFailed := PageCache.run_requests inv attempt.run
  have invRested := PageCache.run_requests invFailed refilled
  have rolledBack : (live.renderFrame scripted (script before failed zeros)).2.1.core = live.core :=
    (renderFrame_failed live _ scripted_owns trivial
      ((frameMissed_scripted live _).trans missed)).1
  have same : retried.core.sampled = live.core.sampled :=
    congrArg (List.filterMap Ask.address?) (Paula.asks_dma (core.trans (congrArg Paula.dma rolledBack)))
  have spared : ∀ address ∈ retried.core.sampled, address < chipLimit →
      framePages live.core (pageOf address) := fun address member below =>
    ⟨address, same ▸ member, below, rfl⟩
  have asked : ∀ address ∈ retried.core.sampled, address < chipLimit →
      failed.cache.tagOf (pageOf address) ≠ missing := by
    intro address member below
    have page := spared address member below
    exact attempt.asks inv (same ▸ member) below page (current _ page)
  have complete : after.cache.renderMiss = false := by
    refine retry.complete invRested fun address member below => ?_
    have inside := pageOf_lt below
    have page := spared address member below
    have stillCurrent := PageCache.run_current inv inside page attempt.run (current _ page)
    have present := PageCache.run_present invFailed inside page refilled stillCurrent
      (asked address member below)
    exact ⟨page, invRested.rest_ready retry.started worker served inside present⟩
  exact ⟨asked, fun labels state run => (PageCache.run_requests inv run).unstranded, complete, _, _, _,
    renderFrame_committed retried _ scripted_owns trivial
      ((frameMissed_scripted retried _).trans complete)⟩

/-- One word at location zero, looping. -/
def looping : Live ℚ ℚ :=
  let live := (init scripted ⟨[], [], false, Probe.init⟩).1
  { live with
    core := ((live.core.writeRegister16 0xdff0a4 1).writeRegister16 0xdff0a6 60).writeRegister16
      0xdff096 0x8201 }

theorem looping_sampled : looping.core.sampled = [0, 1] := by decide +kernel

theorem looping_ahead : ahead looping.core = [.prefetch 0 2, .prefetch 0 2] := rfl

theorem looping_calls {labels : List PageCache.Label} {live : Live ℚ ℚ}
    (core : live.core = looping.core) (countdown : live.prefetchCountdown = 0)
    (calls : labels.filter called =
      [.prefetch 0 2, .prefetch 0 2, .renderBegin, .read 0, .read 1]) :
    labels.filter called = (if live.prefetchCountdown = 0 then ahead live.core else []) ++
      .renderBegin :: live.core.sampled.map PageCache.Label.read := by
  rw [calls, if_pos countdown, core, looping_sampled, looping_ahead]
  rfl

/-- The frame after a failed one, once more. -/
theorem looping_retried (script : Script) (missed : script.missed = true) :
    (looping.renderFrame scripted script).2.1.core = looping.core ∧
      (looping.renderFrame scripted script).2.1.prefetchCountdown = 0 := by
  rw [renderFrame_eq, if_pos ((frameMissed_scripted _ _).trans missed)]
  exact ⟨rfl, rfl⟩

/-- The frame requests page 0 and misses it twice. -/
def requestsAndMisses : List PageCache.Label :=
  .prefetch 0 2 :: List.replicate 7 .cpu1 ++ .prefetch 0 2 :: List.replicate 3 .cpu1 ++
    .renderBegin :: .read 0 :: List.replicate 4 .cpu1 ++ .read 1 :: List.replicate 4 .cpu1

/-- The frame misses page 0 twice, which is already queued or loading. -/
def misses : List PageCache.Label :=
  .prefetch 0 2 :: List.replicate 3 .cpu1 ++ .prefetch 0 2 :: List.replicate 3 .cpu1 ++
    .renderBegin :: .read 0 :: List.replicate 4 .cpu1 ++ .read 1 :: List.replicate 4 .cpu1

/-- The frame finds page 0. -/
def hits : List PageCache.Label :=
  .prefetch 0 2 :: List.replicate 3 .cpu1 ++ .prefetch 0 2 :: List.replicate 3 .cpu1 ++
    .renderBegin :: .read 0 :: List.replicate 2 .cpu1 ++ .read 1 :: List.replicate 2 .cpu1

/-- One service call. -/
def serves : List PageCache.Label := .service :: List.replicate 520 .worker

/-- Page 0 is being loaded when a write supersedes the load. -/
def supersededLoad : List PageCache.Label :=
  .request 0 :: List.replicate 6 .cpu1 ++ .service :: List.replicate 2 .worker ++
    [.write ⟨0, 1, 7⟩, .writer, .writer]

/-- The state that a run ends in, executed. -/
def ends (labels : List PageCache.Label) (state : PageCache.State) : PageCache.State :=
  (PageCache.machine.run Machine.anyStep labels state).getD state

theorem ends_reached {labels : List PageCache.Label} {state : PageCache.State}
    (done : (PageCache.machine.run Machine.anyStep labels state).isSome = true) :
    PageCache.machine.Runs Machine.anyStep state labels (ends labels state) :=
  Machine.runs_getD labels state done

theorem ends_runs {labels : List PageCache.Label} {state : PageCache.State}
    (quiet : (PageCache.machine.run PageCache.Quiet labels state).isSome = true) :
    PageCache.machine.Runs PageCache.Quiet state labels (ends labels state) := by
  obtain ⟨after, executed⟩ := Option.isSome_iff_exists.mp quiet
  have run := Machine.run_eq_some_iff.mp executed
  have same : PageCache.machine.run Machine.anyStep labels state = some after :=
    Machine.run_eq_some_iff.mpr (run.weaken fun _ _ _ => trivial)
  rw [ends, same]
  exact run

/-- The cleared cache, the state of the sample runs after the failed frame, and after the service. -/
def cleared : PageCache.State := PageCache.start PageCache.sampleCache fun _ => 0

def asked : PageCache.State := ends requestsAndMisses cleared

def loaded : PageCache.State := ends serves asked

set_option maxRecDepth 20000 in
/-- The failed frame requests page 0, one service call loads it, and the frame is complete. -/
theorem cache_wait_ends_of_looping : ∃ zeros answers,
    Rendered PageCache.Quiet looping cleared requestsAndMisses zeros asked ∧
    asked.cache.renderMiss = true ∧
    Rendered PageCache.Quiet (looping.renderFrame scripted (script cleared asked zeros)).2.1 loaded
      hits answers (ends hits loaded) ∧
    (ends hits loaded).cache.renderMiss = false := by
  have missed : asked.cache.renderMiss = true := rfl
  have current : ∀ page, PageCache.Current cleared page := fun _ =>
    ⟨fun _ => PageCache.Worker.expects_none rfl, PageCache.nowhere⟩
  have quiet : ∀ label state, PageCache.Quiet label state →
      PageCache.Spares (framePages looping.core) label state := fun _ _ quiet => quiet.spares
  obtain ⟨zeros, attempt⟩ : ∃ zeros,
      Rendered PageCache.Quiet looping cleared requestsAndMisses zeros asked :=
    Rendered.of_run (ends_runs rfl) rfl rfl (looping_calls rfl rfl rfl)
  obtain ⟨core, countdown⟩ := looping_retried (script cleared asked zeros) missed
  obtain ⟨answers, retry⟩ : ∃ answers, Rendered PageCache.Quiet
      (looping.renderFrame scripted (script cleared asked zeros)).2.1 loaded hits answers
        (ends hits loaded) :=
    Rendered.of_run (ends_runs rfl) rfl rfl (looping_calls core countdown rfl)
  have refilled : PageCache.machine.Runs PageCache.Quiet asked serves loaded := ends_runs rfl
  exact ⟨zeros, answers, attempt, missed, retry, (cache_wait_ends (.refl _) (attempt.weaken quiet)
    missed (fun _ _ => current _) (refilled.weaken quiet) rfl rfl rfl (retry.weaken quiet)).2.2.1⟩

/-- The frame fails; the service runs until it is idle, without an invalidation; and the frame
fails once more. -/
def Persists (allowed : Allowed) (before failed rested : PageCache.State)
    (first second : List PageCache.Label) : Prop :=
  ∃ zeros answers, Rendered allowed looping before first zeros failed ∧
    failed.cache.renderMiss = true ∧
    PageCache.machine.Runs PageCache.Quiet failed (List.replicate 520 .worker) rested ∧
    rested.worker = .idle ∧ rested.cache.servicePending = false ∧
    Rendered PageCache.Quiet (looping.renderFrame scripted (script before failed zeros)).2.1 rested
      second answers (ends second rested) ∧
    (ends second rested).cache.renderMiss = true

/-- Two frames that fail around a service make a wait that persists. -/
theorem persists {allowed : Allowed} {before failed rested : PageCache.State}
    {first second : List PageCache.Label}
    (attempt : PageCache.machine.Runs allowed before first failed)
    (started : before.cpu1 = .idle) (returned : failed.cpu1 = .idle)
    (calls : first.filter called = [.prefetch 0 2, .prefetch 0 2, .renderBegin, .read 0, .read 1])
    (missed : failed.cache.renderMiss = true)
    (refill : PageCache.machine.Runs PageCache.Quiet failed (List.replicate 520 .worker) rested)
    (worker : rested.worker = .idle) (served : rested.cache.servicePending = false)
    (retry : PageCache.machine.Runs PageCache.Quiet rested second (ends second rested))
    (restarted : rested.cpu1 = .idle) (finished : (ends second rested).cpu1 = .idle)
    (recalls : second.filter called =
      [.prefetch 0 2, .prefetch 0 2, .renderBegin, .read 0, .read 1])
    (again : (ends second rested).cache.renderMiss = true) :
    Persists allowed before failed rested first second := by
  obtain ⟨zeros, failing⟩ : ∃ zeros, Rendered allowed looping before first zeros failed :=
    Rendered.of_run attempt started returned (looping_calls rfl rfl calls)
  obtain ⟨core, countdown⟩ := looping_retried (script before failed zeros) missed
  obtain ⟨answers, retried⟩ : ∃ answers, Rendered PageCache.Quiet
      (looping.renderFrame scripted (script before failed zeros)).2.1 rested second answers
        (ends second rested) :=
    Rendered.of_run retry restarted finished (looping_calls core countdown recalls)
  exact ⟨zeros, answers, failing, missed, refill, worker, served, retried, again⟩

/-- The sample runs from a superseded load: before and after the failed frame, and at rest. -/
def superseded : PageCache.State := ends supersededLoad cleared

def stuck : PageCache.State := ends misses superseded

def forgotten : PageCache.State := ends (List.replicate 520 .worker) stuck

/-- The frame misses page 0, and a write supersedes the load before the frame has ended. -/
def overtakenMisses : List PageCache.Label :=
  .prefetch 0 2 :: List.replicate 7 .cpu1 ++ .prefetch 0 2 :: List.replicate 3 .cpu1 ++
    .renderBegin :: .read 0 :: List.replicate 4 .cpu1 ++ .service :: List.replicate 2 .worker ++
    [.write ⟨0, 1, 7⟩, .writer, .writer] ++ .read 1 :: List.replicate 4 .cpu1

def overtaken : PageCache.State := ends overtakenMisses cleared

def lost : PageCache.State := ends (List.replicate 520 .worker) overtaken

set_option maxRecDepth 20000 in
/-- A load that a write has superseded is given up after the failed frame found it under way:
the frame fails again, whether the write came before the failed frame or during it. -/
theorem cache_wait_persists :
    PageCache.machine.Runs Machine.anyStep cleared supersededLoad superseded ∧
      Persists PageCache.Quiet superseded stuck forgotten misses requestsAndMisses ∧
      Persists Machine.anyStep cleared overtaken lost overtakenMisses requestsAndMisses := by
  refine ⟨ends_reached rfl, ?_, ?_⟩
  · exact persists (ends_runs rfl) rfl rfl rfl rfl (ends_runs rfl) rfl rfl (ends_runs rfl) rfl rfl
      rfl rfl
  · exact persists (ends_reached rfl) rfl rfl rfl rfl (ends_runs rfl) rfl rfl (ends_runs rfl) rfl rfl
      rfl rfl

end Paulastorm.Live
