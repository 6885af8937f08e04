import Paulastorm.Mirror.PageCache.Refill

namespace Paulastorm.Mirror.PageCache

/-! The reads of CPU1 over a run: which pages they leave asked for, and when one misses. -/

open Library

/-- How far CPU1 has come with a read: it checks the page, it has found it not ready and
asks for it, it has asked, or it has found it ready. -/
inductive Reading where
  | none
  | check (address : UInt32)
  | asking (page : Nat) (address : UInt32)
  | missed (address : UInt32)
  | hit (address : UInt32)

def After.phase : After → Reading
  | .missed address => .missed address
  | .shadow address => .hit address
  | .done | .prefetch _ _ => .none

def Cpu1.phase : Cpu1 → Reading
  | .idle | .prefetch _ _ => .none
  | .check address => .check address
  | .loadMeta page (.missed address) => .asking page address
  | .casMeta page old (.missed address) =>
      if tag old = missing then .asking page address else .missed address
  | .loadMeta _ after | .casMeta _ _ after | .fillSlot _ after | .publish _ after | .loadTail after
  | .gauge _ after => after.phase
  | .missed address => .missed address
  | .loadShadow address => .hit address

@[simp] theorem resume_phase (after : After) : after.resume.phase = after.phase := by
  cases after with
  | prefetch page last =>
      simp only [After.resume]
      split <;> rfl
  | _ => rfl

def Reading.address? : Reading → Option UInt32
  | .none => Option.none
  | .check address | .asking _ address | .missed address | .hit address => some address

def Label.address? : Label → Option UInt32
  | .read address => some address
  | _ => none

variable {state next : State} {label : Label}

/-- What a step does to the read in progress, to the finished reads and to the miss flag. -/
inductive ReadTurn (label : Label) (state next : State) : Prop
  | kept (silent : label.address? = none) (reading : next.cpu1.phase = state.cpu1.phase)
      (reads : next.history.reads = state.history.reads)
      (renderMiss : next.cache.renderMiss = state.cache.renderMiss)
  | cleared (begun : label = .renderBegin) (reading : next.cpu1.phase = state.cpu1.phase)
      (reads : next.history.reads = state.history.reads) (renderMiss : next.cache.renderMiss = false)
  | refused (read : Read) (called : label = .read read.address) (beyond : chipLimit ≤ read.address)
      (before : state.cpu1.phase = .none) (after : next.cpu1.phase = .none)
      (reads : next.history.reads = state.history.reads ++ [read])
      (renderMiss : next.cache.renderMiss = state.cache.renderMiss)
  | begun (address : UInt32) (called : label = .read address) (below : address < chipLimit)
      (before : state.cpu1.phase = .none) (after : next.cpu1.phase = .check address)
      (reads : next.history.reads = state.history.reads)
      (renderMiss : next.cache.renderMiss = state.cache.renderMiss)
  | absent (address : UInt32) (silent : label.address? = none)
      (before : state.cpu1.phase = .check address)
      (after : next.cpu1.phase = .asking (pageOf address) address)
      (cold : state.cache.tagOf (pageOf address) ≠ ready)
      (reads : next.history.reads = state.history.reads)
  | present (address : UInt32) (silent : label.address? = none)
      (before : state.cpu1.phase = .check address) (after : next.cpu1.phase = .hit address)
      (hot : next.cache.tagOf (pageOf address) = ready)
      (reads : next.history.reads = state.history.reads)
      (renderMiss : next.cache.renderMiss = state.cache.renderMiss)
  | asked (page : Nat) (address : UInt32) (silent : label.address? = none)
      (before : state.cpu1.phase = .asking page address)
      (after : next.cpu1.phase = .missed address)
      (asked : page < pageCount → next.cache.tagOf page ≠ missing)
      (reads : next.history.reads = state.history.reads)
      (renderMiss : next.cache.renderMiss = state.cache.renderMiss)
  | finished (read : Read) (silent : label.address? = none)
      (before : state.cpu1.phase = .missed read.address ∨ state.cpu1.phase = .hit read.address)
      (after : next.cpu1.phase = .none)
      (reads : next.history.reads = state.history.reads ++ [read])
      (renderMiss : next.cache.renderMiss = state.cache.renderMiss)

theorem cpu1_reading (moved : cpu1 state = some next) : ReadTurn .cpu1 state next := by
  obtain ⟨cache, chip, party, worker, writer, history⟩ := state
  cases party with
  | idle => cases moved
  | check address =>
      simp only [cpu1] at moved
      split at moved <;> cases moved
      next cold => exact .absent address rfl rfl rfl cold rfl
      next hot =>
        refine .present address rfl rfl ?_ (not_not.mp hot) rfl rfl
        change (if Cache.nearEnd address then Cpu1.loadMeta (pageOf address + 1) (.shadow address)
          else .loadShadow address).phase = _
        split <;> rfl
  | loadMeta page after =>
      simp only [cpu1] at moved
      split at moved <;> cases moved
      next outside =>
        have resumed := resume_phase after
        cases after with
        | missed address =>
            exact .asked page address rfl rfl rfl (fun inside => absurd outside (by omega)) rfl rfl
        | _ => exact .kept rfl resumed rfl rfl
      · cases after with
        | missed address =>
            by_cases clear : tag (cache.pageMeta page) = missing
            · exact .kept rfl (if_pos clear) rfl rfl
            · exact .asked page address rfl rfl (if_neg clear) (fun _ => clear) rfl rfl
        | _ => exact .kept rfl rfl rfl rfl
  | casMeta page old after =>
      simp only [cpu1] at moved
      split at moved
      next marked =>
        cases moved
        have resumed := resume_phase after
        cases after with
        | missed address => exact .kept rfl (if_neg marked).symm rfl rfl
        | _ => exact .kept rfl resumed rfl rfl
      next clear =>
        rw [ne_eq, not_not] at clear
        split at moved <;> cases moved
        next same =>
          cases after with
          | missed address =>
              refine .asked page address rfl (if_pos clear) rfl (fun _ absent => ?_) rfl rfl
              have before : cache.tagOf page = missing := (congrArg tag same).trans clear
              have marked : (cache.markRequested page).tagOf page = queued := by
                change tag ((Function.update _ _ _ : Nat → UInt64) _) = _
                rw [Function.update_self, tag_requested before]
              exact absurd (marked.symm.trans absent) (by decide)
          | _ => exact .kept rfl rfl rfl rfl
        · cases after with
          | missed address =>
              by_cases still : tag (cache.pageMeta page) = missing
              · exact .kept rfl ((if_pos still).trans (if_pos clear).symm) rfl rfl
              · exact .asked page address rfl (if_pos clear) (if_neg still) (fun _ => still) rfl rfl
          | _ => exact .kept rfl rfl rfl rfl
  | fillSlot | publish | loadTail =>
      cases moved
      exact .kept rfl rfl rfl rfl
  | gauge pending after =>
      cases moved
      exact .kept rfl (resume_phase after) rfl rfl
  | missed address =>
      cases moved
      exact .finished _ rfl (.inl rfl) rfl rfl rfl
  | loadShadow address =>
      cases moved
      exact .finished _ rfl (.inr rfl) rfl rfl rfl
  | prefetch page last =>
      simp only [cpu1] at moved
      cases moved
      split <;> exact .kept rfl rfl rfl rfl

/-- What any party does to the read in progress. -/
theorem step_reading (stepped : step label state = some next) : ReadTurn label state next := by
  cases label with
  | cpu1 => exact cpu1_reading stepped
  | worker =>
      obtain ⟨cache, chip, party, position, writer, history⟩ := state
      cases position with
      | idle => cases stepped
      | claim | discard =>
          simp only [step, worker] at stepped
          split at stepped
          · cases stepped
            exact .kept rfl rfl rfl rfl
          · split at stepped <;> cases stepped <;> exact .kept rfl rfl rfl rfl
      | copy | publish =>
          simp only [step, worker] at stepped
          split at stepped <;> cases stepped <;> exact .kept rfl rfl rfl rfl
      | announce =>
          simp only [step, worker] at stepped
          cases stepped
          split <;> exact .kept rfl rfl rfl rfl
      | _ =>
          cases stepped
          exact .kept rfl rfl rfl rfl
  | writer =>
      obtain ⟨cache, chip, party, worker, position, history⟩ := state
      cases position with
      | idle => cases stepped
      | cas =>
          simp only [step, writer] at stepped
          split at stepped
          · cases stepped
            exact .kept rfl rfl rfl rfl
          · split at stepped <;> cases stepped <;> exact .kept rfl rfl rfl rfl
      | _ =>
          cases stepped
          exact .kept rfl rfl rfl rfl
  | service =>
      obtain ⟨cache, chip, party, position, writer, history⟩ := state
      cases position with
      | idle =>
          simp only [step, service] at stepped
          split at stepped <;> cases stepped <;> exact .kept rfl rfl rfl rfl
      | _ => cases stepped
  | write bus =>
      obtain ⟨cache, chip, party, worker, position, history⟩ := state
      cases position with
      | idle =>
          simp only [step, write] at stepped
          split at stepped <;> cases stepped
          exact .kept rfl rfl rfl rfl
      | _ => cases stepped
  | read address =>
      obtain ⟨cache, chip, party, worker, writer, history⟩ := state
      cases party with
      | idle =>
          simp only [step, read] at stepped
          split at stepped <;> cases stepped
          next beyond => exact .refused _ rfl beyond rfl rfl rfl rfl
          next below => exact .begun address rfl (UInt32.not_le.mp below) rfl rfl rfl rfl
      | _ => cases stepped
  | prefetch address length =>
      obtain ⟨cache, chip, party, worker, writer, history⟩ := state
      cases party with
      | idle =>
          simp only [step, prefetch] at stepped
          split at stepped <;> cases stepped <;> exact .kept rfl rfl rfl rfl
      | _ => cases stepped
  | request page =>
      obtain ⟨cache, chip, party, worker, writer, history⟩ := state
      cases party with
      | idle =>
          cases stepped
          exact .kept rfl rfl rfl rfl
      | _ => cases stepped
  | renderBegin =>
      obtain ⟨cache, chip, party, worker, writer, history⟩ := state
      cases party with
      | idle =>
          cases stepped
          exact .cleared rfl rfl rfl rfl
      | _ => cases stepped

/-- The addresses of the finished reads, and of the read in progress. -/
def State.addresses (state : State) : List UInt32 :=
  state.history.reads.map Read.address ++ state.cpu1.phase.address?.toList

/-- Reads are finished in the order in which they are called. -/
theorem ReadTurn.addresses (turn : ReadTurn label state next) :
    next.addresses = state.addresses ++ label.address?.toList := by
  unfold State.addresses
  cases turn with
  | kept silent reading reads => simp [silent, reading, reads]
  | cleared begun reading reads => simp [begun, reading, reads, Label.address?]
  | refused read called _ before after reads =>
      simp [called, before, after, reads, Label.address?, Reading.address?]
  | begun address called _ before after reads =>
      simp [called, before, after, reads, Label.address?, Reading.address?]
  | absent address silent before after _ reads => simp [silent, before, after, reads, Reading.address?]
  | present address silent before after _ reads => simp [silent, before, after, reads, Reading.address?]
  | asked page address silent before after _ reads =>
      simp [silent, before, after, reads, Reading.address?]
  | finished read silent before after reads =>
      rcases before with missed | hit
      · simp [silent, missed, after, reads, Reading.address?]
      · simp [silent, hit, after, reads, Reading.address?]

variable {labels : List Label} {allowed : Label → State → Prop}

theorem run_addresses (run : machine.Runs allowed state labels next) :
    next.addresses = state.addresses ++ labels.filterMap Label.address? := by
  induction run with
  | refl => exact (List.append_nil _).symm
  | @step _ _ _ label labels _ stepped _ ih =>
      rw [ih, (step_reading stepped).addresses, List.append_assoc]
      congr 1
      cases called : label.address? <;> simp [called]

theorem ReadTurn.reads (turn : ReadTurn label state next) :
    state.history.reads <+: next.history.reads := by
  cases turn with
  | refused read _ _ _ _ grown => exact grown ▸ List.prefix_append _ _
  | finished read _ _ _ grown => exact grown ▸ List.prefix_append _ _
  | kept _ _ same | cleared _ _ same => exact same ▸ List.prefix_refl _
  | begun _ _ _ _ _ same => exact same ▸ List.prefix_refl _
  | absent _ _ _ _ _ same | present _ _ _ _ _ same => exact same ▸ List.prefix_refl _
  | asked _ _ _ _ _ _ same => exact same ▸ List.prefix_refl _

/-- Finished reads are kept. -/
theorem run_grows (run : machine.Runs allowed state labels next) :
    state.history.reads <+: next.history.reads := by
  refine run.invariant (motive := fun last => state.history.reads <+: last.history.reads) ?_
    (List.prefix_refl _)
  intro label before after _ stepped held
  have turn : ReadTurn label before after := step_reading stepped
  exact held.trans turn.reads

section Asking

/-- The reads of a page since a point of the run have left it asked for. -/
structure Asking (known : List Read) (page : Nat) (state : State) : Prop where
  current : Current state page
  asking : ∀ other address, state.cpu1.phase = .asking other address → other = pageOf address
  asked : ∀ address, state.cpu1.phase = .missed address ∨ state.cpu1.phase = .hit address →
    pageOf address = page → state.cache.tagOf page ≠ missing
  reads : ∃ more, state.history.reads = known ++ more ∧ ∀ read ∈ more,
    read.address < chipLimit → pageOf read.address = page → state.cache.tagOf page ≠ missing

variable {known : List Read} {page : Nat} {pages : Nat → Prop}

theorem Asking.start (current : Current state page) (idle : state.cpu1 = .idle) :
    Asking state.history.reads page state := by
  have none : state.cpu1.phase = .none := by
    rw [idle]
    rfl
  refine ⟨current, ?_, ?_, [], (List.append_nil _).symm, fun _ member => by cases member⟩
  · intro other address asking
    rw [none] at asking
    cases asking
  · rintro address (missed | hit)
    · rw [none] at missed
      cases missed
    · rw [none] at hit
      cases hit

theorem step_asking (spares : Spares pages label state) (spared : pages page)
    (inv : Requests state) (inside : page < pageCount) (stepped : step label state = some next)
    (held : Asking known page state) : Asking known page next := by
  obtain ⟨current, asking, asked, more, reads, requested⟩ := held
  have stays : state.cache.tagOf page ≠ missing → next.cache.tagOf page ≠ missing :=
    (step_turn spares spared inv stepped).present current
  have kept : next.history.reads = state.history.reads → ∃ more, next.history.reads = known ++ more ∧
      ∀ read ∈ more, read.address < chipLimit → pageOf read.address = page →
        next.cache.tagOf page ≠ missing := fun same =>
    ⟨more, same.trans reads, fun read member below here => stays (requested read member below here)⟩
  have current := step_current spares spared inv inside stepped current
  cases step_reading stepped with
  | kept _ reading same | cleared _ reading same =>
      rw [← reading] at asking asked
      exact ⟨current, asking, fun address found here => stays (asked address found here), kept same⟩
  | refused read _ beyond before after grown =>
      refine ⟨current, ?_, ?_, more ++ [read], by rw [grown, reads, List.append_assoc], ?_⟩
      · simp [after]
      · simp [after]
      · intro other member below here
        rcases List.mem_append.mp member with old | last
        · exact stays (requested other old below here)
        · cases List.mem_singleton.mp last
          exact absurd below (UInt32.not_lt.mpr beyond)
  | begun address _ _ before after same =>
      exact ⟨current, by simp [after], by simp [after], kept same⟩
  | absent address _ before after _ same =>
      refine ⟨current, ?_, by simp [after], kept same⟩
      intro other address' asking
      rw [after] at asking
      cases asking
      rfl
  | present address _ before after hot same =>
      refine ⟨current, by simp [after], ?_, kept same⟩
      intro address' found here absent
      have equal : address = address' := by simpa [after] using found
      subst equal
      rw [here] at hot
      exact absurd (hot.symm.trans absent) (by decide)
  | asked other address _ before after marked same =>
      refine ⟨current, by simp [after], ?_, kept same⟩
      intro address' found here
      have equal : address = address' := by simpa [after] using found
      subst equal
      have place : other = page := (asking other address before).trans here
      exact place ▸ marked (place ▸ inside)
  | finished read _ before after grown =>
      refine ⟨current, by simp [after], by simp [after], more ++ [read],
        by rw [grown, reads, List.append_assoc], ?_⟩
      intro other member below here
      rcases List.mem_append.mp member with old | last
      · exact stays (requested other old below here)
      · cases List.mem_singleton.mp last
        exact stays (asked read.address before here)

/-- Every page that CPU1 has read is asked for, loading or there. -/
theorem reads_ask (inv : Requests state) (current : Current state page) (inside : page < pageCount)
    (spared : pages page) (idle : state.cpu1 = .idle)
    (run : machine.Runs (Spares pages) state labels next) :
    ∃ more, next.history.reads = state.history.reads ++ more ∧ ∀ read ∈ more,
      read.address < chipLimit → pageOf read.address = page → next.cache.tagOf page ≠ missing :=
  (run.invariant (motive := fun state' => Requests state' ∧ Asking state.history.reads page state')
    (fun _ _ _ spares stepped held =>
      ⟨step_requests held.1 stepped, step_asking spares spared held.1 inside stepped held.2⟩)
    ⟨inv, .start current idle⟩).2.reads

end Asking

section Warm

/-- The read has found its page missing. -/
def Reading.missing? : Reading → Option UInt32
  | .asking _ address | .missed address => some address
  | _ => Option.none

/-- Some pages are ready, and the miss flag is set only by reads of other pages. -/
structure Warm (known : List Read) (hot : Nat → Prop) (state : State) : Prop where
  ready : ∀ page, hot page → state.cache.tagOf page = ready
  below : ∀ address, state.cpu1.phase.address? = some address → address < chipLimit
  reads : ∃ more, state.history.reads = known ++ more ∧ (state.cache.renderMiss = true →
    (∃ address, state.cpu1.phase.missing? = some address ∧ address < chipLimit ∧
      ¬hot (pageOf address)) ∨
    ∃ read ∈ more, read.address < chipLimit ∧ ¬hot (pageOf read.address))

variable {known : List Read} {hot pages : Nat → Prop}

theorem step_warm (spares : Spares hot label state) (inv : Requests state)
    (stepped : step label state = some next) (held : Warm known hot state) :
    Warm known hot next := by
  obtain ⟨present, below, more, reads, missed⟩ := held
  have still : ∀ page, hot page → next.cache.tagOf page = ready :=
    fun page warm => (step_turn spares warm inv stepped).ready (present page warm)
  cases step_reading stepped with
  | kept _ reading same flag =>
      refine ⟨still, reading ▸ below, more, same.trans reads, ?_⟩
      rw [reading, flag]
      exact missed
  | cleared _ reading same flag =>
      refine ⟨still, reading ▸ below, more, same.trans reads, ?_⟩
      rw [flag]
      exact nofun
  | refused read _ beyond before after grown flag =>
      refine ⟨still, by simp [after, Reading.address?], more ++ [read],
        by rw [grown, reads, List.append_assoc], ?_⟩
      rw [flag, after]
      rw [before] at missed
      refine fun set => (missed set).imp id ?_
      rintro ⟨other, member, cold⟩
      exact ⟨other, List.mem_append_left _ member, cold⟩
  | begun address _ inside before after same flag =>
      refine ⟨still, ?_, more, same.trans reads, ?_⟩
      · rw [after]
        rintro other found
        cases found
        exact inside
      · rw [flag, after]
        rw [before] at missed
        exact missed
  | absent address _ before after cold same =>
      have inside : address < chipLimit := below address (by rw [before]; rfl)
      refine ⟨still, ?_, more, same.trans reads, fun _ => .inl ⟨address, ?_, inside, ?_⟩⟩
      · rw [after]
        rintro other found
        cases found
        exact inside
      · rw [after]
        rfl
      · exact fun warm => cold (present _ warm)
  | present address _ before after _ same flag =>
      refine ⟨still, ?_, more, same.trans reads, ?_⟩
      · rw [after]
        rw [before] at below
        exact below
      · rw [flag, after]
        rw [before] at missed
        exact missed
  | asked page address _ before after _ same flag =>
      refine ⟨still, ?_, more, same.trans reads, ?_⟩
      · rw [after]
        rw [before] at below
        exact below
      · rw [flag, after]
        rw [before] at missed
        exact missed
  | finished read _ before after grown flag =>
      refine ⟨still, by simp [after, Reading.address?], more ++ [read],
        by rw [grown, reads, List.append_assoc], ?_⟩
      rw [flag]
      refine fun set => .inr ?_
      rcases missed set with ⟨address, inRead, inside, cold⟩ | ⟨other, member, cold⟩
      · refine ⟨read, List.mem_append_right _ (List.mem_singleton_self read), ?_⟩
        rcases before with same | same
        · rw [same] at inRead
          cases inRead
          exact ⟨inside, cold⟩
        · rw [same] at inRead
          cases inRead
      · exact ⟨other, List.mem_append_left _ member, cold⟩

/-- Between two calls the finished reads are all there is. -/
theorem addresses_of_idle (idle : state.cpu1 = .idle) :
    state.addresses = state.history.reads.map Read.address := by
  rw [State.addresses, idle]
  exact List.append_nil _

/-- The reads that a run of whole calls finishes are the reads that it calls. -/
theorem run_reads (idle : state.cpu1 = .idle) (run : machine.Runs allowed state labels next)
    (rest : next.cpu1 = .idle) {more : List Read}
    (reads : next.history.reads = state.history.reads ++ more) :
    more.map Read.address = labels.filterMap Label.address? := by
  have addresses := run_addresses run
  rw [addresses_of_idle idle, addresses_of_idle rest, reads, List.map_append] at addresses
  exact List.append_cancel_left addresses

theorem Spares.fewer {fewer : Nat → Prop} (spares : Spares pages label state)
    (within : ∀ page, fewer page → pages page) : Spares fewer label state :=
  fun moves page last old entered here => spares moves page last old entered (within page here)

/-- A run that reads only ready pages below the limit, and spares them, does not set the
miss flag. -/
theorem reads_hit (inv : Requests state) (idle : state.cpu1 = .idle)
    (clear : state.cache.renderMiss = false) (run : machine.Runs (Spares pages) state labels next)
    (rest : next.cpu1 = .idle) (warm : ∀ address ∈ labels.filterMap Label.address?,
      address < chipLimit → pages (pageOf address) ∧ state.cache.tagOf (pageOf address) = ready) :
    next.cache.renderMiss = false := by
  let hot := fun page => pages page ∧ state.cache.tagOf page = ready
  have start : Warm state.history.reads hot state := by
    refine ⟨fun _ hot => hot.2, ?_, [], (List.append_nil _).symm, ?_⟩
    · rw [idle]
      exact nofun
    · rw [clear]
      exact nofun
  obtain ⟨-, -, more, reads, missed⟩ := (run.invariant
    (motive := fun state' => Requests state' ∧ Warm state.history.reads hot state')
    (fun _ _ _ spares stepped held =>
      ⟨step_requests held.1 stepped,
        step_warm (spares.fewer fun _ warm => warm.1) held.1 stepped held.2⟩) ⟨inv, start⟩).2
  by_contra set
  rcases missed (Bool.eq_true_of_not_eq_false set) with ⟨address, inRead, -⟩ | ⟨read, member, below, cold⟩
  · rw [rest] at inRead
    cases inRead
  · refine cold (warm read.address ?_ below)
    rw [← run_reads idle run rest reads]
    exact List.mem_map_of_mem member

end Warm

end Paulastorm.Mirror.PageCache
