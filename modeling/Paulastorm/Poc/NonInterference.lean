import Paulastorm.Live.Mailbox
import Paulastorm.Live.NonInterference
import Paulastorm.Poc.Recovery

namespace Paulastorm

/-! Runs of the replay loop's operations that differ in their mixer history.

What is written to Paula, and the sample bytes at hand before each call of the
renderer, are the same in both runs.  The guest's accesses to the mailbox, the
adoptions, and whatever else happens to the cache and its counters are not.
-/

open Paulastorm.Core Mirror Probe

namespace Mirror

/-- The sample bytes at hand and the miss flag: a cache that is otherwise blank. -/
def Cache.available (cache : Cache) : Cache where
  pageMeta page := if page < pageCount ∧ cache.tagOf page = ready then ready else 0
  shadow address :=
    if address / 256 < pageCount ∧ cache.tagOf (address / 256) = ready then cache.shadow address
    else 0
  pageMissSeen _ := false
  requests _ := 0
  requestHead := 0
  requestTail := 0
  misses := 0
  pagesReady := 0
  invalidAddresses := 0
  renderMiss := cache.renderMiss
  enabled := false
  metrics := Probe.init

/-- Caches with the same sample bytes at hand. -/
structure SameBytes (first second : Cache) : Prop where
  ready : ∀ page, page < pageCount → (first.tagOf page = ready ↔ second.tagOf page = ready)
  bytes : ∀ page, page < pageCount → first.tagOf page = Mirror.ready → ∀ offset, offset < 256 →
    first.shadow (page * 256 + offset) = second.shadow (page * 256 + offset)
  renderMiss : first.renderMiss = second.renderMiss
  metrics : SameMetrics first.metrics second.metrics

variable {first second third : Cache}

theorem SameBytes.refl (cache : Cache) : SameBytes cache cache :=
  ⟨fun _ _ => Iff.rfl, fun _ _ _ _ _ => rfl, rfl, .refl _⟩

theorem SameBytes.symm (same : SameBytes first second) : SameBytes second first where
  ready page inside := (same.ready page inside).symm
  bytes page inside present offset below :=
    (same.bytes page inside ((same.ready page inside).mpr present) offset below).symm
  renderMiss := same.renderMiss.symm
  metrics := same.metrics.symm

theorem SameBytes.trans (left : SameBytes first second) (right : SameBytes second third) :
    SameBytes first third where
  ready page inside := (left.ready page inside).trans (right.ready page inside)
  bytes page inside present offset below := (left.bytes page inside present offset below).trans
    (right.bytes page inside ((left.ready page inside).mp present) offset below)
  renderMiss := left.renderMiss.trans right.renderMiss
  metrics := left.metrics.trans right.metrics

/-- Requesting pages gives and takes no bytes. -/
theorem SameBytes.requested {first' second' : Cache} (same : SameBytes first second)
    (left : Requested first first') (right : Requested second second')
    (renderMiss : first'.renderMiss = second'.renderMiss) : SameBytes first' second' where
  ready page inside :=
    (left.ready page).trans ((same.ready page inside).trans (right.ready page).symm)
  bytes page inside present offset below := by
    rw [left.shadow, right.shadow]
    exact same.bytes page inside ((left.ready page).mp present) offset below
  renderMiss := renderMiss
  metrics word seen := by
    have own : word ∉ sharedWords := fun shared => seen (List.mem_cons_of_mem _ shared)
    rw [left.metrics word own, right.metrics word own]
    exact same.metrics word seen

theorem SameBytes.withMetrics (same : SameBytes first second) {metrics metrics' : Metrics}
    (counted : SameMetrics metrics metrics') :
    SameBytes { first with metrics := metrics } { second with metrics := metrics' } :=
  ⟨same.ready, same.bytes, same.renderMiss, counted⟩

theorem prefetch_renderMiss (cache : Cache) (address length : UInt32) :
    (cache.prefetch address length).renderMiss = cache.renderMiss := by
  let kept : Cache → Prop := fun after => after.renderMiss = cache.renderMiss
  unfold Cache.prefetch
  split
  · rfl
  · refine List.foldlRecOn (motive := kept) _ _ rfl fun after same page _ => ?_
    change (after.prefetchPage page).renderMiss = _
    rw [Cache.prefetchPage, requestPage_renderMiss]
    split <;> exact same

theorem SameBytes.prefetch (same : SameBytes first second) (address length : UInt32) :
    SameBytes (first.prefetch address length) (second.prefetch address length) :=
  same.requested (prefetch_requested _ _ _) (prefetch_requested _ _ _) (by
    rw [prefetch_renderMiss, prefetch_renderMiss, same.renderMiss])

/-- A read depends on the bytes at hand. -/
theorem SameBytes.readByte (same : SameBytes first second) (address : UInt32) :
    (first.readByte address).1 = (second.readByte address).1 ∧
      SameBytes (first.readByte address).2 (second.readByte address).2 := by
  have after := same.requested (readByte_requested first address) (readByte_requested second address)
  by_cases below : address < chipLimit
  · have inside := pageOf_lt below
    by_cases present : first.tagOf (pageOf address) = Mirror.ready
    · obtain ⟨byte, miss⟩ := readByte_ready below present
      obtain ⟨byte', miss'⟩ := readByte_ready below ((same.ready _ inside).mp present)
      have copy := same.bytes _ inside present (address.toNat % 256) (Nat.mod_lt _ (by decide))
      have here : pageOf address * 256 + address.toNat % 256 = address.toNat := by
        rw [pageOf_eq]
        omega
      rw [here] at copy
      exact ⟨byte.trans (copy.trans byte'.symm), after (miss.trans (same.renderMiss.trans miss'.symm))⟩
    · have absent : second.tagOf (pageOf address) ≠ Mirror.ready :=
        fun ready' => present ((same.ready _ inside).mpr ready')
      refine ⟨?_, after ((readByte_absent below present).trans (readByte_absent below absent).symm)⟩
      exact (readByte_absent_zero below present).trans (readByte_absent_zero below absent).symm
  · have zero : first.readByte address = (0, first.countRead.refuseAddress) := readByte_beyond below
    have zero' : second.readByte address = (0, second.countRead.refuseAddress) :=
      readByte_beyond below
    exact ⟨(congrArg Prod.fst zero).trans (congrArg Prod.fst zero').symm,
      after ((congrArg (fun read => read.2.renderMiss) zero).trans
        (same.renderMiss.trans (congrArg (fun read => read.2.renderMiss) zero').symm))⟩

/-- A cache has the bytes at hand that its blank has. -/
theorem sameBytes_available (cache : Cache) (metrics : Metrics) :
    SameBytes { cache with metrics := metrics } { cache.available with metrics := metrics } where
  ready page inside := by
    change _ ↔ tag (if page < pageCount ∧ cache.tagOf page = Mirror.ready then _ else _) = _
    by_cases present : cache.tagOf page = Mirror.ready
    · rw [if_pos ⟨inside, present⟩]
      exact ⟨fun _ => rfl, fun _ => present⟩
    · rw [if_neg fun both => present both.2]
      exact ⟨fun ready => absurd ready present, fun ready => absurd ready (by decide)⟩
  bytes page inside present offset below := by
    have number : (page * 256 + offset) / 256 = page := by omega
    change _ = if _ then _ else _
    rw [number, if_pos ⟨inside, present⟩]
  renderMiss := rfl
  metrics := .refl _

/-- Caches with the same bytes at hand have the same blank. -/
theorem SameBytes.available (same : SameBytes first second) : first.available = second.available := by
  have pages : (fun page => if page < pageCount ∧ first.tagOf page = Mirror.ready then Mirror.ready
      else 0) = fun page => if page < pageCount ∧ second.tagOf page = Mirror.ready then Mirror.ready
      else 0 := by
    funext page
    by_cases inside : page < pageCount
    · simp only [inside, true_and, same.ready page inside]
    · simp only [inside, false_and, if_false]
  have bytes : (fun address => if address / 256 < pageCount ∧
      first.tagOf (address / 256) = Mirror.ready then first.shadow address else 0) =
      fun address => if address / 256 < pageCount ∧
        second.tagOf (address / 256) = Mirror.ready then second.shadow address else 0 := by
    funext address
    by_cases inside : address / 256 < pageCount
    · by_cases present : first.tagOf (address / 256) = Mirror.ready
      · have copy := same.bytes _ inside present (address % 256) (Nat.mod_lt _ (by decide))
        rw [Nat.div_add_mod'] at copy
        rw [if_pos ⟨inside, present⟩, if_pos ⟨inside, (same.ready _ inside).mp present⟩, copy]
      · rw [if_neg fun both => present both.2,
          if_neg fun both => present ((same.ready _ inside).mpr both.2)]
    · rw [if_neg fun both => inside both.1, if_neg fun both => inside both.1]
  simp only [Cache.available, pages, bytes, same.renderMiss]

theorem available_available (cache : Cache) : cache.available.available = cache.available :=
  (sameBytes_available cache cache.metrics).symm.available

end Mirror

namespace Poc

open Live.Mailbox (Act)

/-- What the renderer asks of the cache. -/
inductive Access where
  | read (address : UInt32)
  | prefetch (address length : UInt32)
deriving DecidableEq, Repr

/-- The cache with the bank, what happens before each of the next calls, and the
calls so far, the latest first. -/
structure Env where
  cache : Cache
  upcoming : List (List Act)
  log : List Access

/-- What is to happen before the next call happens. -/
def Env.turn (env : Env) : Env :=
  match env.upcoming with
  | [] => env
  | acts :: rest => { env with cache := acts.foldl Act.effect env.cache, upcoming := rest }

def envPort : Port Env where
  readByte address env :=
    let env := env.turn
    let (byte, cache) := env.cache.readByte address
    (byte, { env with cache := cache, log := .read address :: env.log })
  prefetch address length env :=
    let env := env.turn
    { env with
      cache := env.cache.prefetch address length
      log := .prefetch address length :: env.log }
  renderBegin env :=
    let env := env.turn
    { env with cache := env.cache.renderBegin }
  renderMissed env := env.cache.renderMiss
  metrics env := env.cache.metrics
  probe change env := { env with cache.metrics := change env.cache.metrics }

section Erase

/-- An act without what the comparison leaves out: of the cache only the bytes at
hand remain, of the bank only the words that both runs see. -/
def eraseAct : Act → Option Act
  | .guestWrite _ _ _ => none
  | .guestRead _ _ => none
  | .set index value other =>
      if index ∈ hiddenWords then none else some (.set index value other)
  | .add index value => if index ∈ hiddenWords then none else some (.add index value)
  | .flag _ _ => none
  | .cache cache => some (.cache cache.available)

theorem eraseAct_eraseAct (act : Act) : (eraseAct act).bind eraseAct = eraseAct act := by
  cases act with
  | set index value other =>
      simp only [eraseAct]
      split
      · rfl
      next seen => simp only [Option.bind_some, eraseAct, if_neg seen]
  | add index value =>
      simp only [eraseAct]
      split
      · rfl
      next seen => simp only [Option.bind_some, eraseAct, if_neg seen]
  | cache cache =>
      simp only [eraseAct, Option.bind_some, available_available]
  | _ => rfl

theorem filterMap_eraseAct (acts : List Act) :
    (acts.filterMap eraseAct).filterMap eraseAct = acts.filterMap eraseAct := by
  rw [List.filterMap_filterMap]
  exact congrArg (List.filterMap · acts) (funext eraseAct_eraseAct)

variable {first second : Cache}

/-- An act does the same as what remains of it. -/
theorem effect_erased (same : SameBytes first second) (act : Act) :
    SameBytes (act.effect first) (((eraseAct act).map fun act => act.effect second).getD second) := by
  have hidden : ∀ {metrics : Metrics} {index : Nat}, index ∈ hiddenWords →
      (∀ word, word ≠ index → get metrics word = get first.metrics word) →
      SameBytes { first with metrics := metrics } second := by
    intro metrics index member kept
    refine ⟨same.ready, same.bytes, same.renderMiss, fun word seen => ?_⟩
    exact (kept word fun here => seen (here ▸ member)).trans (same.metrics word seen)
  cases act with
  | guestWrite value size address =>
      refine hidden (show pmRequest ∈ hiddenWords by decide) fun word other => ?_
      by_contra changed
      exact other (Live.Mailbox.busWrite_get changed)
  | guestRead size address => exact same
  | set index value other =>
      simp only [eraseAct]
      split
      next member => exact hidden member fun word other => get_set_of_ne other
      next => exact same.withMetrics (set_blind index value _ _ same.metrics)
  | add index value =>
      simp only [eraseAct]
      split
      next member => exact hidden member fun word other => get_add_of_ne other
      next => exact same.withMetrics (add_blind index value _ _ same.metrics)
  | flag mask enabled =>
      exact hidden (show ppFlags ∈ hiddenWords by decide) fun word other => get_flag_of_ne other
  | cache cache =>
      exact (sameBytes_available cache first.metrics).trans
        ((SameBytes.refl cache.available).withMetrics same.metrics)

theorem effects_erased (same : SameBytes first second) (acts : List Act) :
    SameBytes (acts.foldl Act.effect first) ((acts.filterMap eraseAct).foldl Act.effect second) := by
  induction acts generalizing first second with
  | nil => exact same
  | cons act rest ih =>
      have stepped := effect_erased same act
      cases remains : eraseAct act with
      | none =>
          rw [remains] at stepped
          rw [List.filterMap_cons_none remains]
          exact ih stepped
      | some erased =>
          rw [remains] at stepped
          rw [List.filterMap_cons_some remains]
          exact ih stepped

/-- Environments with the same bytes at hand now and before each later call. -/
structure SameEnv (first second : Env) : Prop where
  cache : SameBytes first.cache second.cache
  upcoming : first.upcoming.map (·.filterMap eraseAct) = second.upcoming.map (·.filterMap eraseAct)
  log : first.log = second.log

theorem SameEnv.turn {first second : Env} (same : SameEnv first second) :
    SameEnv first.turn second.turn := by
  obtain ⟨cache, upcoming, log⟩ := first
  obtain ⟨cache', upcoming', log'⟩ := second
  obtain ⟨bytes, equal, logs⟩ := same
  cases upcoming with
  | nil =>
      cases upcoming' with
      | nil => exact ⟨bytes, equal, logs⟩
      | cons acts' rest' => cases equal
  | cons acts rest =>
      cases upcoming' with
      | nil => cases equal
      | cons acts' rest' =>
          obtain ⟨head, tail⟩ := List.cons.inj equal
          refine ⟨?_, tail, logs⟩
          have left := effects_erased bytes acts
          have right := effects_erased (SameBytes.refl cache') acts'
          rw [← show acts.filterMap eraseAct = acts'.filterMap eraseAct from head] at right
          exact left.trans right.symm

/-- The renderer sees no difference between such environments. -/
theorem envPort_couples : envPort.Couples SameEnv where
  symm same := ⟨same.cache.symm, same.upcoming.symm, same.log.symm⟩
  readByte address _ _ same := by
    obtain ⟨byte, cache⟩ := same.turn.cache.readByte address
    exact ⟨byte, cache, same.turn.upcoming, congrArg (List.cons _) same.turn.log⟩
  prefetch address length _ _ same :=
    ⟨same.turn.cache.prefetch address length, same.turn.upcoming,
      congrArg (List.cons _) same.turn.log⟩
  renderBegin same :=
    ⟨⟨same.turn.cache.ready, same.turn.cache.bytes, rfl, same.turn.cache.metrics⟩,
      same.turn.upcoming, same.turn.log⟩
  renderMissed same := same.cache.renderMiss
  probe blind _ _ same :=
    ⟨same.cache.withMetrics (blind _ _ same.cache.metrics), same.upcoming, same.log⟩
  applied word _ _ same := by
    refine ⟨⟨same.cache.ready, same.cache.bytes, same.cache.renderMiss, fun other seen => ?_⟩,
      same.upcoming, same.log⟩
    have apart : other ≠ pmApplied := fun applied => seen (applied ▸ List.mem_cons_self)
    exact (get_set_of_ne apart).trans (same.cache.metrics other seen)

end Erase

variable {F D σ : Type} {port : Port σ} {related : σ → σ → Prop}

/-- Replay states that differ in the mixer's part only, on related hosts. -/
structure Alike (related : σ → σ → Prop) (first second : Replay F D σ) : Prop where
  state : first.state = second.state
  live : Live.Alike related first.live first.host second.live second.host

theorem Alike.of_live (state : LiveState) {live live' : Live F D} {host host' : σ}
    (alike : Live.Alike related live host live' host') :
    Alike related ⟨state, live, host⟩ ⟨state, live', host'⟩ := ⟨rfl, alike⟩

section Poc

variable {first second : Replay F D σ} {host host' : σ}

theorem track_alike (couples : port.Couples related) (same : related host host') (r : Nat)
    (value : UInt16) (state : LiveState) :
    related (track port r value state host).2 (track port r value state host').2 := by
  have channel : ∀ (state : LiveState) (ch : Fin 4) {host host' : σ}, related host host' →
      related (prefetchChannel port state ch host) (prefetchChannel port state ch host') :=
    fun _ _ _ _ same => couples.prefetch _ _ same
  have turn : ∀ (before after : LiveState) (ch : Fin 4) (host host' : σ), related host host' →
      related (if channelOn after.dma ch ∧ ¬ channelOn before.dma ch then
          prefetchChannel port after ch host else host)
        (if channelOn after.dma ch ∧ ¬ channelOn before.dma ch then
          prefetchChannel port after ch host' else host') := by
    intro before after ch host host' same
    split
    · exact channel _ _ same
    · exact same
  simp only [track]
  split_ifs
  · exact same
  · exact channel _ _ same
  · exact same
  · exact channel _ _ same
  · exact same
  · exact List.foldl_rel (r := related) same
      fun ch _ host host' same => turn state { state with dma := setClear state.dma value } ch _ _ same
  · exact same
  · exact same

variable [Floating D]

theorem applyLiveEvent_alike (couples : port.Couples related) (alike : Alike related first second)
    (event : Event) :
    Alike related (applyLiveEvent port event first) (applyLiveEvent port event second) := by
  obtain ⟨state, live, host⟩ := first
  obtain ⟨state', live', host'⟩ := second
  obtain ⟨same, lives, hosts⟩ := alike
  cases same
  have ignored := couples.probe (add_blind ppIgnored 1) hosts
  have tracked := track_alike couples hosts (event.address &&& 0xffe).toNat
    (busWord event.value event.width) state
  have written := Live.write_alike couples ⟨lives, tracked⟩ (0xdff000 ||| (event.address &&& 0xffe))
    (busWord event.value event.width)
  have statesAgree : (track port (event.address &&& 0xffe).toNat
        (busWord event.value event.width) state host).1 =
      (track port (event.address &&& 0xffe).toNat
        (busWord event.value event.width) state host').1 := by
    rw [track_state, track_state]
  simp only [applyLiveEvent]
  split_ifs
  · exact ⟨rfl, lives, ignored⟩
  · exact ⟨rfl, lives, ignored⟩
  · exact ⟨statesAgree, written.live, Live.prefetch_alike couples written⟩
  · exact ⟨statesAgree, written⟩

theorem restoreGlobal_alike (couples : port.Couples related) (alike : Alike related first second)
    (seen : Bool) (address : UInt32) (value : UInt16) :
    Alike related (restoreGlobal port seen address value first)
      (restoreGlobal port seen address value second) := by
  unfold restoreGlobal
  split
  · exact ⟨alike.state, Live.write_alike couples alike.live address value⟩
  · exact alike

variable [Floating F]

theorem restoreLiveState_alike (couples : port.Couples related) (alike : Alike related first second)
    (snapshot : Snapshot) :
    Alike related (restoreLiveState port snapshot first) (restoreLiveState port snapshot second) := by
  have register : ∀ ch (first second : Replay F D σ) reg, Alike related first second →
      Alike related (restoreRegister port snapshot ch first reg)
        (restoreRegister port snapshot ch second reg) := by
    intro ch first second reg alike
    unfold restoreRegister
    split
    · exact alike
    · exact applyLiveEvent_alike couples alike _
  have channel : ∀ ch (first second : Replay F D σ), Alike related first second →
      Alike related ((List.finRange 5).foldl (restoreRegister port snapshot ch) first)
        ((List.finRange 5).foldl (restoreRegister port snapshot ch) second) :=
    fun ch _ _ alike => List.foldl_rel (r := Alike related) alike
      fun reg _ _ _ alike => register ch _ _ reg alike
  have flagged := couples.probe (flag_blind ppFlagCaptureFailed true) alike.live.host
  have reset := Live.reset_alike couples ⟨alike.live.live, flagged⟩
  have cleared := Alike.of_live .cleared reset
  have quiet : Alike related (quietRestore port snapshot first) (quietRestore port snapshot second) := by
    refine restoreGlobal_alike couples (restoreGlobal_alike couples (restoreGlobal_alike couples ?_
      _ _ _) _ _ _) _ _ _
    exact List.foldl_rel (r := Alike related) cleared fun ch _ _ _ alike => channel ch _ _ alike
  have enabled : Alike related (enableDma port snapshot (quietRestore port snapshot first))
      (enableDma port snapshot (quietRestore port snapshot second)) := by
    unfold enableDma
    split
    · exact applyLiveEvent_alike couples quiet _
    · exact quiet
  refine ⟨enabled.state, enabled.live.live, ?_⟩
  exact couples.probe (flag_blind ppFlagCaptureFailed false)
    (couples.probe (add_blind ppResyncSkipped snapshot.skipped)
      (couples.probe (add_blind ppResyncs 1) enabled.live.host))

end Poc

/-- One operation of CPU1 with what CPU0 does during it, or what CPU0 does meanwhile. -/
inductive Op where
  | acts (acts : List Act)
  | mixerApply
  | write (address : UInt32) (value : UInt16)
  | event (event : Event) (during : List (List Act))
  | reset
  | restore (snapshot : Snapshot) (during : List (List Act))
  | render (frames : Nat) (during : List (List Act))

/-- The operation without its mixer part, if anything remains. -/
def Op.erased : Op → Option Op
  | .acts taken =>
      if (taken.filterMap eraseAct).isEmpty then none else some (.acts (taken.filterMap eraseAct))
  | .mixerApply => none
  | .write address value => some (.write address value)
  | .event captured during => some (.event captured (during.map (·.filterMap eraseAct)))
  | .reset => some .reset
  | .restore snapshot during => some (.restore snapshot (during.map (·.filterMap eraseAct)))
  | .render frames during => some (.render frames (during.map (·.filterMap eraseAct)))

/-- What is compared after each frame. -/
@[ext] structure Observation (F D : Type) where
  dma : DmaState F D
  virtualIrqs : UInt32
  waitFrames : UInt32
  waitRecoveries : UInt32
  accesses : List Access

def observe (live : Live F D) (env : Env) : Observation F D where
  dma := live.core.dma
  virtualIrqs := get env.cache.metrics ppVirtualIrqs
  waitFrames := get env.cache.metrics ppCacheWaitFrames
  waitRecoveries := get env.cache.metrics ppCacheWaitRecoveries
  accesses := env.log

def Env.before (during : List (List Act)) (env : Env) : Env := { env with upcoming := during }

section Run

variable [Floating F] [Floating D] [Arith F D]

/-- The states after each frame of the frame loop. -/
def frameStates : Nat → Live F D → Env → List (Live F D × Env)
  | 0, _, _ => []
  | frames + 1, live, env =>
      let (_, live, env) := live.renderFrame envPort env
      (live, env) :: frameStates frames live env

/-- What is seen after each frame of an operation. -/
def Op.seen (op : Op) (replay : Replay F D Env) : List (Observation F D) :=
  match op with
  | .render frames during =>
      let (live, env) := replay.live.mixerApply envPort (replay.host.before during)
      (frameStates frames live env).map fun after => observe after.1 after.2
  | _ => []

def Op.perform (op : Op) (replay : Replay F D Env) : Replay F D Env :=
  match op with
  | .acts taken => { replay with host.cache := taken.foldl Act.effect replay.host.cache }
  | .mixerApply =>
      let (live, env) := replay.live.mixerApply envPort replay.host
      { replay with live := live, host := env }
  | .write address value =>
      let (live, env) := replay.live.write envPort address value replay.host
      { replay with live := live, host := env }
  | .event captured during =>
      applyLiveEvent envPort captured { replay with host := replay.host.before during }
  | .reset =>
      let (live, env) := replay.live.reset envPort replay.host
      { replay with live := live, host := env }
  | .restore snapshot during =>
      restoreLiveState envPort snapshot { replay with host := replay.host.before during }
  | .render frames during =>
      let (_, live, env) := replay.live.render envPort frames (replay.host.before during)
      { replay with live := live, host := env }

/-- What is seen after each frame of a run. -/
def observations : List Op → Replay F D Env → List (Observation F D)
  | [], _ => []
  | op :: rest, replay => op.seen replay ++ observations rest (op.perform replay)

variable {first second : Replay F D Env}

omit [Floating F] [Floating D] [Arith F D] in
theorem before_alike (alike : Alike SameEnv first second) (during : List (List Act)) :
    Alike SameEnv { first with host := first.host.before during }
      { second with host := second.host.before (during.map (·.filterMap eraseAct)) } := by
  refine ⟨alike.state, alike.live.live, alike.live.host.cache, ?_, alike.live.host.log⟩
  simp only [Env.before, List.map_map]
  exact List.map_congr_left fun acts _ => (filterMap_eraseAct acts).symm

omit [Floating F] [Floating D] [Arith F D] in
theorem observe_alike {live live' : Live F D} {env env' : Env}
    (alike : Live.Alike SameEnv live env live' env') : observe live env = observe live' env' := by
  have words := alike.host.cache.metrics
  refine Observation.ext alike.live.dma ?_ ?_ ?_ alike.host.log
  · exact words ppVirtualIrqs (by decide)
  · exact words ppCacheWaitFrames (by decide)
  · exact words ppCacheWaitRecoveries (by decide)

theorem frameStates_alike (frames : Nat) {live live' : Live F D} {env env' : Env}
    (alike : Live.Alike SameEnv live env live' env') :
    (frameStates frames live env).map (fun after => observe after.1 after.2) =
        (frameStates frames live' env').map (fun after => observe after.1 after.2) ∧
      Live.Alike SameEnv (live.renderFrames envPort frames env).2.1
        (live.renderFrames envPort frames env).2.2 (live'.renderFrames envPort frames env').2.1
        (live'.renderFrames envPort frames env').2.2 := by
  induction frames generalizing live live' env env' with
  | zero => exact ⟨rfl, alike⟩
  | succ frames ih =>
      have next := Live.renderFrame_alike envPort_couples alike
      obtain ⟨seen, rest⟩ := ih next
      refine ⟨?_, rest⟩
      simp only [frameStates, List.map_cons, seen, observe_alike next]

omit [Floating F] [Floating D] [Arith F D] in
/-- What remains of the acts keeps the runs alike. -/
theorem acts_alike (alike : Alike SameEnv first second) (acts : List Act) :
    Alike SameEnv { first with host.cache := acts.foldl Act.effect first.host.cache }
      { second with host.cache := (acts.filterMap eraseAct).foldl Act.effect second.host.cache } :=
  ⟨alike.state, alike.live.live, effects_erased alike.live.host.cache acts,
    alike.live.host.upcoming, alike.live.host.log⟩

/-- An operation does and shows the same as what remains of it without the mixer. -/
theorem perform_erased (alike : Alike SameEnv first second) (op : Op) :
    match op.erased with
    | none => op.seen first = [] ∧ Alike SameEnv (op.perform first) second
    | some erased => op.seen first = erased.seen second ∧
        Alike SameEnv (op.perform first) (erased.perform second) := by
  cases op with
  | acts taken =>
      have taken' := acts_alike alike taken
      simp only [Op.erased]
      split
      next none =>
        split at none <;> cases none
        next empty =>
          rw [List.isEmpty_iff.mp empty] at taken'
          exact ⟨rfl, taken'⟩
      next some =>
        split at some <;> cases some
        exact ⟨rfl, taken'⟩
  | mixerApply =>
      simp only [Op.erased]
      refine ⟨rfl, alike.state, ?_⟩
      exact Live.mixerApply_alike envPort_couples alike.live
  | write address value =>
      simp only [Op.erased]
      exact ⟨rfl, alike.state, Live.write_alike envPort_couples alike.live address value⟩
  | event captured during =>
      simp only [Op.erased]
      exact ⟨rfl, applyLiveEvent_alike envPort_couples (before_alike alike during) captured⟩
  | reset =>
      simp only [Op.erased]
      exact ⟨rfl, alike.state, Live.reset_alike envPort_couples alike.live⟩
  | restore snapshot during =>
      simp only [Op.erased]
      exact ⟨rfl, restoreLiveState_alike envPort_couples (before_alike alike during) snapshot⟩
  | render frames during =>
      have before := (before_alike alike during).live
      have applied := Live.mixerApply_alike_both envPort_couples before
      obtain ⟨seen, after⟩ := frameStates_alike frames applied
      simp only [Op.erased]
      refine ⟨seen, alike.state, after.live, ?_⟩
      exact envPort_couples.probe (add_blind _ _) after.host

theorem observations_erased (alike : Alike SameEnv first second) (ops : List Op) :
    observations ops first = observations (ops.filterMap Op.erased) second := by
  induction ops generalizing first second with
  | nil => rfl
  | cons op rest ih =>
      have stepped := perform_erased alike op
      cases remains : op.erased with
      | none =>
          rw [remains] at stepped
          rw [List.filterMap_cons_none remains, observations, stepped.1, List.nil_append]
          exact ih stepped.2
      | some erased =>
          rw [remains] at stepped
          rw [List.filterMap_cons_some remains, observations, observations, stepped.1, ih stepped.2]

end Run

section Settings

open Live.Mailbox (settings settings_of_core writeRegister16_settings)

variable [Floating D]

theorem write_settings (port : Port σ) (address : UInt32) (value : UInt16) (live : Live F D)
    (host : σ) : settings (live.write port address value host).1 = settings live :=
  settings_of_core rfl (writeRegister16_settings live.core address value)

theorem applyLiveEvent_settings (port : Port σ) (event : Event) (replay : Replay F D σ) :
    settings (applyLiveEvent port event replay).live = settings replay.live := by
  simp only [applyLiveEvent]
  split_ifs
  · rfl
  · rfl
  · exact settings_of_core rfl (writeRegister16_settings replay.live.core _ _)
  · exact settings_of_core rfl (writeRegister16_settings replay.live.core _ _)

theorem restoreGlobal_settings (port : Port σ) (seen : Bool) (address : UInt32) (value : UInt16)
    (replay : Replay F D σ) :
    settings (restoreGlobal port seen address value replay).live = settings replay.live := by
  unfold restoreGlobal
  split
  · exact write_settings port address value replay.live replay.host
  · rfl

variable [Floating F]

/-- A restore resets the registers, and no setting of the mixer. -/
theorem restoreLiveState_settings (port : Port σ) (snapshot : Snapshot) (replay : Replay F D σ) :
    settings (restoreLiveState port snapshot replay).live = settings replay.live := by
  have register : ∀ ch reg (other : Replay F D σ), settings other.live = settings replay.live →
      settings (restoreRegister port snapshot ch other reg).live = settings replay.live := by
    intro ch reg other same
    unfold restoreRegister
    split
    · exact same
    · exact (applyLiveEvent_settings port _ other).trans same
  have quiet : settings (quietRestore port snapshot replay).live = settings replay.live := by
    simp only [quietRestore, restoreGlobal_settings]
    let kept : Replay F D σ → Prop := fun other => settings other.live = settings replay.live
    refine List.foldlRecOn (motive := kept) _ _ ?_ fun other same ch _ => ?_
    · exact settings_of_core rfl rfl
    · exact List.foldlRecOn (motive := kept) _ _ same fun other same reg _ => register ch reg other same
  rw [(restoreLiveState_eq port snapshot replay).2, enableDma]
  split
  · exact (applyLiveEvent_settings port _ _).trans quiet
  · exact quiet

end Settings

section Claim

open Live.Mailbox (settings)

variable [Floating F] [Floating D] [Arith F D]

/-- Nothing that happens to Paula changes a mixer setting in force. -/
structure SettingsKept (replay : Replay F D Env) : Prop where
  event : ∀ event, settings (applyLiveEvent envPort event replay).live = settings replay.live
  write : ∀ address value,
    settings (replay.live.write envPort address value replay.host).1 = settings replay.live
  reset : settings (replay.live.reset envPort replay.host).1 = settings replay.live
  restore : ∀ snapshot,
    settings (restoreLiveState envPort snapshot replay).live = settings replay.live
  failed : replay.live.frameMissed replay.host envPort = true →
    settings (replay.live.renderFrame envPort replay.host).2.1 = settings replay.live

/-- Runs that differ in their mixer history show the same DMA state, the same accesses
to the cache and the same counters after every frame; and nothing but an adoption changes
a mixer setting. -/
theorem mixer_noninterference {ops ops' : List Op}
    (same : ops.filterMap Op.erased = ops'.filterMap Op.erased) (start : Replay F D Env) :
    observations ops start = observations ops' start ∧
      ∀ replay : Replay F D Env, SettingsKept replay := by
  have started : Alike SameEnv start start := ⟨rfl, .refl _, .refl _, rfl, rfl⟩
  refine ⟨?_, fun replay => ⟨fun event => applyLiveEvent_settings envPort event replay,
    fun address value => write_settings envPort address value replay.live replay.host,
    Live.Mailbox.settings_of_core rfl rfl,
    fun snapshot => restoreLiveState_settings envPort snapshot replay, fun _ => ?_⟩⟩
  · rw [observations_erased started ops, observations_erased started ops', same]
  · exact Live.Mailbox.settings_of_core
      (Live.renderFrame_settings replay.live replay.host envPort).1
      (Live.renderFrame_keeps replay.live replay.host envPort).settings

/-- A voice is started and rendered, with and without a guest at the mixer. -/
def plainRun : List Op :=
  [.event ⟨0, 0xdff0a4, 1, 2, 0⟩ [], .event ⟨0, 0xdff096, 0x8201, 2, 0⟩ [], .render 2 []]

def mixedRun : List Op :=
  [.acts [.guestWrite 0x80078000 4 0xdeadb188], .event ⟨0, 0xdff0a4, 1, 2, 0⟩ [], .mixerApply,
    .event ⟨0, 0xdff096, 0x8201, 2, 0⟩ [], .render 2 []]

theorem mixer_noninterference_of_mixedRun :
    let start : Replay ℚ ℚ Env := .initial envPort ⟨PageCache.sampleCache, [], []⟩
    observations plainRun start = observations mixedRun start :=
  (mixer_noninterference (show plainRun.filterMap Op.erased = mixedRun.filterMap Op.erased from rfl)
    _).1

end Claim

end Poc

end Paulastorm
