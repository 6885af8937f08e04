import Paulastorm.Live.Settings
import Paulastorm.Poc.Loop

namespace Paulastorm.Poc

/-! What the operations of the replay loop leave of its counters in the diagnostic bank. -/

open Paulastorm.Core Mirror Probe

/-- A word that neither CPU0 nor the registers nor a frame under way can move. -/
structure Spared (word : Nat) : Prop where
  below : word < 64
  shared : word ∉ sharedWords
  shadow : word ∉ Live.shadowWords
  rendering : word ∉ [ppVirtualIrqs, ppCacheWaitFrames, ppCacheWaitRecoveries]

instance Spared.decidable (word : Nat) : Decidable (Spared word) :=
  decidable_of_iff (word < 64 ∧ word ∉ sharedWords ∧ word ∉ Live.shadowWords ∧
    word ∉ [ppVirtualIrqs, ppCacheWaitFrames, ppCacheWaitRecoveries])
    ⟨fun ⟨below, shared, shadow, rendering⟩ => ⟨below, shared, shadow, rendering⟩,
      fun ⟨below, shared, shadow, rendering⟩ => ⟨below, shared, shadow, rendering⟩⟩

theorem get_add {index : Nat} (counter : 3 ≤ index ∧ index < pmMagic) (metrics : Metrics)
    (value : UInt32) (word : Nat) : get (add metrics index value) word =
      get metrics word + if word = index then value else 0 := by
  by_cases same : word = index
  · subst same
    rw [get_add_self counter.1 counter.2, if_pos rfl]
  · rw [get_add_of_ne same, if_neg same, UInt32.add_zero]

section Words

variable {F D σ : Type} {port : Port σ} {word : Nat} (spared : Spared word)
include spared

theorem Spared.of_shared {index : Nat} (shared : index ∈ sharedWords) : word ≠ index :=
  fun same => spared.shared (same ▸ shared)

theorem Spared.of_shadow {index : Nat} (shadow : index ∈ Live.shadowWords) : word ≠ index :=
  fun same => spared.shadow (same ▸ shadow)

theorem Spared.of_high {index : Nat} (high : 64 ≤ index) : word ≠ index := by
  have below := spared.below
  omega

theorem get_clearShadow (metrics : Metrics) :
    get (Live.clearShadow metrics) word = get metrics word := by
  have cells : ∀ (ch : Fin 4) (cell : Nat) (metrics : Metrics) (value : UInt32),
      get (set metrics (channelCell ch cell) value) word = get metrics word := by
    intro ch cell metrics value
    refine get_set_of_ne (spared.of_high ?_)
    rw [channelCell, Nat.add_assoc]
    exact Nat.le_add_right _ _
  have globals : ∀ index ∈ Live.shadowWords, ∀ (metrics : Metrics) (value : UInt32),
      get (set metrics index value) word = get metrics word :=
    fun index shadow metrics value => get_set_of_ne (spared.of_shadow shadow)
  have channels : List.finRange 4 = [0, 1, 2, 3] := rfl
  simp only [Live.clearShadow, Live.clearChannel, channels, List.foldl_cons, List.foldl_nil, cells]
  rw [globals ppAdkcon (by decide), globals ppIntreq (by decide), globals ppIntena (by decide),
    globals ppDmacon (by decide)]

variable (owns : port.Owns fun word => word ∉ sharedWords)
include owns

theorem track_get (r : Nat) (value : UInt16) (state : LiveState) (host : σ) :
    get (port.metrics (track port r value state host).2) word = get (port.metrics host) word := by
  have channel : ∀ (state : LiveState) (ch : Fin 4) (host : σ),
      get (port.metrics (prefetchChannel port state ch host)) word = get (port.metrics host) word :=
    fun _ _ host => owns.prefetch _ _ host word spared.shared
  simp only [track]
  split_ifs
  · rfl
  · exact channel _ _ _
  · rfl
  · exact channel _ _ _
  · rfl
  · let kept : σ → Prop := fun after =>
      get (port.metrics after) word = get (port.metrics host) word
    refine List.foldlRecOn (motive := kept) _ _ rfl fun after same ch _ => ?_
    change get (port.metrics (if _ then _ else _)) word = _
    split
    · exact (channel _ _ _).trans same
    · exact same
  · rfl
  · rfl

variable [Floating D]

theorem write_get (address : UInt32) (value : UInt16) (live : Live F D) (host : σ) :
    get (port.metrics (live.write port address value host).2) word =
      get (port.metrics host) word := by
  have probed : port.metrics (live.write port address value host).2 =
      Live.writeShadow (address &&& 0xfff).toNat value (port.metrics host) :=
    owns.metrics_probe _ _
  rw [probed, Live.get_writeShadow spared.below spared.shadow]

theorem applyLiveEvent_get (event : Event) (replay : Replay F D σ) :
    get (port.metrics (applyLiveEvent port event replay).host) word =
      get (port.metrics replay.host) word := by
  have ignored : get (port.metrics (port.probe (add · ppIgnored 1) replay.host)) word =
      get (port.metrics replay.host) word := by
    rw [owns.metrics_probe, get_add_of_ne (spared.of_shadow (by decide))]
  have tracked := track_get spared owns (event.address &&& 0xffe).toNat
    (busWord event.value event.width) replay.state replay.host
  have written := write_get spared owns (0xdff000 ||| (event.address &&& 0xffe))
    (busWord event.value event.width) replay.live (track port (event.address &&& 0xffe).toNat
      (busWord event.value event.width) replay.state replay.host).2
  simp only [applyLiveEvent]
  split_ifs
  · exact ignored
  · exact ignored
  · exact (Live.prefetch_get owns _ _ spared.shared).trans (written.trans tracked)
  · exact written.trans tracked

theorem restoreGlobal_get (seen : Bool) (address : UInt32) (value : UInt16)
    (replay : Replay F D σ) :
    get (port.metrics (restoreGlobal port seen address value replay).host) word =
      get (port.metrics replay.host) word := by
  unfold restoreGlobal
  split
  · exact write_get spared owns address value replay.live replay.host
  · rfl

theorem restoreRegisters_get (snapshot : Snapshot) (replay : Replay F D σ) :
    get (port.metrics ((List.finRange 4).foldl (fun replay ch =>
      (List.finRange 5).foldl (restoreRegister port snapshot ch) replay) replay).host) word =
      get (port.metrics replay.host) word := by
  let kept : Replay F D σ → Prop := fun after =>
    get (port.metrics after.host) word = get (port.metrics replay.host) word
  refine List.foldlRecOn (motive := kept) _ _ rfl fun after same ch _ => ?_
  refine List.foldlRecOn (motive := kept) _ _ same fun after same reg _ => ?_
  change get (port.metrics (restoreRegister port snapshot ch after reg).host) word = _
  unfold restoreRegister
  split
  · exact same
  · exact (applyLiveEvent_get spared owns _ _).trans same

variable [Floating F]

/-- A recovery counts itself and the events it skipped. -/
theorem restoreLiveState_get (snapshot : Snapshot) (replay : Replay F D σ) :
    get (port.metrics (restoreLiveState port snapshot replay).host) word =
      get (port.metrics replay.host) word + (if word = ppResyncs then 1 else 0) +
        if word = ppResyncSkipped then snapshot.skipped else 0 := by
  have flags : word ≠ ppFlags := spared.of_shared (by decide)
  have cleared : get (port.metrics (replay.live.reset port
      (port.probe (flag · ppFlagCaptureFailed true) replay.host)).2) word =
      get (port.metrics replay.host) word := by
    change get (port.metrics (port.probe Live.clearShadow _)) word = _
    rw [owns.metrics_probe, get_clearShadow spared, owns.metrics_probe, get_flag_of_ne flags]
  simp only [restoreLiveState, owns.metrics_probe]
  rw [get_flag_of_ne flags, get_add (by decide), get_add (by decide)]
  congr 2
  split
  · rw [applyLiveEvent_get spared owns, restoreGlobal_get spared owns,
      restoreGlobal_get spared owns, restoreGlobal_get spared owns,
      restoreRegisters_get spared owns, cleared]
  · rw [restoreGlobal_get spared owns, restoreGlobal_get spared owns,
      restoreGlobal_get spared owns, restoreRegisters_get spared owns, cleared]

omit [Floating D] in
theorem mixerApply_get (live : Live F D) (host : σ) :
    get (port.metrics (live.mixerApply port host).2) word = get (port.metrics host) word := by
  simp only [Live.mixerApply]
  split
  · rfl
  · simp only [owns.metrics_probe]
    exact get_set_of_ne (spared.of_high (by decide))

variable [Arith F D]

theorem renderFrames_get (frames : Nat) (live : Live F D) (host : σ) :
    get (port.metrics (live.renderFrames port frames host).2.2) word =
      get (port.metrics host) word := by
  have others := spared.rendering
  simp only [List.mem_cons, not_or] at others
  induction frames generalizing live host with
  | zero => rfl
  | succ frames ih =>
      have rendered := Live.renderFrame_get live host owns spared.shared others.1 others.2.1
        others.2.2.1
      exact (ih _ _).trans rendered

/-- A frame counts itself, as rendered or as silent. -/
theorem sample_get (silent : Bool) (replay : Replay F D σ) :
    get (port.metrics (Loop.sample port silent replay).2.host) word =
      get (port.metrics replay.host) word +
        if word = (if silent then ppReplaySilentFrames else ppRenderFrames) then 1 else 0 := by
  cases silent with
  | true =>
      simp only [Loop.sample, if_true, owns.metrics_probe]
      exact get_add (by decide) _ _ _
  | false =>
      let adopted := replay.live.mixerApply port replay.host
      have rendered := (renderFrames_get spared owns 1 adopted.1 adopted.2).trans
        (mixerApply_get spared owns replay.live replay.host)
      simp only [Loop.sample, Live.render, Bool.false_eq_true, if_false, owns.metrics_probe]
      rw [get_add (by decide), rendered]
      rfl

end Words

/-- The counters of the replay loop. -/
def loopCounters : List Nat :=
  [ppRenderFrames, ppResyncs, ppReplaySilentFrames, ppSnapshotRetries]

theorem spared_of_counter {word : Nat} (counter : word ∈ loopCounters) : Spared word := by
  have spared : ∀ word ∈ loopCounters, Spared word := by decide
  exact spared word counter

theorem restore_counters {F D σ : Type} [Floating F] [Floating D] {port : Port σ}
    (owns : port.Owns fun word => word ∉ sharedWords) (snapshot : Snapshot)
    (replay : Replay F D σ) {word : Nat} (counter : word ∈ loopCounters) :
    get (port.metrics (restoreLiveState port snapshot replay).host) word =
      get (port.metrics replay.host) word + if word = ppResyncs then 1 else 0 := by
  rw [restoreLiveState_get (spared_of_counter counter) owns,
    if_neg fun same : word = ppResyncSkipped => absurd (same ▸ counter) (by decide),
    UInt32.add_zero]

/-- From one state to the other nothing is latched but audio interrupt requests, and the
loop's counters only count `counted`. -/
structure Replay.Kept {F D σ : Type} (port : Port σ) (counted : List Nat)
    (before after : Replay F D σ) : Prop where
  state : after.state = before.state
  bank : after.live.core.bank.withoutIntreq = before.live.core.bank.withoutIntreq
  counters : (port.Owns fun word => word ∉ sharedWords) → ∀ word ∈ loopCounters,
    get (port.metrics after.host) word =
      get (port.metrics before.host) word + if word ∈ counted then 1 else 0

namespace Replay

variable {F D σ : Type} {port : Port σ} {counted : List Nat} {before after : Replay F D σ}

theorem Kept.refl (port : Port σ) (replay : Replay F D σ) : replay.Kept port [] replay :=
  ⟨rfl, rfl, fun _ _ _ => (UInt32.add_zero _).symm⟩

theorem Kept.trans {last : Replay F D σ} (first : before.Kept port counted after)
    (second : after.Kept port [] last) : before.Kept port counted last where
  state := second.state.trans first.state
  bank := second.bank.trans first.bank
  counters owns word counter := by
    rw [second.counters owns word counter, first.counters owns word counter]
    exact UInt32.add_zero _

/-- An update of the bank counts what it counts. -/
theorem Kept.probe (port : Port σ) {change : Metrics → Metrics} (replay : Replay F D σ)
    (changed : ∀ metrics, ∀ word ∈ loopCounters,
      get (change metrics) word = get metrics word + if word ∈ counted then 1 else 0) :
    replay.Kept port counted { replay with host := port.probe change replay.host } :=
  ⟨rfl, rfl, fun owns word counter => by rw [owns.metrics_probe, changed _ _ counter]⟩

/-- An update of other words comes on top. -/
theorem Kept.andProbe (kept : before.Kept port counted after) {change : Metrics → Metrics}
    (same : ∀ metrics, ∀ word ∈ loopCounters, get (change metrics) word = get metrics word) :
    before.Kept port counted { after with host := port.probe change after.host } :=
  ⟨kept.state, kept.bank, fun owns word counter => by
    rw [owns.metrics_probe, same _ _ counter, kept.counters owns word counter]⟩

section Render

variable [Floating F]

theorem mixerApply_bank (port : Port σ) (live : Live F D) (host : σ) :
    (live.mixerApply port host).1.core.bank = live.core.bank := by
  unfold Live.mixerApply
  simp only
  split
  · rfl
  · change (Live.adoptCore _ live.core).bank = _
    rw [Live.adoptCore_eq]
    rfl

theorem mixerApply_kept (port : Port σ) (replay : Replay F D σ) :
    replay.Kept port [] { replay with
      live := (replay.live.mixerApply port replay.host).1
      host := (replay.live.mixerApply port replay.host).2 } where
  state := rfl
  bank := congrArg Bank.withoutIntreq (mixerApply_bank port replay.live replay.host)
  counters owns word counter := by
    rw [mixerApply_get (spared_of_counter counter) owns]
    exact (UInt32.add_zero _).symm

variable [Floating D] [Arith F D]

theorem renderFrames_bank (port : Port σ) (frames : Nat) (live : Live F D) (host : σ) :
    (live.renderFrames port frames host).2.1.core.bank.withoutIntreq =
      live.core.bank.withoutIntreq := by
  induction frames generalizing live host with
  | zero => rfl
  | succ frames ih => exact (ih _ _).trans (Live.renderFrame_keeps live host port).bank

theorem sample_kept (port : Port σ) (silent : Bool) (replay : Replay F D σ) :
    replay.Kept port [if silent then ppReplaySilentFrames else ppRenderFrames]
      (Loop.sample port silent replay).2 := by
  have counted : (port.Owns fun word => word ∉ sharedWords) → ∀ word ∈ loopCounters,
      get (port.metrics (Loop.sample port silent replay).2.host) word =
        get (port.metrics replay.host) word +
          if word ∈ [if silent then ppReplaySilentFrames else ppRenderFrames] then 1 else 0 := by
    intro owns word counter
    rw [sample_get (spared_of_counter counter) owns]
    simp only [List.mem_singleton]
  cases silent with
  | true => exact ⟨rfl, rfl, counted⟩
  | false =>
      refine ⟨?_, ?_, counted⟩
      · simp only [Loop.sample, Bool.false_eq_true, if_false]
      · have adopted := mixerApply_bank port replay.live replay.host
        have rendered := renderFrames_bank port 1 (replay.live.mixerApply port replay.host).1
          (replay.live.mixerApply port replay.host).2
        simp only [Loop.sample, Bool.false_eq_true, if_false, Live.render]
        rw [rendered, adopted]

end Render

end Replay

/-- A word that is stored is not a counter. -/
theorem set_counters {index : Nat} (stored : index ∉ loopCounters) (metrics : Metrics)
    (value : UInt32) (word : Nat) (counter : word ∈ loopCounters) :
    get (set metrics index value) word = get metrics word :=
  get_set_of_ne fun same => stored (same ▸ counter)

theorem flag_counters (mask : UInt32) (enabled : Bool) (metrics : Metrics) (word : Nat)
    (counter : word ∈ loopCounters) : get (flag metrics mask enabled) word = get metrics word :=
  get_flag_of_ne ((spared_of_counter counter).of_shared (by decide))

theorem add_counters {index : Nat} (other : index ∉ loopCounters) (metrics : Metrics)
    (value : UInt32) (word : Nat) (counter : word ∈ loopCounters) :
    get (add metrics index value) word = get metrics word :=
  get_add_of_ne fun same => other (same ▸ counter)

theorem meter_counters (left right : Int32) (metrics : Metrics) (word : Nat)
    (counter : word ∈ loopCounters) : get (meter left right metrics) word = get metrics word := by
  have either : ∀ (condition : Prop) [Decidable condition] (changed metrics : Metrics),
      get changed word = get metrics word →
      get (if condition then changed else metrics) word = get metrics word := by
    intro condition _ changed metrics same
    split
    · exact same
    · rfl
  have nonzero := add_counters (by decide : ppNonzeroFrames ∉ loopCounters) metrics 1 word counter
  exact (either _ _ _ (set_counters (by decide) _ _ _ counter)).trans
    ((either _ _ _ (set_counters (by decide) _ _ _ counter)).trans (either _ _ _ nonzero))

theorem fail_counters (metrics : Metrics) (word : Nat) (counter : word ∈ loopCounters) :
    get (fail metrics) word = get metrics word := by
  rw [fail, flag_counters _ _ _ _ counter, flag_counters _ _ _ _ counter,
    set_counters (by decide) _ _ _ counter]

end Paulastorm.Poc
