import Paulastorm.Core.Callbacks
import Paulastorm.Core.Keeps
import Paulastorm.Live

namespace Paulastorm

/-! What one frame of the live mirror does, complete or not. -/

open Paulastorm.Core Probe

/-- Words of the bank that only change through `probe`. -/
structure Port.Owns {σ : Type} (port : Port σ) (own : Nat → Prop) : Prop where
  metrics_probe : ∀ change host, port.metrics (port.probe change host) = change (port.metrics host)
  missed_probe : ∀ change host, port.renderMissed (port.probe change host) = port.renderMissed host
  readByte : ∀ address host word, own word →
    get (port.metrics (port.readByte address host).2) word = get (port.metrics host) word
  prefetch : ∀ address length host word, own word →
    get (port.metrics (port.prefetch address length host)) word = get (port.metrics host) word
  renderBegin : ∀ host word, own word →
    get (port.metrics (port.renderBegin host)) word = get (port.metrics host) word

/-- A property of the host that no call of CPU1 breaks. -/
structure Port.Preserves {σ : Type} (port : Port σ) (holds : σ → Prop) : Prop where
  readByte : ∀ address host, holds host → holds (port.readByte address host).2
  prefetch : ∀ address length host, holds host → holds (port.prefetch address length host)
  renderBegin : ∀ host, holds host → holds (port.renderBegin host)
  probe : ∀ change host, holds host → holds (port.probe change host)

/-- A property of the host that rendering does not break: of the updates of the
bank it only needs the additions to the counters. -/
structure Port.Upholds {σ : Type} (port : Port σ) (holds : σ → Prop) : Prop where
  readByte : ∀ address host, holds host → holds (port.readByte address host).2
  prefetch : ∀ address length host, holds host → holds (port.prefetch address length host)
  renderBegin : ∀ host, holds host → holds (port.renderBegin host)
  add : ∀ index value host, holds host → holds (port.probe (add · index value) host)

theorem Port.Preserves.upholds {σ : Type} {port : Port σ} {holds : σ → Prop}
    (preserves : port.Preserves holds) : port.Upholds holds where
  readByte := preserves.readByte
  prefetch := preserves.prefetch
  renderBegin := preserves.renderBegin
  add _ _ := preserves.probe _

namespace Live

variable {F D σ : Type} {port : Port σ} {own : Nat → Prop} {holds : σ → Prop}

/-- The windows that the lookahead of one channel asks for. -/
def windows (f : Paula.FetchState) : List (UInt32 × UInt32) :=
  let bytes : UInt32 := if f.wordsLeft > 512 then 1024 else f.wordsLeft * 2
  let remaining : UInt32 := 1024 - bytes
  let loopbytes : UInt32 := if f.loopWords > 512 then 1024 else f.loopWords * 2
  if !f.enabled then []
  else (if bytes ≠ 0 then [(f.cursor, bytes)] else []) ++
    (if bytes < 1024 ∧ f.loopWords ≠ 0 then
      [(f.loop, if remaining > loopbytes then loopbytes else remaining)] else [])

/-- The lookahead is a list of prefetch calls that only depends on the core. -/
theorem prefetch_eq (port : Port σ) (core : Paula F D) (host : σ) : prefetch port core host =
    ((List.finRange 4).flatMap fun ch => windows (core.fetchState ch)).foldl
      (fun host window => port.prefetch window.1 window.2 host) host := by
  have channel : ∀ host ch, prefetchChannel port core host ch =
      (windows (core.fetchState ch)).foldl
        (fun host window => port.prefetch window.1 window.2 host) host := by
    intro host ch
    simp only [prefetchChannel, windows]
    generalize (if (core.fetchState ch).wordsLeft > 512 then 1024
      else (core.fetchState ch).wordsLeft * 2 : UInt32) = bytes
    generalize (if 1024 - bytes >
        (if (core.fetchState ch).loopWords > 512 then 1024 else (core.fetchState ch).loopWords * 2)
      then (if (core.fetchState ch).loopWords > 512 then 1024
        else (core.fetchState ch).loopWords * 2)
      else 1024 - bytes : UInt32) = rest
    split_ifs <;> rfl
  rw [prefetch, List.foldl_flatMap]
  exact congrArg (fun turn => (List.finRange 4).foldl turn host) (funext₂ channel)

theorem windows_preserve {windows : List (UInt32 × UInt32)}
    (prefetch : ∀ address length host, holds host → holds (port.prefetch address length host))
    {host : σ} (held : holds host) :
    holds (windows.foldl (fun host window => port.prefetch window.1 window.2 host) host) := by
  induction windows generalizing host with
  | nil => exact held
  | cons window rest ih => exact ih (prefetch _ _ _ held)

theorem prefetch_get (owns : port.Owns own) (core : Paula F D) (host : σ) {word : Nat}
    (owned : own word) :
    get (port.metrics (prefetch port core host)) word = get (port.metrics host) word := by
  rw [prefetch_eq]
  have kept : ∀ address length host', get (port.metrics host') word = get (port.metrics host) word →
      get (port.metrics (port.prefetch address length host')) word = get (port.metrics host) word :=
    fun address length host' same => (owns.prefetch address length host' word owned).trans same
  exact windows_preserve kept rfl

theorem prefetch_upholds (upholds : port.Upholds holds) (core : Paula F D) {host : σ}
    (held : holds host) : holds (prefetch port core host) := by
  rw [prefetch_eq]
  exact windows_preserve upholds.prefetch held

theorem lookAhead_upholds (upholds : port.Upholds holds) (live : Live F D) {host : σ}
    (held : holds host) : holds (live.lookAhead port host).2 := by
  simp only [lookAhead]
  split_ifs
  · exact prefetch_upholds upholds live.core held
  · exact held

theorem lookAhead_preserves (preserves : port.Preserves holds) (live : Live F D) {host : σ}
    (held : holds host) : holds (live.lookAhead port host).2 :=
  lookAhead_upholds preserves.upholds live held

variable (live : Live F D) (host : σ)

theorem lookAhead_get (owns : port.Owns own) {word : Nat} (owned : own word) :
    get (port.metrics (live.lookAhead port host).2) word = get (port.metrics host) word := by
  simp only [lookAhead]
  split_ifs
  · exact prefetch_get owns live.core host owned
  · rfl

variable [Floating F]

theorem commit_missed (owns : port.Owns own) (mix : F × F) (irqs : UInt32) :
    port.renderMissed (live.commit port mix irqs host).2.2 = port.renderMissed host := by
  simp only [commit]
  split_ifs <;> simp [owns.missed_probe]

/-- A commit counts the frame's interrupts. -/
theorem commit_irqs (owns : port.Owns own) (mix : F × F) (irqs : UInt32) :
    get (port.metrics (live.commit port mix irqs host).2.2) ppVirtualIrqs =
      get (port.metrics host) ppVirtualIrqs + irqs := by
  simp only [commit]
  have counted : ∀ metrics : Metrics,
      get (add metrics ppVirtualIrqs irqs) ppVirtualIrqs = get metrics ppVirtualIrqs + irqs :=
    fun metrics => get_add_self (by decide) (by decide)
  split_ifs with some <;> simp_all [owns.metrics_probe]

theorem commit_get (owns : port.Owns own) (mix : F × F) (irqs : UInt32) {word : Nat}
    (counter : word ≠ ppVirtualIrqs) (recoveries : word ≠ ppCacheWaitRecoveries) :
    get (port.metrics (live.commit port mix irqs host).2.2) word = get (port.metrics host) word := by
  simp only [commit]
  split_ifs <;> simp [owns.metrics_probe, counter, recoveries]

variable [Floating D] [Arith F D]

/-- During an attempt interrupts are only counted, and no owned word changes. -/
theorem attempt_get (owns : port.Owns own) (core : Paula F D) {word : Nat} (owned : own word) :
    get (port.metrics (attempt port core host).2.host) word = get (port.metrics host) word := by
  have kept : (attempt port core host).2.renderAttempt = true ∧
      get (port.metrics (attempt port core host).2.host) word = get (port.metrics host) word := by
    refine Paula.render_host (callbacks port) (fun state => state.renderAttempt = true ∧
      get (port.metrics state.host) word = get (port.metrics host) word) ?_ ?_ core
      ⟨rfl, owns.renderBegin host word owned⟩
    · intro address state held
      exact ⟨held.1, (owns.readByte address state.host word owned).trans held.2⟩
    · intro bits state held
      simp only [callbacks, if_pos held.1]
      exact held
  exact kept.2

theorem attempt_upholds (upholds : port.Upholds holds) (core : Paula F D) {host : σ}
    (held : holds host) : holds (attempt port core host).2.host := by
  refine Paula.render_host (callbacks port) (fun state => holds state.host) ?_ ?_ core
    (upholds.renderBegin host held)
  · exact fun address state held => upholds.readByte address state.host held
  · intro bits state held
    simp only [callbacks]
    split_ifs
    · exact held
    · exact upholds.add _ _ _ held

/-- The state the core is in when the frame's attempt starts, and the attempt. -/
def speculation (port : Port σ) : ((F × F) × Paula F D) × Speculation σ :=
  attempt port live.core (live.lookAhead port host).2

/-- The frame has met a missing page. -/
def frameMissed (port : Port σ) : Bool := port.renderMissed (speculation live host port).2.host

/-- The static variables after the attempt. -/
def attempted (port : Port σ) : Live F D :=
  { (live.lookAhead port host).1 with
    renderAttempt := false
    speculativeIrqs := (speculation live host port).2.speculativeIrqs }

theorem renderFrame_eq : live.renderFrame port host =
    if live.frameMissed host port = true then
      (live.attempted host port).hold port (speculation live host port).2.host
    else
      { live.attempted host port with core := (speculation live host port).1.2 }.commit port
        (speculation live host port).1.1 (speculation live host port).2.speculativeIrqs
        (speculation live host port).2.host := by
  have core : (live.lookAhead port host).1.core = live.core := rfl
  simp only [renderFrame, frameMissed, speculation, attempted, core]

/-- A frame makes no other calls. -/
theorem renderFrame_upholds (upholds : port.Upholds holds) {host : σ} (held : holds host) :
    holds (live.renderFrame port host).2.2 := by
  have after : holds (speculation live host port).2.host :=
    attempt_upholds upholds live.core (lookAhead_upholds upholds live held)
  rw [renderFrame_eq]
  split
  · exact upholds.add _ _ _ after
  · simp only [commit]
    split_ifs
    · exact upholds.add _ _ _ (upholds.add _ _ _ after)
    · exact upholds.add _ _ _ after
    · exact upholds.add _ _ _ after
    · exact after

theorem renderFrame_preserves (preserves : port.Preserves holds) {host : σ} (held : holds host) :
    holds (live.renderFrame port host).2.2 :=
  renderFrame_upholds live preserves.upholds held

/-- The port remembers whether the last frame missed. -/
theorem renderFrame_missed (owns : port.Owns own) :
    port.renderMissed (live.renderFrame port host).2.2 = live.frameMissed host port := by
  rw [renderFrame_eq]
  split
  · exact owns.missed_probe _ _
  · exact commit_missed _ _ owns _ _

/-- A frame adopts no setting. -/
theorem renderFrame_settings (port : Port σ) :
    (live.renderFrame port host).2.1.masterTarget = live.masterTarget ∧
    (live.renderFrame port host).2.1.lastMixer = live.lastMixer := by
  rw [renderFrame_eq]
  split <;> exact ⟨rfl, rfl⟩

/-- A failed frame leaves the core, the master gain and the interrupt count. -/
theorem renderFrame_failed (owns : port.Owns own) (counter : own ppVirtualIrqs)
    (missed : live.frameMissed host port = true) :
    (live.renderFrame port host).2.1.core = live.core ∧
      (live.renderFrame port host).2.1.masterGain = live.masterGain ∧
      get (port.metrics (live.renderFrame port host).2.2) ppVirtualIrqs =
        get (port.metrics host) ppVirtualIrqs := by
  rw [renderFrame_eq, if_pos missed]
  refine ⟨rfl, rfl, ?_⟩
  simp only [hold, owns.metrics_probe]
  rw [get_add_of_ne (by decide)]
  exact (attempt_get _ owns live.core counter).trans (lookAhead_get live host owns counter)

/-- What a complete frame commits. -/
structure Committed (port : Port σ) (live : Live F D) (host : σ) (mix : F × F) (core : Paula F D)
    (irqs : UInt32) (after : Live F D) (after' : σ) : Prop where
  core : after.core = core
  masterGain : after.masterGain =
    live.masterGain + rampDelta (live.masterTarget - live.masterGain) rampStep
  left : after.lastLeft = mix.1 * after.masterGain
  right : after.lastRight = mix.2 * after.masterGain
  irqs : get (port.metrics after') ppVirtualIrqs = get (port.metrics host) ppVirtualIrqs + irqs

theorem renderFrame_committed (owns : port.Owns own) (counter : own ppVirtualIrqs)
    (complete : live.frameMissed host port = false) :
    Committed port live host (speculation live host port).1.1 (speculation live host port).1.2
      (speculation live host port).2.speculativeIrqs (live.renderFrame port host).2.1
      (live.renderFrame port host).2.2 := by
  have before := (attempt_get (live.lookAhead port host).2 owns live.core counter).trans
    (lookAhead_get live host owns counter)
  rw [renderFrame_eq, complete, if_neg (by decide)]
  refine ⟨rfl, rfl, rfl, rfl, ?_⟩
  rw [commit_irqs _ _ owns]
  exact congrArg (· + _) before

/-- A frame, complete or not, latches no register. -/
theorem renderFrame_keeps (port : Port σ) :
    Paula.KeepsRegisters live.core (live.renderFrame port host).2.1.core := by
  rw [renderFrame_eq]
  split
  · exact .refl _
  · exact Paula.render_keeps (callbacks port) live.core _

/-- A frame moves three words of the bank that are not the host's. -/
theorem renderFrame_get (owns : port.Owns own) {word : Nat} (owned : own word)
    (counter : word ≠ ppVirtualIrqs) (waits : word ≠ ppCacheWaitFrames)
    (recoveries : word ≠ ppCacheWaitRecoveries) :
    get (port.metrics (live.renderFrame port host).2.2) word = get (port.metrics host) word := by
  have before := (attempt_get (live.lookAhead port host).2 owns live.core owned).trans
    (lookAhead_get live host owns owned)
  rw [renderFrame_eq]
  split
  · simp only [hold, owns.metrics_probe]
    rw [get_add_of_ne waits]
    exact before
  · exact (commit_get _ _ owns _ _ counter recoveries).trans before

end Live

end Paulastorm
