import Paulastorm.Core.Render
import Paulastorm.Probe

namespace Paulastorm

/-! The register-level live mirror of `paula_live.cpp`.

The mirror owns the emulated core and its static variables.  The sample cache
and the diagnostic bank belong to a host, which it only reaches through a
`Port`.
-/

open Paulastorm.Core Probe

/-- The services of the host: `paula_mirror_*` for the cache and `paula_probe_*`
for the diagnostic bank. -/
structure Port (σ : Type) where
  readByte : UInt32 → σ → UInt8 × σ
  prefetch : UInt32 → UInt32 → σ → σ
  renderBegin : σ → σ
  renderMissed : σ → Bool
  metrics : σ → Metrics
  probe : (Metrics → Metrics) → σ → σ

/-- The static variables of `paula_live.cpp`, once `paula_live_init` has run. -/
structure Live (F D : Type) where
  core : Paula F D
  masterGain : F
  masterTarget : F
  lastMixer : UInt32
  renderAttempt : Bool
  speculativeIrqs : UInt32
  waitingForCache : Bool
  outputGate : F
  lastLeft : F
  lastRight : F
  prefetchCountdown : UInt32

/-- What the core's callbacks act on. -/
structure Speculation (σ : Type) where
  renderAttempt : Bool
  speculativeIrqs : UInt32
  host : σ

namespace Live

variable {F D σ : Type}

/-- `read_sample` and `virtual_irq`. -/
def callbacks (port : Port σ) : Callbacks (Speculation σ) where
  read address state :=
    let (byte, host) := port.readByte address state.host
    (byte, { state with host := host })
  interrupt _ state :=
    if state.renderAttempt then { state with speculativeIrqs := state.speculativeIrqs + 1 }
    else { state with host := port.probe (add · ppVirtualIrqs 1) state.host }

/-- The diagnostic words of one channel after a reset. -/
def clearChannel (metrics : Metrics) (ch : Fin 4) : Metrics :=
  let metrics := set metrics (channelCell ch ppChLoc) 0
  let metrics := set metrics (channelCell ch ppChLen) 0
  let metrics := set metrics (channelCell ch ppChPer) 1
  let metrics := set metrics (channelCell ch ppChVol) 0
  let metrics := set metrics (channelCell ch ppChDat) 0
  set metrics (channelCell ch ppChFlags) 0

/-- The diagnostic words after `paula_live_reset`. -/
def clearShadow (metrics : Metrics) : Metrics :=
  let metrics := set metrics ppDmacon 0
  let metrics := set metrics ppIntena 0
  let metrics := set metrics ppIntreq 0
  let metrics := set metrics ppAdkcon 0
  (List.finRange 4).foldl clearChannel metrics

/-- `shadow_setclr`. -/
def shadowSetclr (metrics : Metrics) (index : Nat) (value : UInt16) : Metrics :=
  let bits := get metrics index
  let low := (value &&& 0x7fff).toUInt32
  set metrics index (if value &&& 0x8000 ≠ 0 then bits ||| low else bits &&& ~~~low)

/-- The DMA flag of one channel after a DMACON write. -/
def flagChannel (dma : UInt32) (metrics : Metrics) (ch : Fin 4) : Metrics :=
  set metrics (channelCell ch ppChFlags)
    (if dma &&& 0x200 ≠ 0 ∧ dma &&& (1 <<< UInt32.ofNat ch.val) ≠ 0 then 1 else 0)

/-- The diagnostic words of one channel after a write to its block. -/
def writeChannelShadow (ch : Fin 4) (reg : Nat) (value : UInt16) (metrics : Metrics) : Metrics :=
  let loc := get metrics (channelCell ch ppChLoc)
  if reg = 0 then
    set metrics (channelCell ch ppChLoc)
      ((loc &&& (0xffff : UInt32)) ||| (value.toUInt32 <<< (16 : UInt32)))
  else if reg = 2 then
    set metrics (channelCell ch ppChLoc) ((loc &&& (0xffff0000 : UInt32)) ||| value.toUInt32)
  else if reg = 4 then set metrics (channelCell ch ppChLen) value.toUInt32
  else if reg = 6 then set metrics (channelCell ch ppChPer) value.toUInt32
  else if reg = 8 then set metrics (channelCell ch ppChVol) (value &&& 0x7f).toUInt32
  else if reg = 10 then add (set metrics (channelCell ch ppChDat) value.toUInt32) ppAuddatWrites 1
  else add metrics ppIgnored 1

theorem blockChannel_lt {r : Nat} (block : 0x0a0 ≤ r ∧ r ≤ 0x0da) : (r - 0x0a0) / 16 < 4 := by
  omega

/-- The diagnostic words after `paula_live_write` of the register at offset `r`. -/
def writeShadow (r : Nat) (value : UInt16) (metrics : Metrics) : Metrics :=
  let metrics := add metrics ppApplied 1
  if r = 0x096 then
    let metrics := shadowSetclr metrics ppDmacon value
    (List.finRange 4).foldl (flagChannel (get metrics ppDmacon)) metrics
  else if r = 0x09a then shadowSetclr metrics ppIntena value
  else if r = 0x09c then shadowSetclr metrics ppIntreq value
  else if r = 0x09e then shadowSetclr metrics ppAdkcon value
  else if block : 0x0a0 ≤ r ∧ r ≤ 0x0da then
    let ch : Fin 4 := ⟨(r - 0x0a0) / 16, blockChannel_lt block⟩
    add (writeChannelShadow ch ((r - 0x0a0) % 16) value metrics) (channelCell ch ppChWrites) 1
  else add metrics ppIgnored 1

variable (port : Port σ)

/-- `paula_live_write`. -/
def write [Floating D] (address : UInt32) (value : UInt16) (live : Live F D) (host : σ) :
    Live F D × σ :=
  ({ live with core := live.core.writeRegister16 address value },
    port.probe (writeShadow (address &&& 0xfff).toNat value) host)

/-- One channel of `paula_live_prefetch`: at most 1024 bytes from the cursor on,
continued in the loop where the current block is shorter. -/
def prefetchChannel (core : Paula F D) (host : σ) (ch : Fin 4) : σ :=
  let f := core.fetchState ch
  if !f.enabled then host
  else
    let bytes : UInt32 := if f.wordsLeft > 512 then 1024 else f.wordsLeft * 2
    let host := if bytes ≠ 0 then port.prefetch f.cursor bytes host else host
    if bytes < 1024 ∧ f.loopWords ≠ 0 then
      let remaining : UInt32 := 1024 - bytes
      let loopbytes : UInt32 := if f.loopWords > 512 then 1024 else f.loopWords * 2
      port.prefetch f.loop (if remaining > loopbytes then loopbytes else remaining) host
    else host

/-- `paula_live_prefetch`. -/
def prefetch (core : Paula F D) (host : σ) : σ :=
  (List.finRange 4).foldl (prefetchChannel port core) host

variable [Floating F] [Floating D]

/-- `paula_live_init`. -/
def init (host : σ) : Live F D × σ :=
  ({ core := (({ Paula.new (ofRat 3546895) with read := true, onInterrupt := true }
        : Paula F D).setStereoSeparation (ofRat 1)).setInterpolation .nearest
     masterGain := ofRat 1
     masterTarget := ofRat 1
     lastMixer := 0
     renderAttempt := false
     speculativeIrqs := 0
     waitingForCache := false
     outputGate := ofRat 1
     lastLeft := ofRat 0
     lastRight := ofRat 0
     prefetchCountdown := 0 },
    port.probe (fun metrics => (List.finRange 4).foldl
      (fun metrics ch => set metrics (channelCell ch ppChPer) 1) metrics) host)

/-- `paula_live_reset`. -/
def reset (live : Live F D) (host : σ) : Live F D × σ :=
  ({ live with
     core := live.core.reset
     renderAttempt := false
     speculativeIrqs := 0
     waitingForCache := false
     outputGate := ofRat 1
     lastLeft := ofRat 0
     lastRight := ofRat 0
     prefetchCountdown := 0 },
    port.probe clearShadow host)

/-- The mixer settings of the core that a mailbox word asks for. -/
def adoptCore (word : UInt32) (core : Paula F D) : Paula F D :=
  let stereo := (word >>> 7) &&& (127 : UInt32)
  let linear := (word >>> 14) &&& (1 : UInt32)
  let muted := (word >>> 15) &&& (15 : UInt32)
  let core := core.setStereoSeparation (ofRat stereo.toNat * ofRat (1 / 100))
  let core := core.setInterpolation (if linear ≠ 0 then .linear else .nearest)
  (List.finRange 4).foldl
    (fun core ch => core.setChannelMuted ch (muted &&& (1 <<< UInt32.ofNat ch.val) != 0)) core

/-- The settings of a valid mailbox word come into force. -/
def adopt (word : UInt32) (live : Live F D) : Live F D :=
  { live with
    core := adoptCore word live.core
    masterTarget := ofRat (word &&& (127 : UInt32)).toNat * ofRat (1 / 100)
    lastMixer := word }

/-- `paula_live_mixer_apply`. -/
def mixerApply (live : Live F D) (host : σ) : Live F D × σ :=
  let word := get (port.metrics host) pmRequest
  if word = live.lastMixer ∨ mixerValid word = false then (live, host)
  else (live.adopt word, port.probe (set · pmApplied word) host)

/-- The lookahead of one frame: a full request sweep every 32 frames. -/
def lookAhead (live : Live F D) (host : σ) : Live F D × σ :=
  let (countdown, host) :=
    if live.prefetchCountdown = 0 then (32, prefetch port live.core host)
    else (live.prefetchCountdown, host)
  ({ live with prefetchCountdown := countdown - 1 }, host)

/-- A frame with a sample byte missing: the last output fades, and nothing else
moves. -/
def hold (live : Live F D) (host : σ) : (F × F) × Live F D × σ :=
  let gate := live.outputGate - rampStep
  let gate := if Floating.lt gate (ofRat 0) then ofRat 0 else gate
  ((live.lastLeft * gate, live.lastRight * gate),
    { live with
      speculativeIrqs := 0
      waitingForCache := true
      prefetchCountdown := if live.waitingForCache then live.prefetchCountdown else 0
      outputGate := gate },
    port.probe (add · ppCacheWaitFrames 1) host)

/-- A complete frame: its state, its interrupts and its output are committed. -/
def commit (mix : F × F) (irqs : UInt32) (live : Live F D) (host : σ) : (F × F) × Live F D × σ :=
  let host := if irqs ≠ 0 then port.probe (add · ppVirtualIrqs irqs) host else host
  let host := if live.waitingForCache then port.probe (add · ppCacheWaitRecoveries 1) host
    else host
  let masterGain := live.masterGain + rampDelta (live.masterTarget - live.masterGain) rampStep
  let l := mix.1 * masterGain
  let r := mix.2 * masterGain
  let gate :=
    if Floating.lt live.outputGate (ofRat 1) then
      let gate := live.outputGate + rampStep
      if Floating.lt (ofRat 1) gate then ofRat 1 else gate
    else live.outputGate
  ((l * gate, r * gate),
    { live with
      masterGain := masterGain
      speculativeIrqs := 0
      waitingForCache := false
      outputGate := gate
      lastLeft := l
      lastRight := r },
    host)

variable [Arith F D]

/-- The speculative rendering of one frame. -/
def attempt (core : Paula F D) (host : σ) : ((F × F) × Paula F D) × Speculation σ :=
  core.render (callbacks port) ⟨true, 0, port.renderBegin host⟩

/-- One turn of the frame loop of `paula_live_render`. -/
def renderFrame (live : Live F D) (host : σ) : (F × F) × Live F D × σ :=
  let (live, host) := live.lookAhead port host
  let saved := live.core
  let savedGain := live.masterGain
  let ((mix, core), state) := attempt port live.core host
  let live := { live with
    core := core
    renderAttempt := false
    speculativeIrqs := state.speculativeIrqs }
  if port.renderMissed state.host then
    { live with core := saved, masterGain := savedGain }.hold port state.host
  else live.commit port mix state.speculativeIrqs state.host

/-- The frame loop of `paula_live_render`. -/
def renderFrames : Nat → Live F D → σ → List (F × F) × Live F D × σ
  | 0, live, host => ([], live, host)
  | frames + 1, live, host =>
      let (out, live, host) := live.renderFrame port host
      let (rest, live, host) := renderFrames frames live host
      (out :: rest, live, host)

/-- `paula_live_render`. -/
def render (frames : Nat) (live : Live F D) (host : σ) : List (F × F) × Live F D × σ :=
  let (live, host) := live.mixerApply port host
  let (out, live, host) := renderFrames port frames live host
  (out, live, port.probe (add · ppRenderFrames frames.toUInt32) host)

end Live

end Paulastorm
