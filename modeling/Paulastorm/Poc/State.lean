import Paulastorm.Live
import Paulastorm.Mirror.Shadow

namespace Paulastorm.Poc

/-! The register state of the replay loop (`poc_live_state` of `hdmi_audio_poc.c`):
applying one captured event, and restoring the whole of it from a snapshot. -/

open Paulastorm.Core Mirror Probe

/-- `poc_live_state`. -/
@[ext] structure LiveState where
  loc : Fin 4 → UInt32
  len : Fin 4 → UInt16
  dma : UInt16

def LiveState.cleared : LiveState := ⟨fun _ => 0, fun _ => 0, 0⟩

/-- CPU1's side of the replay: its own state, the live mirror and the host. -/
structure Replay (F D σ : Type) where
  state : LiveState
  live : Live F D
  host : σ

variable {F D σ : Type} (port : Port σ)

/-- `poc_prefetch_channel`. -/
def prefetchChannel (state : LiveState) (ch : Fin 4) (host : σ) : σ :=
  let bytes : UInt32 := (if state.len ch ≠ 0 then (state.len ch).toUInt32 else 65536) * 2
  port.prefetch (state.loc ch) (if bytes < 1024 then bytes else 1024) host

/-- Both DMA bits of a channel are set. -/
def channelOn (dma : UInt16) (ch : Fin 4) : Bool :=
  let mask := 0x0200 ||| dmaMask ch
  dma &&& mask == mask

/-- What `poc_apply_live_event` does to its own state, with the prefetches. -/
def track (r : Nat) (value : UInt16) (state : LiveState) (host : σ) : LiveState × σ :=
  if block : 0x0a0 ≤ r ∧ r ≤ 0x0da then
    let ch : Fin 4 := ⟨(r - 0x0a0) / 16, Live.blockChannel_lt block⟩
    let reg := (r - 0x0a0) % 16
    if reg = 0 then
      let loc := (state.loc ch &&& (0xffff : UInt32)) ||| (value.toUInt32 <<< (16 : UInt32))
      ({ state with loc := Function.update state.loc ch loc }, host)
    else if reg = 2 then
      let loc := (state.loc ch &&& (0xffff0000 : UInt32)) ||| value.toUInt32
      let state := { state with loc := Function.update state.loc ch loc }
      (state, if state.len ch ≠ 0 then prefetchChannel port state ch host else host)
    else if reg = 4 then
      let state := { state with len := Function.update state.len ch value }
      (state, prefetchChannel port state ch host)
    else (state, host)
  else if r = 0x096 then
    let before := state.dma
    let state := { state with dma := setClear state.dma value }
    (state,
      if state.dma &&& 0x0200 ≠ 0 then
        (List.finRange 4).foldl (fun host ch =>
          if channelOn state.dma ch ∧ ¬ channelOn before ch then prefetchChannel port state ch host
          else host) host
      else host)
  else (state, host)

/-- The writes after which `poc_apply_live_event` looks ahead again. -/
def movesCursor (r : Nat) : Bool :=
  r = 0x096 || (0x0a0 ≤ r && r ≤ 0x0da && (r - 0x0a0) % 16 ≤ 4)

variable [Floating D]

/-- `poc_apply_live_event`. -/
def applyLiveEvent (event : Event) (replay : Replay F D σ) : Replay F D σ :=
  if event.width ≠ 1 ∧ event.width ≠ 2 then
    { replay with host := port.probe (add · ppIgnored 1) replay.host }
  else if event.width = 2 ∧ event.address &&& 1 ≠ 0 then
    { replay with host := port.probe (add · ppIgnored 1) replay.host }
  else
    let r := event.address &&& 0xffe
    let value := busWord event.value event.width
    let (state, host) := track port r.toNat value replay.state replay.host
    let (live, host) := replay.live.write port (0xdff000 ||| r) value host
    let host := if movesCursor r.toNat then Live.prefetch port live.core host else host
    ⟨state, live, host⟩

/-- The event that `poc_restore_live_state` makes up for a register. -/
def restoredEvent (address : UInt32) (value : UInt16) (ticks : UInt64) : Event :=
  ⟨ticks, address, value, 2, 0⟩

/-- One register of the restore loop. -/
def restoreRegister (snapshot : Snapshot) (ch : Fin 4) (replay : Replay F D σ) (reg : Fin 5) :
    Replay F D σ :=
  if snapshot.seen ch &&& (1 <<< UInt8.ofNat reg.val) = 0 then replay
  else
    let address := 0xdff0a0 + UInt32.ofNat ch.val * 16 + UInt32.ofNat reg.val * 2
    applyLiveEvent port (restoredEvent address (snapshot.reg ch reg.castSucc) snapshot.ticks) replay

/-- A direct `paula_live_write` of the restore, when the register was ever written. -/
def restoreGlobal (seen : Bool) (address : UInt32) (value : UInt16) (replay : Replay F D σ) :
    Replay F D σ :=
  if seen then
    let (live, host) := replay.live.write port address value replay.host
    { replay with live := live, host := host }
  else replay

variable [Floating F]

/-- `poc_restore_live_state`, once the snapshot has been taken. -/
def restoreLiveState (snapshot : Snapshot) (replay : Replay F D σ) : Replay F D σ :=
  let host := port.probe (flag · ppFlagCaptureFailed true) replay.host
  let (live, host) := replay.live.reset port host
  let replay : Replay F D σ := ⟨.cleared, live, host⟩
  let replay := (List.finRange 4).foldl (fun replay ch =>
    (List.finRange 5).foldl (restoreRegister port snapshot ch) replay) replay
  let replay := restoreGlobal port (snapshot.seenGlobal &&& 2 != 0) 0xdff09a
    (0x8000 ||| snapshot.intena) replay
  let replay := restoreGlobal port (snapshot.seenGlobal &&& 4 != 0) 0xdff09c
    (0x8000 ||| snapshot.intreq) replay
  let replay := restoreGlobal port (snapshot.seenGlobal &&& 8 != 0) 0xdff09e
    (0x8000 ||| snapshot.adkcon) replay
  let replay :=
    if snapshot.seenGlobal &&& 1 ≠ 0 then
      applyLiveEvent port (restoredEvent 0xdff096 (0x8000 ||| snapshot.dma) snapshot.ticks) replay
    else replay
  let host := port.probe (add · ppResyncs 1) replay.host
  let host := port.probe (add · ppResyncSkipped snapshot.skipped) host
  { replay with host := port.probe (flag · ppFlagCaptureFailed false) host }

end Paulastorm.Poc
