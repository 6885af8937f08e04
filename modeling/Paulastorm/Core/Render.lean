import Paulastorm.Core.Paula

namespace Paulastorm.Core

/-! Rendering: the DMA walk, the resampler and the mixer of `paula.cpp`.

The two callbacks act on a host state that the core does not look at.
-/

/-- `ReadByteFn` and `InterruptFn`, acting on the host. -/
structure Callbacks (σ : Type) where
  read : UInt32 → σ → UInt8 × σ
  interrupt : UInt16 → σ → σ

/-- `volumeToGain`. -/
def volumeToGain {F : Type} [Floating F] (vol : UInt16) : F :=
  let v := if vol < 64 then vol else 64
  ofRat v.toNat / ofRat 64

/-- `sampleToFloat`. -/
def sampleToFloat {F : Type} [Floating F] (s : Int8) : F := ofRat s.toInt / ofRat 128

/-- `channelStereoSide` is negative: the channel belongs to the left side. -/
def onLeft (ch : Fin 4) : Bool := ch = 0 || ch = 3

/-- Clamp a difference to one ramp step. -/
def rampDelta {F : Type} [Floating F] (delta step : F) : F :=
  let delta := if Floating.lt step delta then step else delta
  if Floating.lt delta (-step) then -step else delta

/-- `1.0f / 96.0f`, the step of every linear ramp. -/
def rampStep {F : Type} [Floating F] : F := ofRat 1 / ofRat 96

section Walk

variable {F D σ : Type}

namespace Channel

/-- A channel without a source or without DMA. -/
def silence (c : Channel F D) : Channel F D := { c with curOut := 0, nextOut := 0 }

/-- The loop point: the latched registers become live. -/
def reloaded (c : Channel F D) : Channel F D :=
  { c with curPtr := c.locPtrLatched, curWordsLeft := c.lenWordsLatched }

/-- A fetched word replaces the played one, and its first byte is next. -/
def loadWord (c : Channel F D) (low high : UInt8) : Channel F D :=
  { c with
    curSampleL := low
    curSampleH := high
    curPtr := c.curPtr + 2
    curWordsLeft := if 0 < c.curWordsLeft then c.curWordsLeft - 1 else c.curWordsLeft
    curOut := c.nextOut
    nextOut := low.toInt8
    onLowByte := false }

/-- The second byte of the fetched word is next. -/
def secondByte (c : Channel F D) : Channel F D :=
  { c with curOut := c.nextOut, nextOut := c.curSampleH.toInt8, onLowByte := true }

end Channel

namespace Paula

variable (callbacks : Callbacks σ)

/-- The INTREQ bit of a channel. -/
def intBit (ch : Fin 4) : UInt16 := 0x80 <<< UInt16.ofNat ch.val

/-- The request flag of a channel, whatever INTENA says. -/
def raise (p : Paula F D) (ch : Fin 4) : Paula F D := { p with intReq := p.intReq ||| intBit ch }

/-- The block change of `advanceOneSourceSample_`: an exhausted channel reloads
its latched registers and requests its interrupt. -/
def reload (p : Paula F D) (ch : Fin 4) (host : σ) : Paula F D × σ :=
  let c := p.channels ch
  if c.curWordsLeft = 0 then
    let p := (p.updateChannel ch c.reloaded).raise ch
    (p, if p.onInterrupt then callbacks.interrupt (intBit ch) host else host)
  else (p, host)

/-- The word fetch of `advanceOneSourceSample_`: two bytes from Chip RAM. -/
def fetchWord (p : Paula F D) (ch : Fin 4) (host : σ) : Paula F D × σ :=
  let c := p.channels ch
  let (low, host) := callbacks.read c.curPtr host
  let (high, host) := callbacks.read (c.curPtr + 1) host
  (p.updateChannel ch (c.loadWord low high), host)

/-- `Paula::advanceOneSourceSample_`. -/
def advanceOneSourceSample (p : Paula F D) (ch : Fin 4) (host : σ) : Paula F D × σ :=
  let c := p.channels ch
  if !p.read then (p.updateChannel ch c.silence, host)
  else if !dmaOn p.dmaCon ch then (p.updateChannel ch c.silence, host)
  else if c.onLowByte then
    let (p, host) := p.reload callbacks ch host
    p.fetchWord callbacks ch host
  else (p.updateChannel ch c.secondByte, host)

variable [Floating D]

/-- The loop of `serviceChannel_`: one source sample for each 1.0 of phase. -/
def catchUp (ch : Fin 4) : Nat → Paula F D × σ → Paula F D × σ
  | 0, walk => walk
  | rounds + 1, (p, host) =>
      let c := p.channels ch
      if Floating.le (ofRat 1) c.phase then
        catchUp ch rounds <|
          (p.updateChannel ch { c with phase := c.phase - ofRat 1 }).advanceOneSourceSample
            callbacks ch host
      else (p, host)

end Paula

end Walk

namespace Paula

variable {F D σ : Type} [Floating F] [Floating D] [Arith F D] (callbacks : Callbacks σ)

/-- The resampled value of a channel, nearest or linear. -/
def resample (p : Paula F D) (ch : Fin 4) : F :=
  let c := p.channels ch
  match p.interp with
  | .linear =>
      let a : F := sampleToFloat c.curOut
      let b := sampleToFloat c.nextOut
      a + Arith.narrow c.phase * (b - a)
  | .nearest => sampleToFloat c.curOut

/-- The gain glide of `serviceChannel_` and the channel's mix contribution. -/
def mixOut (p : Paula F D) (ch : Fin 4) : F × Paula F D :=
  let interp := p.resample ch
  let c := p.channels ch
  let targetGain : F := volumeToGain c.volume
  let c := { c with
    gainSmoothed := c.gainSmoothed + (targetGain - c.gainSmoothed) * p.gainSmoothCoeff }
  (if p.channelMuted ch then ofRat 0 else ofRat 0 + interp * c.gainSmoothed, p.updateChannel ch c)

/-- The phase step of one output frame: source rate over output rate. -/
def addStep (p : Paula F D) (ch : Fin 4) (samplesPerOutFrame : D) : Paula F D :=
  let c := p.channels ch
  let period := if c.period ≠ 0 then c.period else 1
  let srcSrHz := p.clockHz / ofRat period.toNat
  let step := srcSrHz * samplesPerOutFrame
  p.updateChannel ch { c with phase := c.phase + step }

/-- `Paula::serviceChannel_`. -/
def serviceChannel (p : Paula F D) (ch : Fin 4) (samplesPerOutFrame : D) (host : σ) :
    (F × Paula F D) × σ :=
  let p := p.addStep ch samplesPerOutFrame
  let (p, host) := catchUp callbacks ch (Arith.rounds F (p.channels ch).phase) (p, host)
  (p.mixOut ch, host)

/-- The mute ramp and the panning of one channel's contribution. -/
def pan (toSame toOpp : F) (ch : Fin 4) (mix : F × F) (mono : F) (p : Paula F D) :
    (F × F) × Paula F D :=
  let (l, r) := mix
  let target : F := if p.channelMuted ch then ofRat 0 else ofRat 1
  let d := rampDelta (target - p.channelMixGain ch) rampStep
  let gain := p.channelMixGain ch + d
  let p := { p with channelMixGain := Function.update p.channelMixGain ch gain }
  let mono := mono * gain
  if onLeft ch then ((l + mono * toSame, r + mono * toOpp), p)
  else ((l + mono * toOpp, r + mono * toSame), p)

/-- One turn of the channel loop of `Paula::render`. -/
def mixChannel (toSame toOpp : F) (samplesPerOutFrame : D)
    (frame : ((F × F) × Paula F D) × σ) (ch : Fin 4) : ((F × F) × Paula F D) × σ :=
  let ((mix, p), host) := frame
  let ((mono, p), host) := p.serviceChannel callbacks ch samplesPerOutFrame host
  (pan toSame toOpp ch mix mono p, host)

/-- The stereo ramp of one frame. -/
def beginFrame (p : Paula F D) : Paula F D :=
  { p with
    gainSmoothCoeff := ofRat (103626011 / 10000000000)
    stereoCurrent := p.stereoCurrent + rampDelta (p.stereoSep - p.stereoCurrent) rampStep }

/-- `Paula::render` of one frame at any rate. -/
def renderAt (secondsPerOutFrame : D) (p : Paula F D) (host : σ) : ((F × F) × Paula F D) × σ :=
  let p := p.beginFrame
  let toOpp := (ofRat 1 - p.stereoCurrent) * ofRat (1 / 2)
  let toSame := ofRat 1 - toOpp
  (List.finRange 4).foldl (mixChannel callbacks toSame toOpp secondsPerOutFrame)
    (((ofRat 0, ofRat 0), p), host)

/-- `Paula::render` of one frame at 48 kHz, as the live mirror calls it. -/
def render (p : Paula F D) (host : σ) : ((F × F) × Paula F D) × σ :=
  p.renderAt callbacks (ofRat 1 / ofRat 48000) host

end Paula

end Paulastorm.Core
