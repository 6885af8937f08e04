import Paulastorm.Core.Arith
import Paulastorm.Registers
import Mathlib.Tactic.FinCases

namespace Paulastorm.Core

/-! The emulated sound chip of `paula.h` and `paula.cpp`: its state and its
register interface. -/

inductive Interp where
  | nearest | linear
deriving DecidableEq, Repr

/-- `Paula::Channel`. -/
structure Channel (F D : Type) where
  locPtrLatched : UInt32
  lenWordsLatched : UInt32
  period : UInt16
  volume : UInt16
  curPtr : UInt32
  curWordsLeft : UInt32
  curSampleL : UInt8
  curSampleH : UInt8
  onLowByte : Bool
  phase : D
  dmaWantsRestart : Bool
  curOut : Int8
  nextOut : Int8
  gainSmoothed : F

/-- `Paula`; a callback is represented by whether it is attached. -/
structure Paula (F D : Type) where
  clockHz : D
  interp : Interp
  stereoSep : F
  gainSmoothCoeff : F
  read : Bool
  onInterrupt : Bool
  channels : Fin 4 → Channel F D
  channelMuted : Fin 4 → Bool
  channelMixGain : Fin 4 → F
  stereoCurrent : F
  dmaCon : UInt16
  intReq : UInt16
  intEna : UInt16
  adkCon : UInt16
  vhposrCounter : UInt16

def kDmaConMaster : UInt16 := 0x200

/-- The DMACON bit of a channel. -/
def dmaMask (ch : Fin 4) : UInt16 := 1 <<< UInt16.ofNat ch.val

/-- The channel's DMA is on: its own bit and the master bit are set. -/
def dmaOn (dmaCon : UInt16) (ch : Fin 4) : Bool :=
  dmaCon &&& dmaMask ch != 0 && dmaCon &&& kDmaConMaster != 0

@[simp] theorem dmaOn_zero (ch : Fin 4) : dmaOn 0 ch = false := by
  simp [dmaOn]

section Retrigger

variable {F D : Type} [Floating D]

/-- The channel restarts from its latched location and length. -/
def Channel.prime (c : Channel F D) : Channel F D :=
  { c with
    curPtr := c.locPtrLatched
    curWordsLeft := c.lenWordsLatched
    onLowByte := true
    curSampleL := 0
    curSampleH := 0
    curOut := 0
    nextOut := 0
    phase := ofRat 0
    dmaWantsRestart := false }

/-- The channel loop of a DMACON write: a channel that came on re-primes. -/
def retrigger (dmaCon : UInt16) (ch : Fin 4) (c : Channel F D) : Channel F D :=
  if dmaOn dmaCon ch then
    if c.dmaWantsRestart then c.prime else c
  else { c with dmaWantsRestart := true }

@[simp] theorem retrigger_locPtrLatched (dmaCon : UInt16) (ch : Fin 4) (c : Channel F D) :
    (retrigger dmaCon ch c).locPtrLatched = c.locPtrLatched := by
  unfold retrigger
  split_ifs <;> rfl

@[simp] theorem retrigger_lenWordsLatched (dmaCon : UInt16) (ch : Fin 4) (c : Channel F D) :
    (retrigger dmaCon ch c).lenWordsLatched = c.lenWordsLatched := by
  unfold retrigger
  split_ifs <;> rfl

@[simp] theorem retrigger_period (dmaCon : UInt16) (ch : Fin 4) (c : Channel F D) :
    (retrigger dmaCon ch c).period = c.period := by
  unfold retrigger
  split_ifs <;> rfl

@[simp] theorem retrigger_volume (dmaCon : UInt16) (ch : Fin 4) (c : Channel F D) :
    (retrigger dmaCon ch c).volume = c.volume := by
  unfold retrigger
  split_ifs <;> rfl

/-- A channel wants a restart exactly while its DMA is off. -/
theorem retrigger_dmaWantsRestart (dmaCon : UInt16) (ch : Fin 4) (c : Channel F D) :
    (retrigger dmaCon ch c).dmaWantsRestart = !dmaOn dmaCon ch := by
  unfold retrigger
  split_ifs with enabled restart
  · rw [enabled]
    rfl
  · rw [enabled]
    exact Bool.eq_false_iff.mpr restart
  · rw [Bool.eq_false_iff.mpr enabled]
    rfl

end Retrigger

variable {F D : Type}

/-- `Channel{}`. -/
def Channel.initial [Floating F] [Floating D] : Channel F D where
  locPtrLatched := 0
  lenWordsLatched := 0
  period := 1
  volume := 0
  curPtr := 0
  curWordsLeft := 0
  curSampleL := 0
  curSampleH := 0
  onLowByte := true
  phase := ofRat 0
  dmaWantsRestart := true
  curOut := 0
  nextOut := 0
  gainSmoothed := ofRat 0

namespace Paula

/-- `Paula::Paula`. -/
def new [Floating F] [Floating D] (clockHz : D) : Paula F D where
  clockHz := clockHz
  interp := .nearest
  stereoSep := ofRat (85 / 100)
  gainSmoothCoeff := ofRat (2 / 100)
  read := false
  onInterrupt := false
  channels := fun _ => .initial
  channelMuted := fun _ => false
  channelMixGain := fun _ => ofRat 1
  stereoCurrent := ofRat 1
  dmaCon := 0
  intReq := 0
  intEna := 0
  adkCon := 0
  vhposrCounter := 0

/-- `Paula::reset`. -/
def reset [Floating F] [Floating D] (p : Paula F D) : Paula F D :=
  { p with
    channels := fun _ => .initial
    dmaCon := 0
    intReq := 0
    intEna := 0
    adkCon := 0
    vhposrCounter := 0 }

def updateChannel (p : Paula F D) (ch : Fin 4) (c : Channel F D) : Paula F D :=
  { p with channels := Function.update p.channels ch c }

@[simp] theorem updateChannel_self (p : Paula F D) (ch : Fin 4) (c : Channel F D) :
    (p.updateChannel ch c).channels ch = c := by
  simp [updateChannel]

theorem updateChannel_of_ne (p : Paula F D) {ch other : Fin 4} (different : other ≠ ch)
    (c : Channel F D) : (p.updateChannel ch c).channels other = p.channels other := by
  simp [updateChannel, different]

/-- The per-channel block of `writeRegister16`, at its first matching channel. -/
def writeChannel (p : Paula F D) (reg : Nat) (value : UInt16) (ch : Fin 4) :
    Option (Paula F D) :=
  let base := 0x0a0 + ch.val * 16
  let c := p.channels ch
  if reg = base then
    some (p.updateChannel ch { c with
      locPtrLatched := (c.locPtrLatched &&& (0x0000ffff : UInt32)) |||
        (value.toUInt32 <<< (16 : UInt32)) })
  else if reg = base + 2 then
    some (p.updateChannel ch { c with
      locPtrLatched := (c.locPtrLatched &&& (0xffff0000 : UInt32)) ||| value.toUInt32 })
  else if reg = base + 4 then
    some (p.updateChannel ch { c with
      lenWordsLatched := if value ≠ 0 then value.toUInt32 else 65536 })
  else if reg = base + 6 then
    some (p.updateChannel ch { c with period := if value ≠ 0 then value else 1 })
  else if reg = base + 8 then
    some (p.updateChannel ch { c with volume := value &&& 0x7f })
  else if reg = base + 10 then some p
  else none

/-- `Paula::writeRegister16`. -/
def writeRegister16 [Floating D] (p : Paula F D) (addr : UInt32) (value : UInt16) : Paula F D :=
  let reg := (addr &&& 0xfff).toNat
  if reg = 0x096 then
    let dmaCon := setClear p.dmaCon value
    { p with dmaCon := dmaCon, channels := fun ch => retrigger dmaCon ch (p.channels ch) }
  else if reg = 0x09c then { p with intReq := setClear p.intReq value }
  else if reg = 0x09a then { p with intEna := setClear p.intEna value }
  else if reg = 0x09e then { p with adkCon := setClear p.adkCon value }
  else ((List.finRange 4).findSome? (p.writeChannel reg value)).getD p

/-- `Paula::setLoop` for a valid channel. -/
def setLoop (p : Paula F D) (ch : Fin 4) (loc : UInt32) (lenWords : UInt16) : Paula F D :=
  p.updateChannel ch { p.channels ch with
    locPtrLatched := loc
    lenWordsLatched := if lenWords ≠ 0 then lenWords.toUInt32 else 65536 }

/-- `Paula::setStereoSeparation`. -/
def setStereoSeparation [Floating F] (p : Paula F D) (s : F) : Paula F D :=
  { p with
    stereoSep := if Floating.lt s (ofRat 0) then ofRat 0
      else if Floating.lt (ofRat 1) s then ofRat 1 else s }

def setInterpolation (p : Paula F D) (mode : Interp) : Paula F D := { p with interp := mode }

def setChannelMuted (p : Paula F D) (ch : Fin 4) (muted : Bool) : Paula F D :=
  { p with channelMuted := Function.update p.channelMuted ch muted }

/-- `Paula::FetchState`. -/
structure FetchState where
  cursor : UInt32
  wordsLeft : UInt32
  loop : UInt32
  loopWords : UInt32
  enabled : Bool
deriving DecidableEq, Repr

/-- `Paula::fetchState` for a valid channel. -/
def fetchState (p : Paula F D) (ch : Fin 4) : FetchState :=
  let c := p.channels ch
  let restarts := c.dmaWantsRestart || (c.onLowByte && c.curWordsLeft == 0)
  { cursor := if restarts then c.locPtrLatched else c.curPtr
    wordsLeft := if restarts then c.lenWordsLatched else c.curWordsLeft
    loop := c.locPtrLatched
    loopWords := c.lenWordsLatched
    enabled := dmaOn p.dmaCon ch }

/-- The registers latched in the core. -/
def bank (p : Paula F D) : Bank where
  loc ch := (p.channels ch).locPtrLatched
  len ch := (p.channels ch).lenWordsLatched
  per ch := (p.channels ch).period
  vol ch := (p.channels ch).volume
  dmacon := p.dmaCon
  intena := p.intEna
  intreq := p.intReq
  adkcon := p.adkCon

variable {p : Paula F D}

/-- A write to one register of the map. -/
def write [Floating D] (p : Paula F D) (value : UInt16) : Reg → Paula F D
  | .dmacon =>
      let dmaCon := setClear p.dmaCon value
      { p with dmaCon := dmaCon, channels := fun ch => retrigger dmaCon ch (p.channels ch) }
  | .intena => { p with intEna := setClear p.intEna value }
  | .intreq => { p with intReq := setClear p.intReq value }
  | .adkcon => { p with adkCon := setClear p.adkCon value }
  | .channel ch .lch =>
      p.updateChannel ch { p.channels ch with
        locPtrLatched := Bank.withHigh (p.channels ch).locPtrLatched value }
  | .channel ch .lcl =>
      p.updateChannel ch { p.channels ch with
        locPtrLatched := Bank.withLow (p.channels ch).locPtrLatched value }
  | .channel ch .len =>
      p.updateChannel ch { p.channels ch with lenWordsLatched := Bank.lengthWords value }
  | .channel ch .per =>
      p.updateChannel ch { p.channels ch with period := Bank.periodTicks value }
  | .channel ch .vol => p.updateChannel ch { p.channels ch with volume := value &&& 0x7f }
  | .channel _ .dat => p

/-- One channel's block matches exactly its own six registers. -/
theorem writeChannel_eq [Floating D] (p : Paula F D) (reg : Nat) (value : UInt16) (ch : Fin 4) :
    p.writeChannel reg value ch =
      match decode reg with
      | some (.channel written register) =>
          if ch = written then some (p.write value (.channel written register)) else none
      | _ => none := by
  have inside := ch.isLt
  cases found : decode reg with
  | none =>
      have missing := decode_eq_none_iff.mp found
      have absent : ∀ register : ChannelReg, reg ≠ 0x0a0 + ch.val * 16 + register.index.val * 2 :=
        fun register same => missing (.channel ch register) same.symm
      have lch := absent .lch
      have lcl := absent .lcl
      have len := absent .len
      have per := absent .per
      have vol := absent .vol
      have dat := absent .dat
      simp only [ChannelReg.index, Fin.isValue] at lch lcl len per vol dat
      simp only [writeChannel]
      split_ifs <;> first | rfl | omega
  | some register =>
      have offset := decode_eq_some_iff.mp found
      cases register with
      | channel written register =>
          have bound := written.isLt
          have index := register.index.isLt
          simp only [Reg.offset] at offset
          by_cases same : ch = written
          · subst same
            cases register <;>
              simp only [ChannelReg.index, Fin.isValue] at offset <;>
              subst offset <;>
              simp [writeChannel, write, Bank.lengthWords, Bank.periodTicks, Bank.withHigh,
                Bank.withLow]
          · have different : ch.val ≠ written.val := fun equal => same (Fin.ext equal)
            simp only [writeChannel, if_neg same]
            split_ifs <;> first | rfl | omega
      | _ =>
          simp only [Reg.offset] at offset
          simp only [writeChannel]
          split_ifs <;> first | rfl | omega

/-- The core decodes the register map. -/
theorem writeRegister16_eq [Floating D] (p : Paula F D) (addr : UInt32) (value : UInt16) :
    p.writeRegister16 addr value =
      match decode (addr &&& 0xfff).toNat with
      | some reg => p.write value reg
      | none => p := by
  generalize reg : (addr &&& 0xfff).toNat = offset
  have block : ∀ ch, p.writeChannel offset value ch = _ := p.writeChannel_eq offset value
  simp only [writeRegister16, reg, funext block]
  split_ifs with dmacon intreq intena adkcon
  · subst dmacon; rfl
  · subst intreq; rfl
  · subst intena; rfl
  · subst adkcon; rfl
  · cases found : decode offset with
    | none => rw [List.findSome?_eq_none_iff.mpr fun _ _ => rfl]; rfl
    | some register =>
        cases register with
        | channel written register =>
            have hit : ∀ (written : Fin 4) (q : Paula F D),
                (List.finRange 4).findSome? (fun ch => if ch = written then some q else none) =
                  some q := by
              intro written q
              fin_cases written <;> rfl
            exact congrArg (Option.getD · p) (hit written _)
        | _ =>
            have same := decode_eq_some_iff.mp found
            simp only [Reg.offset] at same
            omega

theorem bank_updateChannel (p : Paula F D) (ch : Fin 4) (c : Channel F D) :
    (p.updateChannel ch c).bank =
      { p.bank with
        loc := Function.update p.bank.loc ch c.locPtrLatched
        len := Function.update p.bank.len ch c.lenWordsLatched
        per := Function.update p.bank.per ch c.period
        vol := Function.update p.bank.vol ch c.volume } := by
  refine Bank.ext ?_ ?_ ?_ ?_ rfl rfl rfl rfl <;> funext other
  · exact Function.apply_update (fun _ c => c.locPtrLatched) p.channels ch c other
  · exact Function.apply_update (fun _ c => c.lenWordsLatched) p.channels ch c other
  · exact Function.apply_update (fun _ c => c.period) p.channels ch c other
  · exact Function.apply_update (fun _ c => c.volume) p.channels ch c other

/-- Writing a register latches it. -/
theorem bank_write [Floating D] (p : Paula F D) (value : UInt16) (reg : Reg) :
    (p.write value reg).bank = p.bank.write value reg := by
  cases reg with
  | dmacon => simp [bank, write, Bank.write]
  | channel ch reg =>
      have loc := Function.update_eq_self ch p.bank.loc
      have len := Function.update_eq_self ch p.bank.len
      have per := Function.update_eq_self ch p.bank.per
      have vol := Function.update_eq_self ch p.bank.vol
      cases reg with
      | lch | lcl => exact (bank_updateChannel p ch _).trans (Bank.ext rfl len per vol rfl rfl rfl rfl)
      | len => exact (bank_updateChannel p ch _).trans (Bank.ext loc rfl per vol rfl rfl rfl rfl)
      | per => exact (bank_updateChannel p ch _).trans (Bank.ext loc len rfl vol rfl rfl rfl rfl)
      | vol => exact (bank_updateChannel p ch _).trans (Bank.ext loc len per rfl rfl rfl rfl rfl)
      | dat => rfl
  | _ => rfl

theorem bank_writeRegister16 [Floating D] (p : Paula F D) (addr : UInt32) (value : UInt16) :
    (p.writeRegister16 addr value).bank = p.bank.writeOffset (addr &&& 0xfff).toNat value := by
  rw [writeRegister16_eq, Bank.writeOffset]
  cases decode (addr &&& 0xfff).toNat with
  | none => rfl
  | some reg => exact bank_write p value reg

/-- A channel waits for a restart exactly while its DMA is off. -/
def RestartsMatch (p : Paula F D) : Prop :=
  ∀ ch, (p.channels ch).dmaWantsRestart = !dmaOn p.dmaCon ch

theorem reset_restartsMatch [Floating F] [Floating D] (p : Paula F D) : p.reset.RestartsMatch := by
  intro ch
  simp [reset, Channel.initial]

theorem write_restartsMatch [Floating D] {p : Paula F D} (matched : p.RestartsMatch)
    (value : UInt16) (reg : Reg) : (p.write value reg).RestartsMatch := by
  intro ch
  have before := matched ch
  have kept : ∀ (written : Fin 4) (c : Channel F D),
      c.dmaWantsRestart = (p.channels written).dmaWantsRestart →
      ((p.updateChannel written c).channels ch).dmaWantsRestart = !dmaOn p.dmaCon ch := by
    intro written c same
    by_cases equal : ch = written
    · subst equal
      rw [updateChannel_self, same, before]
    · rw [updateChannel_of_ne p equal, before]
  cases reg with
  | dmacon => exact retrigger_dmaWantsRestart _ _ _
  | channel written reg =>
      cases reg with
      | dat => exact before
      | _ => exact kept written _ rfl
  | _ => exact before

theorem writeRegister16_restartsMatch [Floating D] {p : Paula F D} (matched : p.RestartsMatch)
    (addr : UInt32) (value : UInt16) : (p.writeRegister16 addr value).RestartsMatch := by
  rw [writeRegister16_eq]
  cases decode (addr &&& 0xfff).toNat with
  | none => exact matched
  | some reg => exact write_restartsMatch matched value reg

end Paula

end Paulastorm.Core
