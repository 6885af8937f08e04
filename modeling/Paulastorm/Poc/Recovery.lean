import Paulastorm.Live.Ideal
import Paulastorm.Poc.State

namespace Paulastorm.Poc

/-! Recovery agrees with replay: restoring the producer's register shadow latches what
applying its calls one by one latches. -/

open Paulastorm.Core Mirror Probe

/-- One word write as the replay loop tracks it. -/
def LiveState.write (state : LiveState) (value : UInt16) : Reg → LiveState
  | .dmacon => { state with dma := setClear state.dma value }
  | .channel ch .lch =>
      { state with loc := Function.update state.loc ch (Bank.withHigh (state.loc ch) value) }
  | .channel ch .lcl =>
      { state with loc := Function.update state.loc ch (Bank.withLow (state.loc ch) value) }
  | .channel ch .len => { state with len := Function.update state.len ch value }
  | _ => state

def LiveState.writeOffset (state : LiveState) (offset : Nat) (value : UInt16) : LiveState :=
  match decode offset with
  | some reg => state.write value reg
  | none => state

/-- What is latched: the registers of the core and the replay loop's own state. -/
@[ext] structure Latched where
  bank : Bank
  state : LiveState

def Latched.reset : Latched := ⟨Bank.reset, .cleared⟩

def Latched.writeOffset (latched : Latched) (offset : Nat) (value : UInt16) : Latched :=
  ⟨latched.bank.writeOffset offset value, latched.state.writeOffset offset value⟩

def Latched.write (latched : Latched) (value : UInt16) (reg : Reg) : Latched :=
  ⟨latched.bank.write value reg, latched.state.write value reg⟩

theorem Latched.writeOffset_offset (latched : Latched) (reg : Reg) (value : UInt16) :
    latched.writeOffset reg.offset value = latched.write value reg := by
  simp only [writeOffset, write, Bank.writeOffset, LiveState.writeOffset, decode_offset]

variable {F D σ : Type} {port : Port σ}

def Replay.latched (replay : Replay F D σ) : Latched := ⟨replay.live.core.bank, replay.state⟩

section Decoder

/-- The replay loop's decoder is the register map. -/
theorem track_state (port : Port σ) (r : Nat) (value : UInt16) (state : LiveState) (host : σ) :
    (track port r value state host).1 = state.writeOffset r value := by
  rw [LiveState.writeOffset]
  cases found : decode r with
  | none =>
      have missing := decode_eq_none_iff.mp found
      have absent : ∀ (ch : Fin 4) (reg : ChannelReg), r ≠ 0x0a0 + ch.val * 16 + reg.index.val * 2 :=
        fun ch reg same => missing (.channel ch reg) same.symm
      by_cases block : 0x0a0 ≤ r ∧ r ≤ 0x0da
      · have lch := absent ⟨(r - 0x0a0) / 16, by omega⟩ .lch
        have lcl := absent ⟨(r - 0x0a0) / 16, by omega⟩ .lcl
        have len := absent ⟨(r - 0x0a0) / 16, by omega⟩ .len
        simp only [ChannelReg.index, Fin.isValue] at lch lcl len
        simp only [track, dif_pos block]
        split_ifs <;> first | rfl | omega
      · have dmacon : r ≠ 0x096 := fun same => missing .dmacon same.symm
        rw [track, dif_neg block, if_neg dmacon]
  | some register =>
      have offset := decode_eq_some_iff.mp found
      subst offset
      cases register with
      | channel ch reg =>
          have inside := ch.isLt
          have index := reg.index.isLt
          have block : 0x0a0 ≤ Reg.offset (.channel ch reg) ∧ Reg.offset (.channel ch reg) ≤ 0x0da := by
            simp only [Reg.offset]
            omega
          have number : (⟨(Reg.offset (.channel ch reg) - 0x0a0) / 16, by omega⟩ : Fin 4) = ch := by
            refine Fin.ext ?_
            simp only [Reg.offset]
            omega
          have word : (Reg.offset (.channel ch reg) - 0x0a0) % 16 = reg.index.val * 2 := by
            simp only [Reg.offset]
            omega
          simp only [track, dif_pos block, number, word]
          cases reg <;> rfl
      | _ => rfl

theorem live_offset (address : UInt32) :
    ((0xdff000 ||| (address &&& 0xffe)) &&& 0xfff).toNat = (address &&& 0xffe).toNat := by
  refine congrArg UInt32.toNat ?_
  rw [Library.Word.or_and_distrib32, UInt32.and_assoc]
  exact UInt32.zero_or

variable [Floating D]

/-- A byte at any address, or a word at an even one. -/
def Deliverable (event : Event) : Prop :=
  event.width = 1 ∨ (event.width = 2 ∧ event.address &&& 1 = 0)

/-- Applying a deliverable event writes its register. -/
theorem applyLiveEvent_eq (port : Port σ) {event : Event} (deliverable : Deliverable event)
    (replay : Replay F D σ) :
    (applyLiveEvent port event replay).live = { replay.live with
        core := replay.live.core.writeRegister16 (0xdff000 ||| (event.address &&& 0xffe))
          (busWord event.value event.width) } ∧
      (applyLiveEvent port event replay).state =
        replay.state.writeOffset (event.address &&& 0xffe).toNat
          (busWord event.value event.width) := by
  have width : ¬ (event.width ≠ 1 ∧ event.width ≠ 2) := by
    rintro ⟨byte, word⟩
    exact deliverable.elim byte fun both => word both.1
  have aligned : ¬ (event.width = 2 ∧ event.address &&& 1 ≠ 0) := by
    rintro ⟨word, odd⟩
    rcases deliverable with byte | ⟨_, even⟩
    · exact absurd (byte.symm.trans word) (by decide)
    · exact odd even
  rw [applyLiveEvent, if_neg width, if_neg aligned]
  exact ⟨rfl, track_state port _ _ replay.state replay.host⟩

theorem applyLiveEvent_latched {event : Event} (deliverable : Deliverable event)
    (replay : Replay F D σ) : (applyLiveEvent port event replay).latched =
      replay.latched.writeOffset (event.address &&& 0xffe).toNat
        (busWord event.value event.width) := by
  obtain ⟨live, state⟩ := applyLiveEvent_eq port deliverable replay
  refine Latched.ext ?_ state
  refine (congrArg (fun live : Live F D => live.core.bank) live).trans ?_
  exact (Paula.bank_writeRegister16 _ _ _).trans (by rw [live_offset]; rfl)

theorem applyLiveEvent_word {address : UInt32} (even : address &&& 1 = 0) (value : UInt16)
    (ticks : UInt64) (replay : Replay F D σ) :
    (applyLiveEvent port (restoredEvent address value ticks) replay).latched =
      replay.latched.writeOffset (address &&& 0xffe).toNat value :=
  applyLiveEvent_latched (.inr ⟨rfl, even⟩) replay

end Decoder

section Restore

/-- What is latched for one channel. -/
@[ext] structure Block where
  loc : UInt32
  len : UInt32
  per : UInt16
  vol : UInt16
  cursor : UInt32
  words : UInt16

namespace Block

def reset : Block := ⟨0, 0, 1, 0, 0, 0⟩

def write (block : Block) (value : UInt16) : ChannelReg → Block
  | .lch => { block with
      loc := Bank.withHigh block.loc value, cursor := Bank.withHigh block.cursor value }
  | .lcl => { block with
      loc := Bank.withLow block.loc value, cursor := Bank.withLow block.cursor value }
  | .len => { block with len := Bank.lengthWords value, words := value }
  | .per => { block with per := Bank.periodTicks value }
  | .vol => { block with vol := value &&& 0x7f }
  | .dat => block

/-- A register of the shadow is written if it was ever seen. -/
def restore (latest : Latest) (ch : Fin 4) (block : Block) (reg : Fin 5) : Block :=
  if latest.sawChannel ch (.ofIndex reg.castSucc) then
    block.write (latest.reg ch reg.castSucc) (.ofIndex reg.castSucc)
  else block

end Block

namespace Latched

def block (latched : Latched) (ch : Fin 4) : Block where
  loc := latched.bank.loc ch
  len := latched.bank.len ch
  per := latched.bank.per ch
  vol := latched.bank.vol ch
  cursor := latched.state.loc ch
  words := latched.state.len ch

/-- The registers without a channel: those of the core, and the tracked DMACON. -/
def globals (latched : Latched) : UInt16 × UInt16 × UInt16 × UInt16 × UInt16 :=
  (latched.bank.dmacon, latched.state.dma, latched.bank.intena, latched.bank.intreq,
    latched.bank.adkcon)

theorem ext_blocks {first second : Latched} (blocks : first.block = second.block)
    (globals : first.globals = second.globals) : first = second := by
  have block := fun ch => (Block.mk.injEq _ _ _ _ _ _ _ _ _ _ _ _).mp (congrFun blocks ch)
  simp only [Latched.globals, Prod.mk.injEq] at globals
  obtain ⟨dmacon, dma, intena, intreq, adkcon⟩ := globals
  refine Latched.ext (Bank.ext ?_ ?_ ?_ ?_ dmacon intena intreq adkcon) (LiveState.ext ?_ ?_ dma)
  · exact funext fun ch => (block ch).1
  · exact funext fun ch => (block ch).2.1
  · exact funext fun ch => (block ch).2.2.1
  · exact funext fun ch => (block ch).2.2.2.1
  · exact funext fun ch => (block ch).2.2.2.2.1
  · exact funext fun ch => (block ch).2.2.2.2.2

variable (latched : Latched) (value : UInt16) (ch : Fin 4)

theorem block_write_channel (written : Fin 4) (reg : ChannelReg) :
    (latched.write value (.channel written reg)).block ch =
      if ch = written then (latched.block ch).write value reg else latched.block ch := by
  by_cases same : ch = written
  · subst same
    cases reg <;> simp [block, write, Bank.write, LiveState.write, Block.write]
  · cases reg <;> simp [block, write, Bank.write, LiveState.write, same]

theorem globals_write_channel (reg : ChannelReg) :
    (latched.write value (.channel ch reg)).globals = latched.globals := by
  cases reg <;> rfl

end Latched

variable [Floating D] (port : Port σ) (snapshot : Snapshot)

/-- The address that a restore makes up for a register is the register's. -/
theorem restored_place (ch : Fin 4) (reg : Fin 5) :
    let address := 0xdff0a0 + UInt32.ofNat ch.val * 16 + UInt32.ofNat reg.val * 2
    address &&& 1 = 0 ∧ (address &&& 0xffe).toNat =
      Reg.offset (.channel ch (.ofIndex reg.castSucc)) := by
  revert ch reg
  decide

theorem restoreRegister_eq (ch : Fin 4) (replay : Replay F D σ) (reg : Fin 5) :
    restoreRegister port snapshot ch replay reg =
      if snapshot.sawChannel ch (.ofIndex reg.castSucc) then
        applyLiveEvent port (restoredEvent
          (0xdff0a0 + UInt32.ofNat ch.val * 16 + UInt32.ofNat reg.val * 2)
          (snapshot.reg ch reg.castSucc) snapshot.ticks) replay
      else replay := by
  have index : (ChannelReg.ofIndex reg.castSucc).index.val = reg.val := by
    rw [ChannelReg.index_ofIndex]
    rfl
  simp only [restoreRegister, Latest.sawChannel, index, bne_iff_ne, ne_eq, ite_not]

theorem restoreRegister_latched (ch : Fin 4) (replay : Replay F D σ) (reg : Fin 5) :
    (restoreRegister port snapshot ch replay reg).latched =
      if snapshot.sawChannel ch (.ofIndex reg.castSucc) then
        replay.latched.write (snapshot.reg ch reg.castSucc) (.channel ch (.ofIndex reg.castSucc))
      else replay.latched := by
  obtain ⟨even, offset⟩ := restored_place ch reg
  rw [restoreRegister_eq]
  split
  · rw [applyLiveEvent_word even, offset, Latched.writeOffset_offset]
  · rfl

theorem restoreRegisters_latched (written : Fin 4) (regs : List (Fin 5)) (replay : Replay F D σ) :
    (regs.foldl (restoreRegister port snapshot written) replay).latched.globals =
        replay.latched.globals ∧
      ∀ ch, (regs.foldl (restoreRegister port snapshot written) replay).latched.block ch =
        if ch = written then regs.foldl (Block.restore snapshot.toLatest ch) (replay.latched.block ch)
        else replay.latched.block ch := by
  induction regs generalizing replay with
  | nil => exact ⟨rfl, fun ch => (ite_self _).symm⟩
  | cons reg rest ih =>
      obtain ⟨globals, blocks⟩ := ih (restoreRegister port snapshot written replay reg)
      have first := restoreRegister_latched port snapshot written replay reg
      refine ⟨?_, fun ch => ?_⟩
      · refine globals.trans ?_
        rw [first]
        split
        · exact Latched.globals_write_channel _ _ _ _
        · rfl
      · refine (blocks ch).trans ?_
        rw [first]
        by_cases same : ch = written
        · subst same
          rw [if_pos rfl, if_pos rfl, List.foldl_cons]
          refine congrArg (rest.foldl _) ?_
          rw [Block.restore]
          split
          · rw [Latched.block_write_channel, if_pos rfl]
          · rfl
        · rw [if_neg same, if_neg same]
          split
          · rw [Latched.block_write_channel, if_neg same]
          · rfl

/-- The block that a shadow stands for. -/
def Block.ofLatest (latest : Latest) (ch : Fin 4) : Block where
  loc := latest.bank.loc ch
  len := latest.bank.len ch
  per := latest.bank.per ch
  vol := latest.bank.vol ch
  cursor := latest.bank.loc ch
  words := latest.reg ch 2

/-- A register never seen holds what its reset value writes. -/
theorem Block.restore_all {latest : Latest} (wf : latest.Wf) (ch : Fin 4) :
    (List.finRange 5).foldl (Block.restore latest ch) .reset = .ofLatest latest ch := by
  have low : ∀ high : UInt16, Bank.withLow (Bank.withHigh 0 high) 0 = Bank.withHigh 0 high := by
    intro high
    rw [← UInt32.toNat_inj, Bank.withLow_toNat, Bank.withHigh_toNat]
    simp
  have high : Bank.withHigh 0 0 = 0 := rfl
  have lch : Block.restore latest ch .reset 0 = { Block.reset with
      loc := Bank.withHigh 0 (latest.reg ch 0), cursor := Bank.withHigh 0 (latest.reg ch 0) } := by
    rw [Block.restore]
    split
    · rfl
    next unseen =>
      rw [show latest.reg ch 0 = 0 from wf.unseen ch .lch (Bool.eq_false_iff.mpr unseen), high]
      rfl
  have lcl : Block.restore latest ch { Block.reset with
      loc := Bank.withHigh 0 (latest.reg ch 0), cursor := Bank.withHigh 0 (latest.reg ch 0) } 1 =
      { Block.reset with loc := latest.bank.loc ch, cursor := latest.bank.loc ch } := by
    rw [Block.restore]
    split
    · rfl
    next unseen =>
      simp only [Latest.bank]
      rw [show latest.reg ch 1 = 0 from wf.unseen ch .lcl (Bool.eq_false_iff.mpr unseen), low]
  have len : ∀ block : Block, block.len = 0 → block.words = 0 → Block.restore latest ch block 2 =
      { block with len := latest.bank.len ch, words := latest.reg ch 2 } := by
    rintro ⟨_, _, _, _, _, _⟩ rfl rfl
    simp only [Block.restore, Latest.bank]
    split
    next seen => exact (if_pos seen).symm ▸ rfl
    next unseen =>
      rw [show latest.reg ch 2 = 0 from wf.unseen ch .len (Bool.eq_false_iff.mpr unseen)]
      exact (if_neg unseen).symm ▸ rfl
  have per : ∀ block : Block, block.per = 1 → Block.restore latest ch block 3 =
      { block with per := latest.bank.per ch } := by
    rintro ⟨_, _, _, _, _, _⟩ rfl
    simp only [Block.restore, Latest.bank]
    split
    next seen => exact (if_pos seen).symm ▸ rfl
    next unseen => exact (if_neg unseen).symm ▸ rfl
  have vol : ∀ block : Block, block.vol = 0 → Block.restore latest ch block 4 =
      { block with vol := latest.bank.vol ch } := by
    rintro ⟨_, _, _, _, _, _⟩ rfl
    simp only [Block.restore, Latest.bank]
    split
    · rfl
    next unseen =>
      rw [show latest.reg ch 4 = 0 from wf.unseen ch .vol (Bool.eq_false_iff.mpr unseen)]
      rfl
  have regs : List.finRange 5 = [0, 1, 2, 3, 4] := rfl
  simp only [regs, List.foldl_cons, List.foldl_nil]
  rw [lch, lcl, len _ rfl rfl, per _ rfl, vol _ rfl]
  rfl

theorem restoreGlobal_latched {address : UInt32} {value : UInt16} {seen : Bool} (reg : Reg)
    (offset : (address &&& 0xfff).toNat = reg.offset)
    (untracked : ∀ state : LiveState, state.write value reg = state) (replay : Replay F D σ) :
    (restoreGlobal port seen address value replay).latched =
      if seen then replay.latched.write value reg else replay.latched := by
  unfold restoreGlobal
  split
  · refine Latched.ext ?_ (untracked replay.state).symm
    refine (Paula.bank_writeRegister16 _ _ _).trans ?_
    rw [offset, Bank.writeOffset, decode_offset]
    rfl
  · rfl

theorem restoreChannels_latched {channels : List (Fin 4)} (nodup : channels.Nodup)
    (replay : Replay F D σ) :
    let after := channels.foldl (fun replay ch =>
      (List.finRange 5).foldl (restoreRegister port snapshot ch) replay) replay
    after.latched.globals = replay.latched.globals ∧
      ∀ ch, after.latched.block ch = if ch ∈ channels then
          (List.finRange 5).foldl (Block.restore snapshot.toLatest ch) (replay.latched.block ch)
        else replay.latched.block ch := by
  induction channels generalizing replay with
  | nil => exact ⟨rfl, fun ch => (if_neg List.not_mem_nil).symm⟩
  | cons written rest ih =>
      obtain ⟨fresh, nodup⟩ := List.nodup_cons.mp nodup
      obtain ⟨globals, blocks⟩ := ih nodup
        ((List.finRange 5).foldl (restoreRegister port snapshot written) replay)
      obtain ⟨globals', blocks'⟩ := restoreRegisters_latched port snapshot written
        (List.finRange 5) replay
      refine ⟨globals.trans globals', fun ch => (blocks ch).trans ?_⟩
      rw [blocks' ch]
      by_cases same : ch = written
      · subst same
        rw [if_neg fresh, if_pos rfl, if_pos List.mem_cons_self]
      · simp only [List.mem_cons, same, false_or, if_false]

variable [Floating F]

/-- A restore up to its last write: DMA is still off. -/
def quietRestore (before : Replay F D σ) : Replay F D σ :=
  let host := port.probe (flag · ppFlagCaptureFailed true) before.host
  let (live, host) := before.live.reset port host
  let replay := (List.finRange 4).foldl (fun replay ch =>
    (List.finRange 5).foldl (restoreRegister port snapshot ch) replay)
    (⟨.cleared, live, host⟩ : Replay F D σ)
  let replay := restoreGlobal port (snapshot.seenGlobal &&& 2 != 0) 0xdff09a
    (0x8000 ||| snapshot.intena) replay
  let replay := restoreGlobal port (snapshot.seenGlobal &&& 4 != 0) 0xdff09c
    (0x8000 ||| snapshot.intreq) replay
  restoreGlobal port (snapshot.seenGlobal &&& 8 != 0) 0xdff09e (0x8000 ||| snapshot.adkcon) replay

/-- The last write of a restore. -/
def enableDma (replay : Replay F D σ) : Replay F D σ :=
  if snapshot.seenGlobal &&& 1 ≠ 0 then
    applyLiveEvent port (restoredEvent 0xdff096 (0x8000 ||| snapshot.dma) snapshot.ticks) replay
  else replay

/-- A restore enables DMA last, and then only counts. -/
theorem restoreLiveState_eq (before : Replay F D σ) :
    (restoreLiveState port snapshot before).state =
        (enableDma port snapshot (quietRestore port snapshot before)).state ∧
      (restoreLiveState port snapshot before).live =
        (enableDma port snapshot (quietRestore port snapshot before)).live := ⟨rfl, rfl⟩

/-- A fifteen-bit word of the shadow is set in a cleared register, or was never written. -/
theorem set_of_seen {word : UInt16} {mask : UInt32} (top : word &&& 0x8000 = 0)
    (unseen : snapshot.seenGlobal &&& mask = 0 → word = 0) :
    (if snapshot.seenGlobal &&& mask ≠ 0 then setClear 0 (0x8000 ||| word) else 0) = word := by
  split
  · exact setClear_restore top
  next clear => exact (unseen (not_not.mp clear)).symm

theorem quietRestore_latched (wf : snapshot.Wf) (before : Replay F D σ) :
    (quietRestore port snapshot before).latched =
      ⟨{ snapshot.bank with dmacon := 0 }, ⟨snapshot.bank.loc, (snapshot.reg · 2), 0⟩⟩ := by
  have ifIntena : ∀ (latched : Latched) (value : UInt16) (seen : Prop) [Decidable seen],
      (if seen then latched.write value .intena else latched) = { latched with
        bank.intena := if seen then setClear latched.bank.intena value else latched.bank.intena } := by
    intro latched value seen _
    split <;> rfl
  have ifIntreq : ∀ (latched : Latched) (value : UInt16) (seen : Prop) [Decidable seen],
      (if seen then latched.write value .intreq else latched) = { latched with
        bank.intreq := if seen then setClear latched.bank.intreq value else latched.bank.intreq } := by
    intro latched value seen _
    split <;> rfl
  have ifAdkcon : ∀ (latched : Latched) (value : UInt16) (seen : Prop) [Decidable seen],
      (if seen then latched.write value .adkcon else latched) = { latched with
        bank.adkcon := if seen then setClear latched.bank.adkcon value else latched.bank.adkcon } := by
    intro latched value seen _
    split <;> rfl
  obtain ⟨globals, blocks⟩ := restoreChannels_latched port snapshot
    (List.nodup_finRange 4) (⟨.cleared, (before.live.reset port (port.probe
      (flag · ppFlagCaptureFailed true) before.host)).1, (before.live.reset port (port.probe
      (flag · ppFlagCaptureFailed true) before.host)).2⟩ : Replay F D σ)
  simp only [quietRestore]
  generalize (List.finRange 4).foldl _ _ = channels at globals blocks ⊢
  have latched : channels.latched = ⟨⟨snapshot.bank.loc, snapshot.bank.len, snapshot.bank.per,
      snapshot.bank.vol, 0, 0, 0, 0⟩, ⟨snapshot.bank.loc, (snapshot.reg · 2), 0⟩⟩ := by
    refine Latched.ext_blocks (funext fun ch => ?_) globals
    rw [blocks ch, if_pos (List.mem_finRange ch)]
    exact Block.restore_all wf ch
  rw [restoreGlobal_latched port .adkcon rfl (fun _ => rfl),
    restoreGlobal_latched port .intreq rfl (fun _ => rfl),
    restoreGlobal_latched port .intena rfl (fun _ => rfl), latched]
  simp only [bne_iff_ne]
  rw [ifIntena, ifIntreq, ifAdkcon]
  refine Latched.ext (Bank.ext rfl rfl rfl rfl rfl ?_ ?_ ?_) (LiveState.ext rfl rfl rfl)
  · exact set_of_seen snapshot wf.intenaTop wf.intenaUnseen
  · exact set_of_seen snapshot wf.intreqTop wf.intreqUnseen
  · exact set_of_seen snapshot wf.adkconTop wf.adkconUnseen

/-- What a shadow stands for. -/
def Latched.ofLatest (latest : Latest) : Latched :=
  ⟨latest.bank, ⟨latest.bank.loc, (latest.reg · 2), latest.dma⟩⟩

/-- What a restore leaves latched is the shadow, whatever was latched before. -/
theorem restoreLiveState_latched (wf : snapshot.Wf) (before : Replay F D σ) :
    (restoreLiveState port snapshot before).latched =
      .ofLatest snapshot.toLatest := by
  have dmacon : (enableDma port snapshot (quietRestore port snapshot before)).latched =
      if snapshot.seenGlobal &&& 1 ≠ 0 then
        (quietRestore port snapshot before).latched.write (0x8000 ||| snapshot.dma) .dmacon
      else (quietRestore port snapshot before).latched := by
    rw [enableDma, apply_ite Replay.latched, applyLiveEvent_word (by decide)]
    exact congrArg (ite _ · _) (Latched.writeOffset_offset _ .dmacon _)
  change (enableDma port snapshot (quietRestore port snapshot before)).latched = _
  have set := set_of_seen snapshot wf.dmaTop wf.dmaUnseen
  rw [dmacon, quietRestore_latched port snapshot wf]
  split at set
  next seen =>
    rw [if_pos seen]
    exact Latched.ext (Bank.ext rfl rfl rfl rfl set rfl rfl rfl) (LiveState.ext rfl rfl set)
  next unseen =>
    rw [if_neg unseen]
    exact Latched.ext (Bank.ext rfl rfl rfl rfl set rfl rfl rfl) (LiveState.ext rfl rfl set)

section Start

omit [Floating F] in
theorem applyLiveEvent_restartsMatch (event : Event) {replay : Replay F D σ}
    (matched : replay.live.core.RestartsMatch) :
    (applyLiveEvent port event replay).live.core.RestartsMatch := by
  simp only [applyLiveEvent]
  split_ifs
  · exact matched
  · exact matched
  · exact Paula.writeRegister16_restartsMatch matched _ _
  · exact Paula.writeRegister16_restartsMatch matched _ _

theorem quietRestore_restartsMatch (before : Replay F D σ) :
    (quietRestore port snapshot before).live.core.RestartsMatch := by
  have register : ∀ ch (replay : Replay F D σ) reg, replay.live.core.RestartsMatch →
      (restoreRegister port snapshot ch replay reg).live.core.RestartsMatch := by
    intro ch replay reg matched
    unfold restoreRegister
    split
    · exact matched
    · exact applyLiveEvent_restartsMatch port _ matched
  have global : ∀ seen address value (replay : Replay F D σ), replay.live.core.RestartsMatch →
      (restoreGlobal port seen address value replay).live.core.RestartsMatch := by
    intro seen address value replay matched
    unfold restoreGlobal
    split
    · exact Paula.writeRegister16_restartsMatch matched _ _
    · exact matched
  refine global _ _ _ _ (global _ _ _ _ (global _ _ _ _ ?_))
  let holds : Replay F D σ → Prop := fun replay => replay.live.core.RestartsMatch
  refine List.foldlRecOn (motive := holds) _ _ (Paula.reset_restartsMatch before.live.core)
    fun replay matched ch _ => ?_
  exact List.foldlRecOn (motive := holds) _ _ matched
    fun replay matched reg _ => register ch replay reg matched

/-- After a restore every channel with its DMA on is about to fetch the first word of
its restored block. -/
theorem restoreLiveState_started (wf : snapshot.Wf) (before : Replay F D σ) (ch : Fin 4)
    (on : dmaOn (restoreLiveState port snapshot before).live.core.dmaCon ch = true) :
    let c := (restoreLiveState port snapshot before).live.core.channels ch
    c.curPtr = c.locPtrLatched ∧ c.curWordsLeft = c.lenWordsLatched ∧ c.onLowByte = true := by
  have quiet := congrArg (fun latched : Latched => latched.bank.dmacon)
    (quietRestore_latched port snapshot wf before)
  change (quietRestore port snapshot before).live.core.dmaCon = 0 at quiet
  have waiting := quietRestore_restartsMatch port snapshot before ch
  rw [quiet, dmaOn_zero, Bool.not_false] at waiting
  rw [(restoreLiveState_eq port snapshot before).2] at on ⊢
  simp only [enableDma] at on ⊢
  split at on
  next seen =>
    have core : (applyLiveEvent port (restoredEvent 0xdff096 (0x8000 ||| snapshot.dma)
        snapshot.ticks) (quietRestore port snapshot before)).live.core =
        (quietRestore port snapshot before).live.core.write (0x8000 ||| snapshot.dma) .dmacon := by
      have even : (0xdff096 : UInt32) &&& 1 = 0 := by decide
      have address : 0xdff000 ||| ((0xdff096 : UInt32) &&& 0xffe) = 0xdff096 := by decide
      rw [(applyLiveEvent_eq port (.inr ⟨rfl, even⟩) _).1]
      simp only [restoredEvent, address, busWord]
      rw [Paula.writeRegister16_eq]
      rfl
    rw [if_pos seen]
    rw [core] at on ⊢
    change dmaOn (setClear _ _) ch = true at on
    simp only [Paula.write, retrigger, if_pos on, if_pos waiting]
    exact ⟨rfl, rfl, rfl⟩
  next unseen =>
    rw [quiet, dmaOn_zero] at on
    cases on

end Start

end Restore

section Recovery

theorem Latched.ofLatest_record (latest : Latest) (value : UInt16) (reg : Reg) :
    ofLatest (latest.record value reg) = (ofLatest latest).write value reg := by
  refine Latched.ext (Latest.bank_record latest value reg) ?_
  have bank := Latest.bank_record latest value reg
  simp only [ofLatest, write]
  rw [bank]
  cases reg with
  | channel written reg =>
      refine LiveState.ext ?_ ?_ ?_
      · cases reg <;> rfl
      · funext ch
        by_cases same : ch = written
        · subst same
          cases reg <;> simp [LiveState.write, Latest.record, ChannelReg.index]
        · cases reg <;> simp [LiveState.write, Latest.record, same]
      · cases reg <;> rfl
  | _ => rfl

theorem Latched.ofLatest_shadowWord (latest : Latest) (address : UInt32) (value : UInt16) :
    ofLatest (latest.shadowWord address value) =
      (ofLatest latest).writeOffset (address &&& 0xffe).toNat value := by
  rw [Latest.shadowWord_eq, writeOffset, Bank.writeOffset, LiveState.writeOffset]
  cases decode (address &&& 0xffe).toNat with
  | none => rfl
  | some reg => exact ofLatest_record latest value reg

theorem Latched.ofLatest_ofCalls (calls : List Mirror.Call) : ofLatest (.ofCalls calls) =
    calls.foldl (fun latched call => latched.writeOffset call.offset call.word) .reset := by
  induction calls using List.reverseRecOn with
  | nil => exact Latched.ext Latest.bank_empty (LiveState.ext (congrArg Bank.loc Latest.bank_empty) rfl rfl)
  | append_singleton calls call ih =>
      rw [Latest.ofCalls_append_singleton, ofLatest_shadowWord, ih, List.foldl_append]
      rfl

variable [Floating D] (port : Port σ)

/-- Calls with their time stamps, applied event by event. -/
def replayAll (stamped : List (Mirror.Call × UInt64)) (replay : Replay F D σ) : Replay F D σ :=
  stamped.foldl (fun replay call => applyLiveEvent port (call.1.event call.2) replay) replay

theorem replayAll_latched {stamped : List (Mirror.Call × UInt64)}
    (wellFormed : ∀ call ∈ stamped, call.1.WellFormed) (replay : Replay F D σ) :
    (replayAll port stamped replay).latched = (stamped.map Prod.fst).foldl
      (fun latched call => latched.writeOffset call.offset call.word) replay.latched := by
  induction stamped generalizing replay with
  | nil => rfl
  | cons call rest ih =>
      have here := wellFormed call List.mem_cons_self
      refine (ih (fun later member => wellFormed later (List.mem_cons_of_mem _ member)) _).trans ?_
      refine congrArg (List.foldl _ · _) ?_
      have deliverable : Deliverable (call.1.event call.2) := by
        rcases here with byte | ⟨word, even⟩
        · exact .inl (by rw [Mirror.Call.event, byte]; rfl)
        · exact .inr ⟨by rw [Mirror.Call.event, word]; rfl, even⟩
      rw [applyLiveEvent_latched deliverable, Mirror.Call.busWord_event here]
      rfl

variable [Floating F]

/-- The replay loop as `hdmi_audio_poc_run` starts it. -/
def Replay.initial (host : σ) : Replay F D σ :=
  let (live, host) := Live.init port host
  ⟨.cleared, live, host⟩

/-- Recovery agrees with replay, for every sequence of captured calls. -/
theorem recovery_agrees_replay {stamped : List (Mirror.Call × UInt64)}
    (wellFormed : ∀ call ∈ stamped, call.1.WellFormed) {snapshot : Snapshot}
    (taken : snapshot.toLatest = .ofCalls (stamped.map Prod.fst)) (host : σ)
    (before : Replay F D σ) :
    let restored := restoreLiveState port snapshot before
    let replayed := replayAll port stamped (.initial port host : Replay F D σ)
    restored.live.core.bank = replayed.live.core.bank ∧ restored.state = replayed.state ∧
      ∀ ch, dmaOn restored.live.core.dmaCon ch = true →
        (restored.live.core.channels ch).curPtr = (restored.live.core.channels ch).locPtrLatched ∧
        (restored.live.core.channels ch).curWordsLeft =
          (restored.live.core.channels ch).lenWordsLatched ∧
        (restored.live.core.channels ch).onLowByte = true := by
  intro restored replayed
  have wf : snapshot.Wf := taken ▸ Latest.ofCalls_wf _
  have latched : restored.latched = replayed.latched := by
    refine (restoreLiveState_latched port snapshot wf before).trans ?_
    rw [taken, Latched.ofLatest_ofCalls]
    exact (replayAll_latched port wellFormed (Replay.initial port host : Replay F D σ)).symm
  refine ⟨congrArg Latched.bank latched, congrArg Latched.state latched, fun ch on => ?_⟩
  exact restoreLiveState_started port snapshot wf before ch on

/-- A location written in halves and bytes, a length of zero, and DMA. -/
def oneVoice : List (Mirror.Call × UInt64) :=
  [(⟨0xdff0a0, 1, 2⟩, 10), (⟨0xdff0a3, 0x40, 1⟩, 11), (⟨0xdff0a4, 0, 2⟩, 12),
    (⟨0xdff0a8, 64, 2⟩, 13), (⟨0xdff096, 0x8201, 2⟩, 14)]

theorem recovery_agrees_replay_of_oneVoice :
    let port := Live.idealPort fun _ => 0
    let snapshot : Snapshot :=
      { Latest.ofCalls (oneVoice.map Prod.fst) with ticks := 20, skipped := 5, dropped := 0 }
    let before : Replay ℚ ℚ Metrics := .initial port Probe.init
    let restored := restoreLiveState port snapshot before
    let replayed := replayAll port oneVoice before
    restored.live.core.bank = replayed.live.core.bank ∧ restored.state = replayed.state ∧
      (restored.live.core.channels 0).curPtr = (restored.live.core.channels 0).locPtrLatched := by
  intro port snapshot before restored replayed
  obtain ⟨bank, state, started⟩ := recovery_agrees_replay port
    (show ∀ call ∈ oneVoice, call.1.WellFormed by decide) (show snapshot.toLatest = _ from rfl)
    Probe.init before
  refine ⟨bank, state, (started 0 ?_).1⟩
  have dma := congrArg (fun latched : Latched => latched.bank.dmacon)
    (restoreLiveState_latched port snapshot (Latest.ofCalls_wf _) before)
  change restored.live.core.dmaCon = (Latest.ofCalls (oneVoice.map Prod.fst)).dma at dma
  rw [show (restoreLiveState port snapshot before).live.core.dmaCon = _ from dma]
  decide

end Recovery

end Paulastorm.Poc
