import Paulastorm.Core.Blocks

namespace Paulastorm.Core.Blocks

/-! What a running channel plays, over every interleaving of source samples and writes. -/

open Library Paula

variable {F D σ : Type}

/-- The live part of a channel. -/
structure SameCursor (c d : Channel F D) : Prop where
  ptr : d.curPtr = c.curPtr
  left : d.curWordsLeft = c.curWordsLeft
  high : d.curSampleH = c.curSampleH
  boundary : d.onLowByte = c.onLowByte
  out : d.curOut = c.curOut
  next : d.nextOut = c.nextOut
  restart : d.dmaWantsRestart = c.dmaWantsRestart

theorem SameCursor.refl (c : Channel F D) : SameCursor c c :=
  ⟨rfl, rfl, rfl, rfl, rfl, rfl, rfl⟩

/-- The core is where the observer says: the rest of the block follows what was read, and
the samples not yet played out wait in the channel. -/
structure Walking (ch : Fin 4) (state : State F D σ) : Prop where
  read : state.core.read = true
  enabled : dmaOn state.core.dmaCon ch = true
  running : (state.core.channels ch).dmaWantsRestart = false
  programmed : (state.core.channels ch).lenWordsLatched ≠ 0
  boundary : (state.core.channels ch).onLowByte = decide (state.advanced % 2 = 0)
  cursor : state.reads.map Prod.fst ++ Block.addresses
      ⟨(state.core.channels ch).curPtr, (state.core.channels ch).curWordsLeft.toNat⟩ =
    state.blocks.flatMap Block.addresses
  count : state.reads.length = 2 * state.fetched
  begun : state.blocks ≠ [] ∧ Block.total state.blocks.dropLast ≤ state.fetched
  samples : ((0 : Int8) :: 0 :: state.samples).drop state.advanced =
    (state.core.channels ch).curOut :: (state.core.channels ch).nextOut ::
      if (state.core.channels ch).onLowByte then []
      else [(state.core.channels ch).curSampleH.toInt8]
  interrupts : state.interrupts =
    if state.core.onInterrupt then List.replicate (state.blocks.length - 1) (intBit ch) else []

variable {ch : Fin 4} {state : State F D σ}

namespace Walking

/-- The words fetched and the words left are those of the blocks begun. -/
theorem words (walking : Walking ch state) :
    state.fetched + (state.core.channels ch).curWordsLeft.toNat = Block.total state.blocks := by
  have lengths := congrArg List.length walking.cursor
  rw [List.length_append, List.length_map, walking.count, Block.addresses_length,
    Block.length_flatMap_addresses] at lengths
  dsimp only at lengths
  omega

theorem not_blockEnds (walking : Walking ch state)
    (inside : (state.core.channels ch).onLowByte = false) : ¬ state.blockEnds := by
  intro ends
  rw [walking.boundary] at inside
  have odd := of_decide_eq_false inside
  rw [ends] at odd
  omega

theorem blockEnds_iff (walking : Walking ch state)
    (boundary : (state.core.channels ch).onLowByte = true) :
    state.blockEnds ↔ (state.core.channels ch).curWordsLeft = 0 := by
  have even : state.advanced % 2 = 0 := by
    rw [walking.boundary] at boundary
    exact of_decide_eq_true boundary
  have words := walking.words
  rw [State.fetched] at words
  rw [← UInt32.toNat_inj, State.blockEnds]
  constructor
  · intro ends
    change _ = 0
    omega
  · intro none
    change _ = 0 at none
    omega

/-- A core with the same registers that matter and the same cursor. -/
theorem of_core (walking : Walking ch state) {core : Paula F D} (host : σ)
    (read : core.read = state.core.read) (onInterrupt : core.onInterrupt = state.core.onInterrupt)
    (enabled : dmaOn core.dmaCon ch = true)
    (programmed : (core.channels ch).lenWordsLatched ≠ 0)
    (cursor : SameCursor (state.core.channels ch) (core.channels ch)) :
    Walking ch { state with core, host } where
  read := read.trans walking.read
  enabled := enabled
  running := cursor.restart.trans walking.running
  programmed := programmed
  boundary := cursor.boundary.trans walking.boundary
  cursor := by
    dsimp only
    rw [cursor.ptr, cursor.left]
    exact walking.cursor
  count := walking.count
  begun := walking.begun
  samples := by
    dsimp only
    rw [cursor.out, cursor.next, cursor.high, cursor.boundary]
    exact walking.samples
  interrupts := by
    dsimp only
    rw [onInterrupt]
    exact walking.interrupts

theorem of_keeps (walking : Walking ch state) {core : Paula F D} (host : σ)
    (keeps : KeepsRegisters state.core core)
    (cursor : SameCursor (state.core.channels ch) (core.channels ch)) :
    Walking ch { state with core, host } := by
  have settings := keeps.settings
  have bank := keeps.bank
  simp only [Paula.settings, Prod.mk.injEq] at settings
  obtain ⟨-, -, -, read, onInterrupt⟩ := settings
  have dmaCon : core.dmaCon = state.core.dmaCon := congrArg Bank.dmacon bank
  have length : (core.channels ch).lenWordsLatched = (state.core.channels ch).lenWordsLatched :=
    congrFun (congrArg Bank.len bank) ch
  apply walking.of_core host read onInterrupt
  · rw [dmaCon]
    exact walking.enabled
  · rw [length]
    exact walking.programmed
  · exact cursor

/-- The second byte of a word. -/
theorem second (walking : Walking ch state)
    (inside : (state.core.channels ch).onLowByte = false) :
    Walking ch { state with
      core := state.core.updateChannel ch (state.core.channels ch).secondByte
      advanced := state.advanced + 1 } := by
  have odd : state.advanced % 2 = 1 := by
    rw [walking.boundary] at inside
    have uneven := of_decide_eq_false inside
    omega
  have word : (state.advanced + 1 + 1) / 2 = (state.advanced + 1) / 2 := by omega
  refine ⟨walking.read, walking.enabled, ?_, ?_, ?_, ?_, ?_, ?_, ?_, walking.interrupts⟩
  · rw [updateChannel_self]
    exact walking.running
  · rw [updateChannel_self]
    exact walking.programmed
  · rw [updateChannel_self]
    exact (decide_eq_true (by dsimp only; omega)).symm
  · rw [updateChannel_self]
    exact walking.cursor
  · have count := walking.count
    rw [State.fetched] at count ⊢
    rw [word]
    exact count
  · have begun := walking.begun
    rw [State.fetched] at begun ⊢
    rw [word]
    exact begun
  · have samples := walking.samples
    rw [inside] at samples
    rw [updateChannel_self]
    change List.drop (state.advanced + 1) (0 :: 0 :: state.samples) = _
    rw [← List.drop_drop, samples]
    rfl

end Walking

section Own

variable (callbacks : Callbacks σ)

/-- The state between a block change and the word fetch. -/
def State.reloaded (ch : Fin 4) (state : State F D σ) : State F D σ :=
  let taken := state.core.reload callbacks.recording ch (state.host, state.calls)
  { core := taken.1
    host := taken.2.1
    calls := taken.2.2
    advanced := state.advanced
    blocks := if state.blockEnds then state.blocks ++ [state.core.latched ch] else state.blocks }

theorem Walking.reloaded (walking : Walking ch state)
    (boundary : (state.core.channels ch).onLowByte = true) :
    Walking ch (state.reloaded callbacks ch) ∧
      ((state.reloaded callbacks ch).core.channels ch).curWordsLeft ≠ 0 ∧
      ((state.reloaded callbacks ch).core.channels ch).onLowByte = true := by
  have ends := walking.blockEnds_iff boundary
  by_cases exhausted : (state.core.channels ch).curWordsLeft = 0
  · have changed := ends.mpr exhausted
    have words := walking.words
    have core : (state.reloaded callbacks ch).core =
        (state.core.updateChannel ch (state.core.channels ch).reloaded).raise ch := by
      simp only [State.reloaded, reload, if_pos exhausted]
    have calls : (state.reloaded callbacks ch).calls =
        state.calls ++ if state.core.onInterrupt then [.interrupt (intBit ch)] else [] := by
      simp only [State.reloaded, reload, if_pos exhausted]
      change (if state.core.onInterrupt then _ else _ : σ × List Call).2 = _
      split
      · rfl
      · exact (List.append_nil _).symm
    have reads : (state.reloaded callbacks ch).reads = state.reads := by
      rw [State.reads, calls, List.filterMap_append]
      split <;> exact List.append_nil _
    have blocks : (state.reloaded callbacks ch).blocks =
        state.blocks ++ [state.core.latched ch] := by
      simp only [State.reloaded, if_pos changed]
    have channel : (state.reloaded callbacks ch).core.channels ch =
        (state.core.channels ch).reloaded := by
      rw [core]
      exact updateChannel_self _ _ _
    rw [channel]
    refine ⟨⟨?_, ?_, ?_, ?_, ?_, ?_, ?_, ?_, ?_, ?_⟩, walking.programmed, boundary⟩
    · rw [core]
      exact walking.read
    · rw [core]
      exact walking.enabled
    · rw [channel]
      exact walking.running
    · rw [channel]
      exact walking.programmed
    · rw [channel]
      exact walking.boundary
    · have cursor := walking.cursor
      rw [exhausted] at cursor
      change _ ++ [] = _ at cursor
      rw [List.append_nil] at cursor
      rw [channel, reads, blocks, List.flatMap_append, cursor]
      exact congrArg _ (List.append_nil _).symm
    · rw [reads]
      exact walking.count
    · rw [blocks, List.dropLast_concat]
      rw [exhausted] at words
      exact ⟨by simp, le_of_eq words.symm⟩
    · rw [channel, State.samples, reads]
      exact walking.samples
    · have interrupts := walking.interrupts
      have some : state.blocks.length - 1 + 1 = state.blocks.length := by
        have nonempty := List.length_pos_iff.mpr walking.begun.1
        omega
      rw [State.interrupts] at interrupts
      rw [State.interrupts, calls, blocks, core, List.filterMap_append, interrupts,
        List.length_append]
      change _ = if state.core.onInterrupt = true then
        List.replicate (state.blocks.length + 1 - 1) (intBit ch) else []
      split
      · rw [Nat.add_sub_cancel, ← some, List.replicate_succ']
        rfl
      · rfl
  · have same : state.reloaded callbacks ch = state := by
      simp only [State.reloaded, reload, if_neg exhausted, if_neg (mt ends.mp exhausted)]
    rw [same]
    exact ⟨walking, exhausted, boundary⟩

/-- The word fetch of a channel with words left. -/
theorem Walking.fetch (walking : Walking ch state)
    (boundary : (state.core.channels ch).onLowByte = true)
    (left : (state.core.channels ch).curWordsLeft ≠ 0) :
    let taken := state.core.fetchWord callbacks.recording ch (state.host, state.calls)
    Walking ch { state with
      core := taken.1, host := taken.2.1, calls := taken.2.2, advanced := state.advanced + 1 } := by
  have even : state.advanced % 2 = 0 := by
    rw [walking.boundary] at boundary
    exact of_decide_eq_true boundary
  have word : (state.advanced + 1 + 1) / 2 = (state.advanced + 1) / 2 + 1 := by omega
  have positive : 0 < (state.core.channels ch).curWordsLeft := UInt32.pos_iff_ne_zero.mpr left
  have size : (state.core.channels ch).curWordsLeft.toNat =
      ((state.core.channels ch).curWordsLeft - 1).toNat + 1 := by
    have some : 1 ≤ (state.core.channels ch).curWordsLeft.toNat := UInt32.lt_iff_toNat_lt.mp positive
    rw [UInt32.toNat_sub_of_le _ _ (UInt32.le_iff_toNat_le.mpr
      (show (1 : UInt32).toNat ≤ _ from some))]
    exact (Nat.sub_add_cancel some).symm
  simp only [fetchWord, Callbacks.recording]
  let low := callbacks.read (state.core.channels ch).curPtr state.host
  let high := callbacks.read ((state.core.channels ch).curPtr + 1) low.2
  refine ⟨walking.read, walking.enabled, ?_, ?_, ?_, ?_, ?_, ?_, ?_, ?_⟩
  · rw [updateChannel_self]
    exact walking.running
  · rw [updateChannel_self]
    exact walking.programmed
  · rw [updateChannel_self]
    exact (decide_eq_false (by dsimp only; omega)).symm
  · have cursor := walking.cursor
    rw [size, Block.addresses_succ] at cursor
    rw [updateChannel_self]
    simp only [Channel.loadWord, if_pos positive]
    rw [← cursor]
    simp [State.reads, Call.asRead]
  · have count := walking.count
    rw [State.fetched] at count ⊢
    rw [word]
    simp only [State.reads, List.filterMap_append, List.length_append] at count ⊢
    rw [count]
    simp [Call.asRead]
    omega
  · have begun := walking.begun
    rw [State.fetched] at begun ⊢
    rw [word]
    exact ⟨begun.1, Nat.le_succ_of_le begun.2⟩
  · have samples := walking.samples
    have played : ∀ samples : List Int8,
        samples.drop state.advanced =
          [(state.core.channels ch).curOut, (state.core.channels ch).nextOut] →
        (samples ++ [low.1.toInt8, high.1.toInt8]).drop (state.advanced + 1) =
          [(state.core.channels ch).nextOut, low.1.toInt8, high.1.toInt8] := by
      intro samples waiting
      have enough : state.advanced ≤ samples.length := by
        by_contra beyond
        rw [List.drop_eq_nil_of_le (by omega)] at waiting
        cases waiting
      rw [← List.drop_drop, List.drop_append_of_le_length enough, waiting]
      rfl
    rw [boundary] at samples
    rw [updateChannel_self]
    have next := played _ samples
    simp only [State.samples, State.reads, List.filterMap_append, List.map_append,
      List.append_assoc] at next ⊢
    exact next
  · have interrupts := walking.interrupts
    rw [State.interrupts] at interrupts ⊢
    simp only [List.filterMap_append, interrupts, List.append_assoc]
    exact List.append_nil _

end Own

section Others

variable (callbacks : Callbacks σ) (p : Paula F D) {other : Fin 4}

theorem reload_other (different : other ≠ ch) (host : σ) :
    (p.reload callbacks other host).1.channels ch = p.channels ch := by
  simp only [reload]
  split
  · exact updateChannel_of_ne p different.symm _
  · rfl

theorem advance_other (different : other ≠ ch) (host : σ) :
    (p.advanceOneSourceSample callbacks other host).1.channels ch = p.channels ch := by
  simp only [advanceOneSourceSample]
  split_ifs
  · exact updateChannel_of_ne p different.symm _
  · exact updateChannel_of_ne p different.symm _
  · exact (updateChannel_of_ne _ different.symm _).trans (reload_other callbacks p different host)
  · exact updateChannel_of_ne p different.symm _

/-- No source sample of another channel touches the channel's request flag. -/
theorem advance_other_intReq (different : other ≠ ch) (host : σ) :
    (p.advanceOneSourceSample callbacks other host).1.intReq &&& intBit ch =
      p.intReq &&& intBit ch := by
  have apart : ∀ first second : Fin 4, first ≠ second → intBit first &&& intBit second = 0 := by
    decide
  have raised : (p.intReq ||| intBit other) &&& intBit ch = p.intReq &&& intBit ch := by
    rw [Library.Word.or_and_distrib, apart other ch different, UInt16.or_zero]
  simp only [advanceOneSourceSample, reload]
  split_ifs
  · rfl
  · rfl
  · exact raised
  · exact raised
  · rfl
  · rfl

end Others

theorem updateChannel_sameCursor (p : Paula F D) (written : Fin 4) {c : Channel F D}
    (same : SameCursor (p.channels written) c) :
    SameCursor (p.channels ch) ((p.updateChannel written c).channels ch) := by
  by_cases equal : ch = written
  · subst equal
    rw [updateChannel_self]
    exact same
  · rw [updateChannel_of_ne p equal]
    exact .refl _

/-- A write that leaves the DMA on latches registers of a running channel, no more. -/
theorem write_channel [Floating D] {p : Paula F D}
    (running : (p.channels ch).dmaWantsRestart = false) (addr : UInt32) (value : UInt16)
    (enabled : dmaOn (p.writeRegister16 addr value).dmaCon ch = true) :
    ∃ loc len period volume, (p.writeRegister16 addr value).channels ch =
      { p.channels ch with
        locPtrLatched := loc, lenWordsLatched := len, period := period, volume := volume } := by
  have same : ∃ loc len period volume, p.channels ch = { p.channels ch with
      locPtrLatched := loc, lenWordsLatched := len, period := period, volume := volume } :=
    ⟨_, _, _, _, rfl⟩
  have updated : ∀ (written : Fin 4) (loc len : UInt32) (period volume : UInt16),
      ∃ loc' len' period' volume', (p.updateChannel written { p.channels written with
          locPtrLatched := loc, lenWordsLatched := len, period := period,
          volume := volume }).channels ch =
        { p.channels ch with
          locPtrLatched := loc', lenWordsLatched := len', period := period',
          volume := volume' } := by
    intro written loc len period volume
    by_cases equal : ch = written
    · subst equal
      rw [updateChannel_self]
      exact ⟨_, _, _, _, rfl⟩
    · rw [updateChannel_of_ne p equal]
      exact same
  rw [writeRegister16_eq] at enabled ⊢
  cases found : decode (addr &&& 0xfff).toNat with
  | none => exact same
  | some reg =>
      rw [found] at enabled
      cases reg with
      | dmacon =>
          have kept : retrigger (setClear p.dmaCon value) ch (p.channels ch) = p.channels ch := by
            change dmaOn (setClear p.dmaCon value) ch = true at enabled
            rw [retrigger, if_pos enabled, running]
            rfl
          change ∃ loc len period volume, retrigger (setClear p.dmaCon value) ch (p.channels ch) = _
          rw [kept]
          exact same
      | channel written reg =>
          cases reg with
          | dat => exact same
          | _ => exact updated written _ _ _ _
      | _ => exact same

theorem write_sameCursor [Floating D] {p : Paula F D}
    (running : (p.channels ch).dmaWantsRestart = false) (addr : UInt32) (value : UInt16)
    (enabled : dmaOn (p.writeRegister16 addr value).dmaCon ch = true) :
    SameCursor (p.channels ch) ((p.writeRegister16 addr value).channels ch) := by
  obtain ⟨loc, len, period, volume, channel⟩ := write_channel running addr value enabled
  rw [channel]
  exact ⟨rfl, rfl, rfl, rfl, rfl, rfl, rfl⟩

theorem write_programmed [Floating D] {p : Paula F D}
    (programmed : (p.channels ch).lenWordsLatched ≠ 0) (addr : UInt32) (value : UInt16) :
    ((p.writeRegister16 addr value).channels ch).lenWordsLatched ≠ 0 := by
  change (p.writeRegister16 addr value).bank.len ch ≠ 0
  rw [bank_writeRegister16]
  exact Bank.writeOffset_programmed programmed _ value

theorem write_attached [Floating D] (p : Paula F D) (addr : UInt32) (value : UInt16) :
    (p.writeRegister16 addr value).read = p.read ∧
      (p.writeRegister16 addr value).onInterrupt = p.onInterrupt := by
  rw [writeRegister16_eq]
  cases decode (addr &&& 0xfff).toNat with
  | none => exact ⟨rfl, rfl⟩
  | some reg =>
      cases reg with
      | channel written reg => cases reg <;> exact ⟨rfl, rfl⟩
      | _ => exact ⟨rfl, rfl⟩

theorem Walking.lowered [Floating D] (walking : Walking ch state) (other : Fin 4) :
    Walking ch { state with core := state.core.lowered other } := by
  apply walking.of_keeps state.host
  · exact updateChannel_keeps _ other ⟨rfl, rfl, rfl, rfl, rfl⟩
  · exact updateChannel_sameCursor _ other ⟨rfl, rfl, rfl, rfl, rfl, rfl, rfl⟩

section Steps

variable [Floating F] [Floating D] [Arith F D] (callbacks : Callbacks σ)

theorem mixed_keeps (p : Paula F D) (other : Fin 4) : KeepsRegisters p (p.mixed other) := by
  have mixed : KeepsRegisters p (p.mixOut other).2 :=
    updateChannel_keeps p other ⟨rfl, rfl, rfl, rfl, rfl⟩
  apply mixed.trans
  simp only [Paula.mixed, pan]
  split <;> exact ⟨rfl, rfl, fun _ => rfl, 0, rfl, by simp⟩

theorem mixed_sameCursor (p : Paula F D) (other : Fin 4) :
    SameCursor (p.channels ch) ((p.mixed other).channels ch) := by
  have channels : (p.mixed other).channels = (p.mixOut other).2.channels := by
    simp only [Paula.mixed, pan]
    split <;> rfl
  rw [channels]
  exact updateChannel_sameCursor p other ⟨rfl, rfl, rfl, rfl, rfl, rfl, rfl⟩

/-- One source sample of the channel. -/
theorem own_walking (walking : Walking ch state) :
    Walking ch (step callbacks ch (.advance ch) state) := by
  have ready := walking.lowered ch
  let lowered := state.core.lowered ch
  have latched : lowered.latched ch = state.core.latched ch := by
    change Paula.latched (Paula.updateChannel _ ch _) ch = _
    rw [Paula.latched, updateChannel_self]
    rfl
  have enabled : dmaOn lowered.dmaCon ch = true := walking.enabled
  have attached : lowered.read = true := walking.read
  cases boundary : (lowered.channels ch).onLowByte with
  | false =>
      have taken : state.core.takeSample callbacks.recording ch (state.host, state.calls) =
          (lowered.updateChannel ch (lowered.channels ch).secondByte, state.host, state.calls) := by
        change lowered.advanceOneSourceSample _ _ _ = _
        simp only [advanceOneSourceSample, attached, enabled, boundary]
        rfl
      have uneven : ¬ state.blockEnds := ready.not_blockEnds boundary
      simp only [step, taken, if_neg uneven, if_pos]
      exact ready.second boundary
  | true =>
      obtain ⟨reloaded, left, low⟩ := ready.reloaded callbacks boundary
      have fetched := reloaded.fetch callbacks low left
      have taken : state.core.takeSample callbacks.recording ch (state.host, state.calls) =
          Paula.fetchWord callbacks.recording
            (lowered.reload callbacks.recording ch (state.host, state.calls)).1 ch
            (lowered.reload callbacks.recording ch (state.host, state.calls)).2 := by
        change lowered.advanceOneSourceSample _ _ _ = _
        simp only [advanceOneSourceSample, attached, enabled, boundary]
        rfl
      simp only [step, taken, if_pos]
      rw [← latched]
      exact fetched

theorem step_walking {label : Label D} (allowed : KeepsOn ch label state)
    (walking : Walking ch state) : Walking ch (step callbacks ch label state) := by
  cases label with
  | beginFrame =>
      apply walking.of_keeps state.host
      · exact ⟨rfl, rfl, fun _ => rfl, 0, rfl, by simp [beginFrame]⟩
      · exact .refl _
  | elapse other samplesPerOutFrame =>
      apply walking.of_keeps state.host
      · exact updateChannel_keeps _ other ⟨rfl, rfl, rfl, rfl, rfl⟩
      · exact updateChannel_sameCursor _ other ⟨rfl, rfl, rfl, rfl, rfl, rfl, rfl⟩
  | advance other =>
      by_cases own : other = ch
      · subst own
        exact own_walking callbacks walking
      · simp only [step, if_neg own]
        apply (walking.lowered other).of_keeps
        · exact advance_keeps callbacks.recording _ other _
        · rw [takeSample, advance_other _ _ own]
          exact .refl _
  | mix other =>
      exact walking.of_keeps state.host (mixed_keeps _ other) (mixed_sameCursor _ other)
  | write addr value =>
      obtain ⟨read, onInterrupt⟩ := write_attached state.core addr value
      apply walking.of_core state.host read onInterrupt allowed
      · exact write_programmed walking.programmed addr value
      · exact write_sameCursor walking.running addr value allowed
  | setLoop other loc lenWords =>
      have attached : ∀ p : Paula F D, (p.setLoop other loc lenWords).read = p.read ∧
          (p.setLoop other loc lenWords).onInterrupt = p.onInterrupt := fun _ => ⟨rfl, rfl⟩
      obtain ⟨read, onInterrupt⟩ := attached state.core
      apply walking.of_core state.host read onInterrupt walking.enabled
      · by_cases own : ch = other
        · subst own
          simp only [setLoop, updateChannel_self]
          exact Bank.lengthWords_ne_zero lenWords
        · simp only [setLoop, updateChannel_of_ne _ own]
          exact walking.programmed
      · exact updateChannel_sameCursor _ other ⟨rfl, rfl, rfl, rfl, rfl, rfl, rfl⟩

theorem runs_walking {labels : List (Label D)} {before after : State F D σ}
    (run : (machine callbacks ch).Runs (KeepsOn ch) before labels after)
    (walking : Walking ch before) : Walking ch after := by
  apply run.invariant (motive := Walking ch)
  · intro label state next allowed stepped walking
    cases stepped
    exact step_walking callbacks allowed walking
  · exact walking

end Steps

/-- The write turns the channel on, with a programmed length and a source of samples. -/
structure TurnsOn [Floating D] (p : Paula F D) (ch : Fin 4) (addr : UInt32) (value : UInt16) :
    Prop where
  attached : p.read = true
  matched : p.RestartsMatch
  off : dmaOn p.dmaCon ch = false
  on : dmaOn (p.writeRegister16 addr value).dmaCon ch = true
  programmed : (p.channels ch).lenWordsLatched ≠ 0

theorem TurnsOn.primed [Floating D] {p : Paula F D} {addr : UInt32} {value : UInt16}
    (turnsOn : TurnsOn p ch addr value) :
    (p.writeRegister16 addr value).channels ch = (p.channels ch).prime := by
  have on := turnsOn.on
  have wants : (p.channels ch).dmaWantsRestart = true := by
    rw [turnsOn.matched, turnsOn.off]
    rfl
  have unchanged : ∀ q : Paula F D, q.dmaCon = p.dmaCon → dmaOn q.dmaCon ch = true → False := by
    intro q same enabled
    rw [same, turnsOn.off] at enabled
    cases enabled
  rw [writeRegister16_eq] at on ⊢
  cases found : decode (addr &&& 0xfff).toNat with
  | none =>
      rw [found] at on
      exact absurd on (unchanged p rfl)
  | some reg =>
      rw [found] at on
      cases reg with
      | dmacon =>
          change dmaOn (setClear p.dmaCon value) ch = true at on
          change retrigger (setClear p.dmaCon value) ch (p.channels ch) = _
          rw [retrigger, if_pos on, if_pos wants]
      | channel written reg => cases reg <;> exact absurd on (unchanged _ rfl)
      | _ => exact absurd on (unchanged _ rfl)

theorem TurnsOn.walking [Floating D] {p : Paula F D} {addr : UInt32} {value : UInt16}
    (turnsOn : TurnsOn p ch addr value) (host : σ) :
    Walking ch (start ch (p.writeRegister16 addr value) host) := by
  have primed := turnsOn.primed
  obtain ⟨read, onInterrupt⟩ := write_attached p addr value
  refine ⟨read.trans turnsOn.attached, turnsOn.on, ?_, ?_, ?_, ?_, ?_, ?_, ?_, ?_⟩
  all_goals simp only [start, primed]
  · rfl
  · exact turnsOn.programmed
  · rfl
  · simp [State.reads, Paula.latched, primed, Channel.prime]
  · simp [State.reads, State.fetched]
  · simp [Block.total]
  · rfl
  · simp [State.interrupts]

/-- What a channel has played since it was turned on. -/
structure Played [Floating F] [Floating D] [Arith F D] (callbacks : Callbacks σ) (ch : Fin 4)
    (state : State F D σ) : Prop where
  /-- Block after block, each with all its bytes before the next begins. -/
  reads : state.reads.map Prod.fst =
    (state.blocks.flatMap Block.addresses).take (2 * state.fetched)
  begun : Block.total state.blocks.dropLast ≤ state.fetched
  within : state.fetched ≤ Block.total state.blocks
  /-- Zero, and then every byte once. -/
  out : ((0 : Int8) :: 0 :: state.samples)[state.advanced]? = some (state.core.channels ch).curOut
  interrupts : state.interrupts =
    if state.core.onInterrupt then List.replicate (state.blocks.length - 1) (intBit ch) else []
  request : (state.core.takeSample callbacks ch state.host).1.intReq =
    if state.blockEnds then state.core.intReq ||| intBit ch else state.core.intReq
  others : ∀ other ≠ ch, (state.core.takeSample callbacks other state.host).1.intReq &&& intBit ch =
    state.core.intReq &&& intBit ch

theorem Walking.played [Floating F] [Floating D] [Arith F D] (callbacks : Callbacks σ)
    (walking : Walking ch state) : Played callbacks ch state := by
  have words := walking.words
  refine ⟨?_, walking.begun.2, by omega, ?_, walking.interrupts, ?_, ?_⟩
  · have whole : (state.reads.map Prod.fst).length = 2 * state.fetched := by
      rw [List.length_map, walking.count]
    rw [← walking.cursor, ← whole, List.take_left']
    rfl
  · have samples := walking.samples
    rw [← List.head?_drop, samples]
    rfl
  · have ready := walking.lowered ch
    have enabled : dmaOn (state.core.lowered ch).dmaCon ch = true := walking.enabled
    have attached : (state.core.lowered ch).read = true := walking.read
    rw [takeSample]
    cases boundary : ((state.core.lowered ch).channels ch).onLowByte with
    | false =>
        have uneven : ¬ state.blockEnds := ready.not_blockEnds boundary
        rw [if_neg uneven]
        simp only [advanceOneSourceSample, attached, enabled, boundary]
        rfl
    | true =>
        have ends := ready.blockEnds_iff boundary
        simp only [advanceOneSourceSample, attached, enabled, boundary, reload]
        change State.blockEnds state ↔ _ at ends
        by_cases exhausted : ((state.core.lowered ch).channels ch).curWordsLeft = 0
        · rw [if_pos exhausted, if_pos (ends.mpr exhausted)]
          rfl
        · rw [if_neg exhausted, if_neg (mt ends.mp exhausted)]
          rfl
  · intro other different
    exact advance_other_intReq callbacks _ different state.host

end Paulastorm.Core.Blocks
