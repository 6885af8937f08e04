import Paulastorm.Library.Transition
import Paulastorm.Sys.ReadWidth

namespace Paulastorm.Sys

/-! The autoconfig chain of the expansion boards.

The handlers keep an array of boards and an index into it.  The chain keeps the boards
that have had their turn and the boards that wait for theirs.
-/

open Library Bus

section Chain

/-- The boards that have had their turn, and those that wait. -/
structure Chain where
  passed : List Board
  waiting : List Board

/-- The register that takes the base address of a board. -/
def Board.register (board : Board) : UInt64 := if board.isZ3 then 0xe80044 else 0xe80048

/-- The base address that a value written there gives. -/
def Board.base (board : Board) (value : UInt64) : UInt32 :=
  (if board.isZ3 then value &&& 0xffff else value &&& 0xff).toUInt32 <<< 16

/-- A board that answers at the base address. -/
def Board.placed (board : Board) (value : UInt64) : Board :=
  { board with mapBase := board.base value }

/-- The two registers that shut a board up. -/
def shutUp (far : UInt64) : Prop := far = 0xe8004c ∨ far = 0xe8004e

instance (far : UInt64) : Decidable (shutUp far) := inferInstanceAs (Decidable (_ ∨ _))

/-- The registers that a waiting board hears. -/
def heard (far : UInt64) : Prop := far = 0xe80044 ∨ far = 0xe80048 ∨ shutUp far

instance (far : UInt64) : Decidable (heard far) := inferInstanceAs (Decidable (_ ∨ _))

/-- The waiting board hears a write. -/
def Chain.hear (value far : UInt64) (chain : Chain) : Chain :=
  match chain.waiting with
  | [] => chain
  | board :: rest =>
      if far = board.register then ⟨chain.passed ++ [board.placed value], rest⟩
      else if shutUp far then ⟨chain.passed ++ [board], rest⟩
      else chain

/-- Disabled boards miss their turn. -/
def Chain.skip (chain : Chain) : Chain where
  passed := chain.passed ++ chain.waiting.takeWhile (!·.enabled)
  waiting := chain.waiting.dropWhile (!·.enabled)

/-- Every board waits again. -/
def Chain.restart (chain : Chain) : Chain := ⟨[], chain.passed ++ chain.waiting⟩

end Chain

/-- What reaches the boards: the accesses of the guest and `ps_pulse_reset`. -/
inductive BoardStep where
  | write (value value2 : UInt64) (size : Nat) (far : UInt64)
  | read (size : Nat) (far : UInt64)
  | reset

/-- The chain under one of them. -/
def Chain.follow (options : Options) (step : BoardStep) (chain : Chain) : Chain :=
  match step with
  | .write value _ _ far =>
      if options.zorroDisable then chain else chain.hear value (unwrap far)
  | .read size far => if zorroRead options size (unwrap far) then chain.skip else chain
  | .reset => chain.restart

def Chain.after (options : Options) (steps : List BoardStep) (chain : Chain) : Chain :=
  steps.foldl (fun chain step => chain.follow options step) chain

/-- What `ps_pulse_reset` does to the variables of the handlers. -/
def psPulseReset (state : State) : State := { state with overlay := 1, boardIdx := 0 }

section System

variable {BusState : Type u}

/-- The handlers and the bus behind them. -/
structure Host (BusState : Type u) where
  sys : State
  bus : BusState

def Host.step (wires : Wires BusState) (options : Options) (step : BoardStep)
    (host : Host BusState) : Option (Host BusState) :=
  match step with
  | .write value value2 size far =>
      let (_, sys, bus) :=
        sysWriteValToAddr wires options value value2 size far host.sys host.bus
      some ⟨sys, bus⟩
  | .read size far =>
      let (_, _, _, sys, bus) := sysReadValFromAddr wires options 0 0 size far host.sys host.bus
      some ⟨sys, bus⟩
  | .reset => some { host with sys := psPulseReset host.sys }

def host (wires : Wires BusState) (options : Options) : Machine (Host BusState) BoardStep :=
  ⟨Host.step wires options⟩

end System

/-- The array and the index of the handlers spell the chain. -/
structure Holds (state : State) (chain : Chain) : Prop where
  board : state.board = chain.passed ++ chain.waiting
  boardIdx : state.boardIdx = chain.passed.length

/-- An address at which boards wait for their configuration. -/
def InZorro (far : UInt64) : Prop := 0xe80000 ≤ far ∧ far ≤ 0xe8ffff

instance (far : UInt64) : Decidable (InZorro far) := inferInstanceAs (Decidable (_ ∧ _))

section Holding

variable {state next : State} {chain : Chain} {value value2 far : UInt64} {size : Nat}
  {options : Options}

theorem Holds.of_eq (holds : Holds state chain) (boards : next.board = state.board)
    (index : next.boardIdx = state.boardIdx) : Holds next chain :=
  ⟨boards.trans holds.board, index.trans holds.boardIdx⟩

theorem Holds.waiting (holds : Holds state chain) :
    state.board[state.boardIdx]? = chain.waiting.head? := by
  rw [holds.board, holds.boardIdx, List.getElem?_append_right le_rfl, Nat.sub_self,
    List.head?_eq_getElem?]

theorem Holds.drop (holds : Holds state chain) :
    state.board.drop state.boardIdx = chain.waiting := by
  rw [holds.board, holds.boardIdx, List.drop_left]

theorem InZorro.bounds (within : InZorro far) :
    0xe80000 ≤ far.toNat ∧ far.toNat ≤ 0xe8ffff :=
  ⟨UInt64.le_iff_toNat_le.mp within.1, UInt64.le_iff_toNat_le.mp within.2⟩

theorem InZorro.ne (within : InZorro far) (address : UInt64)
    (outside : address.toNat < 0xe80000 ∨ 0xe8ffff < address.toNat) : far ≠ address := by
  rintro rfl
  have bounds := within.bounds
  omega

theorem InZorro.lt (within : InZorro far) {address : UInt64} (above : 0xe8ffff < address.toNat) :
    far < address :=
  UInt64.lt_iff_toNat_lt.mpr (lt_of_le_of_lt within.bounds.2 above)

theorem InZorro.not_le (within : InZorro far) {address : UInt64}
    (below : address.toNat < 0xe80000) : ¬ far ≤ address :=
  fun least => absurd (within.bounds.1.trans (UInt64.le_iff_toNat_le.mp least)) (Nat.not_le.mpr below)

theorem InZorro.top (within : InZorro far) : far >>> 32 = 0 := by
  apply UInt64.toNat_inj.mp
  rw [upper_toNat]
  exact Nat.div_eq_of_lt (lt_of_le_of_lt within.bounds.2 (by decide))

theorem InZorro.scsi (within : InZorro far) : scsiArea options far = false := by
  simp [scsiArea, @InZorro.not_le _ within 0x00da7fff (by decide)]

theorem InZorro.slow (within : InZorro far) : slowArea far = false := by
  simp [slowArea, @InZorro.not_le _ within 0xc7ffff (by decide)]

theorem InZorro.trapdoor (within : InZorro far) : trapdoorArea far = false := by
  simp [trapdoorArea, @InZorro.not_le _ within 0x0FFFFF (by decide)]

theorem zorroRead_iff : zorroRead options size far = true ↔
    options.zorroDisable = false ∧ InZorro far ∧ size = 1 := by
  simp [zorroRead, InZorro, and_assoc]

theorem register_heard (board : Board) : heard board.register := by
  unfold Board.register
  split <;> decide

theorem Chain.hear_quiet (chain : Chain) (value : UInt64) (silent : ¬ heard far) :
    chain.hear value far = chain := by
  unfold Chain.hear
  split
  next => rfl
  next board rest _ =>
    have register : far ≠ board.register := fun same => silent (same ▸ register_heard board)
    have shut : ¬ shutUp far := fun shut => silent (.inr (.inr shut))
    rw [if_neg register, if_neg shut]

theorem heard_within (hears : heard far) : InZorro far := by
  rcases hears with rfl | rfl | rfl | rfl <;> decide

/-- The code tests the registers one after the other, which no address passes twice. -/
theorem autoconfig_holds {board : Board} {rest : List Board} (holds : Holds state chain)
    (waits : chain.waiting = board :: rest) :
    Holds (autoconfig state board value far) (chain.hear value far) := by
  have passed : state.board = (chain.passed ++ [board]) ++ rest := by
    rw [holds.board, waits, List.append_assoc, List.singleton_append]
  have replaced : ∀ after, state.board.set state.boardIdx after =
      (chain.passed ++ [after]) ++ rest := by
    intro after
    rw [holds.board, waits, holds.boardIdx, List.set_append_right _ _ le_rfl, Nat.sub_self,
      List.set_cons_zero, List.append_assoc, List.singleton_append]
  have counted : ∀ after, state.boardIdx + 1 = (chain.passed ++ [after]).length := by
    intro after
    rw [holds.boardIdx, List.length_append, List.length_singleton]
  simp only [Chain.hear, waits]
  by_cases register : far = board.register
  · have silent : ¬ (far = 0xe8004c ∨ far = 0xe8004e) := by
      rw [register, Board.register]
      split <;> decide
    rw [if_pos register]
    simp only [autoconfig, if_neg silent]
    cases kind : board.isZ3 with
    | true =>
        have hit : far = 0xe80044 := by rw [register, Board.register, if_pos kind]
        rw [if_pos rfl, if_pos hit]
        refine ⟨(replaced _).trans ?_, counted _⟩
        simp only [Board.placed, Board.base, kind, if_true]
    | false =>
        have hit : far = 0xe80048 := by
          rw [register, Board.register, kind, if_neg Bool.false_ne_true]
        rw [if_neg Bool.false_ne_true, if_pos hit]
        refine ⟨(replaced _).trans ?_, counted _⟩
        simp only [Board.placed, Board.base, kind, if_false, Bool.false_eq_true]
  · have unmapped : autoconfig state board value far =
        if shutUp far then { state with boardIdx := state.boardIdx + 1 } else state := by
      unfold Board.register at register
      unfold autoconfig shutUp
      cases kind : board.isZ3 with
      | true =>
          rw [kind, if_pos rfl] at register
          simp only [if_true, if_neg register]
          rfl
      | false =>
          rw [kind, if_neg Bool.false_ne_true] at register
          simp only [Bool.false_eq_true, if_false, if_neg register]
          rfl
    rw [if_neg register, unmapped]
    split
    · exact ⟨passed, counted _⟩
    · exact holds

theorem firstEnabled_eq (boards : List Board) (index : Nat) :
    firstEnabled boards index = index + (boards.takeWhile (!·.enabled)).length := by
  induction boards generalizing index with
  | nil => rfl
  | cons board rest ih =>
      unfold firstEnabled
      cases enabled : board.enabled with
      | true => simp [enabled]
      | false => simp [enabled, ih, Nat.add_comm 1, Nat.add_assoc]

theorem Holds.skip (holds : Holds state chain) :
    Holds { state with boardIdx := firstEnabled (state.board.drop state.boardIdx) state.boardIdx }
      chain.skip where
  board := by
    rw [Chain.skip, List.append_assoc, List.takeWhile_append_dropWhile]
    exact holds.board
  boardIdx := by
    calc firstEnabled (state.board.drop state.boardIdx) state.boardIdx
        = chain.passed.length + (chain.waiting.takeWhile (!·.enabled)).length := by
          rw [holds.drop, firstEnabled_eq, holds.boardIdx]
      _ = chain.skip.passed.length := List.length_append.symm

theorem Holds.restart (holds : Holds state chain) : Holds (psPulseReset state) chain.restart :=
  ⟨holds.board, rfl⟩

end Holding

section Accesses

variable {BusState : Type u} {wires : Wires BusState} {bus : BusState} {state : State}
  {chain : Chain} {value value2 far : UInt64} {size : Nat} {options : Options}

theorem writeMapped_boards (outside : ¬ InZorro far) :
    (writeMapped wires options value value2 size far state bus).1.board = state.board ∧
      (writeMapped wires options value value2 size far state bus).1.boardIdx = state.boardIdx := by
  have overlaid : (overlayWrite value size far state).board = state.board ∧
      (overlayWrite value size far state).boardIdx = state.boardIdx := by
    unfold overlayWrite
    split <;> exact ⟨rfl, rfl⟩
  have driven : ∀ before, (driveWrite options value far before).2.board = before.board ∧
      (driveWrite options value far before).2.boardIdx = before.boardIdx := by
    intro before
    simp only [driveWrite]
    split <;> exact ⟨rfl, rfl⟩
  have bare : ∀ before, waitingBoard options far before = none :=
    fun before => if_neg fun within => outside within.2
  have sent := driven (overlayWrite value size far state)
  rw [overlaid.1, overlaid.2] at sent
  simp only [writeMapped, bare]
  split_ifs
  · exact ⟨rfl, rfl⟩
  · exact ⟨rfl, rfl⟩
  · cases busAddress options far with
    | none => exact sent
    | some bus => exact sent

/-- A write elsewhere leaves the array and the index. -/
theorem write_boards (outside : ¬ InZorro (unwrap far)) :
    let after := (sysWriteValToAddr wires options value value2 size far state bus).2.1
    after.board = state.board ∧ after.boardIdx = state.boardIdx := by
  have enabling : ∀ before, (shadowIntena before value).board = before.board ∧
      (shadowIntena before value).boardIdx = before.boardIdx := fun _ => ⟨rfl, rfl⟩
  have requesting : ∀ before, (shadowIntreq before value).board = before.board ∧
      (shadowIntreq before value).boardIdx = before.boardIdx := by
    intro before
    simp only [shadowIntreq]
    split <;> exact ⟨rfl, rfl⟩
  have shadowed : ∀ (before : State) metrics, before.board = state.board ∧ before.boardIdx = state.boardIdx →
      let after := (writeMapped wires options value value2 size (unwrap far)
        { before with metrics := metrics } bus).1
      after.board = state.board ∧ after.boardIdx = state.boardIdx := by
    intro before metrics kept
    obtain ⟨board, boardIdx⟩ := @writeMapped_boards _ wires bus { before with metrics := metrics }
      value value2 (unwrap far) size options outside
    exact ⟨board.trans kept.1, boardIdx.trans kept.2⟩
  simp only [sysWriteValToAddr, writeAround]
  generalize shown : (if unwrap far = intreq then shadowIntreq _ value else _) = before
  have kept : before.board = state.board ∧ before.boardIdx = state.boardIdx := by
    rw [← shown]
    split
    · rw [(requesting _).1, (requesting _).2]
      split <;> exact ⟨rfl, rfl⟩
    · split <;> exact ⟨rfl, rfl⟩
  split
  · exact ⟨rfl, rfl⟩
  split
  · exact ⟨rfl, rfl⟩
  split
  · exact kept
  · exact shadowed before _ kept

/-- A write to the area of the boards passes every other test of the handler. -/
theorem write_zorro (within : InZorro (unwrap far)) :
    sysWriteValToAddr wires options value value2 size far state bus =
      (true, match waitingBoard options (unwrap far) state with
        | some board => (autoconfig state board value (unwrap far), bus)
        | none => (state, writeSized wires value value2 size (unwrap far) bus)) := by
  have window : unwrap far < Probe.probeBase := within.lt (by decide)
  have unmapped : ¬ 0x1000000 ≤ unwrap far := UInt64.not_le.mpr (within.lt (by decide))
  have reached : busAddress options (unwrap far) = some (unwrap far) := by
    simp [busAddress, within.trapdoor, within.slow]
  have overlaid : ∀ before, overlayWrite value size (unwrap far) before = before :=
    fun before => if_neg fun hit => within.ne ciaapra (by decide) hit.1
  have driven : ∀ before, driveWrite options value (unwrap far) before = (value, before) :=
    fun before => if_neg fun hit => within.ne ciabprb (by decide) hit.1
  have serial : ¬(unwrap far = 0xdeadbeef ∧ size = 1) := fun hit => within.ne _ (by decide) hit.1
  cases waiting : waitingBoard options (unwrap far) state <;>
    simp only [sysWriteValToAddr, writeAround, within.top, within.scsi, Probe.busWrite,
      if_pos (Or.inl window), writeMapped, if_neg serial, if_neg unmapped, overlaid, driven, reached,
      if_neg (within.ne intena (by decide)), if_neg (within.ne intreq (by decide)), waiting, ne_eq,
      not_true_eq_false, if_false, Bool.false_eq_true]

/-- What a write does to the chain. -/
theorem write_holds (holds : Holds state chain) :
    Holds (sysWriteValToAddr wires options value value2 size far state bus).2.1
      (chain.follow options (.write value value2 size far)) := by
  by_cases within : InZorro (unwrap far)
  · rw [write_zorro within]
    simp only [waitingBoard, Chain.follow]
    cases options.zorroDisable with
    | true => exact holds
    | false =>
        rw [if_pos ⟨Bool.false_ne_true, within⟩, if_neg Bool.false_ne_true, holds.waiting]
        cases waits : chain.waiting with
        | nil =>
            simp only [Chain.hear, waits]
            exact holds
        | cons board rest => exact autoconfig_holds holds waits
  · have kept : chain.follow options (.write value value2 size far) = chain := by
      simp only [Chain.follow]
      split
      · rfl
      · exact chain.hear_quiet value fun hears => within (heard_within hears)
    obtain ⟨board, boardIdx⟩ := @write_boards _ wires bus state value value2 far size options within
    rw [kept]
    exact holds.of_eq board boardIdx

/-- The probe does not answer in the area of the boards. -/
theorem busRead_outside {metrics : Probe.Metrics} {word : UInt64}
    (seen : Probe.busRead metrics size far = some word) : ¬ InZorro (unwrap far) := by
  have window : ¬(far < Probe.probeBase ∨ far ≥ Probe.probeBase + 512) := by
    intro outside
    rw [Probe.busRead, if_pos outside] at seen
    cases seen
  have base : Probe.probeBase.toNat = 0xdeadb000 := rfl
  have limit : (Probe.probeBase + 512).toNat = 0xdeadb200 := rfl
  rw [UInt64.lt_iff_toNat_lt, ge_iff_le, UInt64.le_iff_toNat_le, base, limit] at window
  have low : far >>> 32 = 0 := by
    apply UInt64.toNat_inj.mp
    rw [upper_toNat]
    exact Nat.div_eq_of_lt (by omega)
  have same : unwrap far = far := by
    apply if_neg
    rw [low]
    decide
  intro within
  have bounds := within.bounds
  rw [same] at bounds
  omega

/-- A read elsewhere, or of more than a byte, leaves the array and the index. -/
theorem read_boards (outside : zorroRead options size (unwrap far) = false) :
    let after := (sysReadValFromAddr wires options value value2 size far state bus).2.2.2.1
    after.board = state.board ∧ after.boardIdx = state.boardIdx := by
  have kept : skipDisabled options size (unwrap far) state = state := by
    rw [skipDisabled, outside, if_neg Bool.false_ne_true]
  have bare : romBoard options size (unwrap far) state = none := by
    rw [romBoard, outside, if_neg Bool.false_ne_true]
  simp only [sysReadValFromAddr, readAround, readMapped, kept, bare]
  split
  · exact ⟨rfl, rfl⟩
  · split_ifs <;> exact ⟨rfl, rfl⟩

/-- A byte read in the area of the boards: the ROM of the first enabled board that
waits, or what the bus shows. -/
theorem read_zorro (zorro : zorroRead options size (unwrap far) = true) :
    let skipped := { state with
      boardIdx := firstEnabled (state.board.drop state.boardIdx) state.boardIdx }
    let seen := readSized wires value value2 size (unwrap far) bus
    let corrected := readCorrected options size (unwrap far) seen.1 skipped
    sysReadValFromAddr wires options value value2 size far state bus =
      (true, match state.board[skipped.boardIdx]? with
        | some board =>
            ((board.romFile (unwrap far - 0xe80000).toNat).toUInt64, value2, skipped, bus)
        | none => (corrected.1, seen.2.1, corrected.2, seen.2.2)) := by
  obtain ⟨-, within, -⟩ := zorroRead_iff.mp zorro
  have unmapped : ¬ 0x1000000 ≤ unwrap far := UInt64.not_le.mpr (within.lt (by decide))
  have bare : ¬ unwrap far < 0x80000 := fun below =>
    @InZorro.not_le _ within 0x80000 (by decide) (UInt64.le_of_lt below)
  have probe : Probe.busRead state.metrics size far = none := by
    cases seen : Probe.busRead state.metrics size far with
    | none => rfl
    | some word => exact absurd within (busRead_outside seen)
  cases waiting : state.board[firstEnabled (state.board.drop state.boardIdx) state.boardIdx]? <;>
    simp only [sysReadValFromAddr, readAround, probe, within.top, within.scsi, readMapped, within.slow,
      skipDisabled, romBoard, zorro, trapdoorAddress, within.trapdoor, if_neg unmapped, bare, waiting,
      and_false, Bool.and_false, Bool.false_and, ne_eq, not_true_eq_false, if_false, if_true,
      Bool.false_eq_true]

/-- What a read does to the chain. -/
theorem read_holds (holds : Holds state chain) :
    Holds (sysReadValFromAddr wires options value value2 size far state bus).2.2.2.1
      (chain.follow options (.read size far)) := by
  simp only [Chain.follow]
  cases zorro : zorroRead options size (unwrap far) with
  | true =>
      have skipped := holds.skip
      rw [read_zorro zorro, if_pos rfl]
      cases state.board[firstEnabled (state.board.drop state.boardIdx) state.boardIdx]? with
      | some board => exact skipped
      | none => exact skipped.of_eq rfl rfl
  | false =>
      obtain ⟨board, boardIdx⟩ := @read_boards _ wires bus state value value2 far size options zorro
      rw [if_neg Bool.false_ne_true]
      exact holds.of_eq board boardIdx

end Accesses

section Runs

variable {BusState : Type u} {wires : Wires BusState} {options : Options}
  {before after : Host BusState} {chain : Chain} {steps : List BoardStep}

theorem step_holds {step : BoardStep} (holds : Holds before.sys chain)
    (taken : (host wires options).step step before = some after) :
    Holds after.sys (chain.follow options step) := by
  cases step with
  | write value value2 size far =>
      obtain rfl := Option.some.inj taken
      exact write_holds holds
  | read size far =>
      obtain rfl := Option.some.inj taken
      exact read_holds holds
  | reset =>
      obtain rfl := Option.some.inj taken
      exact holds.restart

theorem run_holds (holds : Holds before.sys chain)
    (run : (host wires options).Runs Machine.anyStep before steps after) :
    Holds after.sys (chain.after options steps) :=
  @Machine.Runs.refines _ _ _ _ _ _ _ _ _ (fun host chain => Holds host.sys chain) _
    (fun _ _ _ _ _ taken holds => step_holds holds taken) run holds

/-- After any accesses and resets the array and the index spell the chain that followed
them.  A byte read in the area of the boards then shows the ROM of the first enabled board
that waits, and no write to the area passes a waiting board. -/
theorem autoconfig_follows_chain (holds : Holds before.sys chain)
    (run : (host wires options).Runs Machine.anyStep before steps after) :
    let now := chain.after options steps
    Holds after.sys now ∧
      (∀ (far value value2 : UInt64) (board : Board),
        zorroRead options 1 (unwrap far) = true → now.skip.waiting.head? = some board →
        ∃ sys, Holds sys now.skip ∧
          sysReadValFromAddr wires options value value2 1 far after.sys after.bus =
            (true, (board.romFile (unwrap far - 0xe80000).toNat).toUInt64, value2, sys,
              after.bus)) ∧
      ∀ (far value value2 : UInt64) (size : Nat),
        options.zorroDisable = false → InZorro (unwrap far) → now.waiting ≠ [] →
        (sysWriteValToAddr wires options value value2 size far after.sys after.bus).2.2 =
          after.bus := by
  have held := run_holds holds run
  refine ⟨held, ?_, ?_⟩
  · intro far value value2 board zorro first
    have skipped := held.skip
    have shown := skipped.waiting
    rw [first] at shown
    refine ⟨_, skipped, ?_⟩
    rw [read_zorro zorro]
    change after.sys.board[_]? = some board at shown
    simp only [shown]
  · intro far value value2 size enabled within waits
    obtain ⟨board, rest, waiting⟩ := List.exists_cons_of_ne_nil waits
    have heard : waitingBoard options (unwrap far) after.sys = some board := by
      rw [waitingBoard, if_pos ⟨Bool.eq_false_iff.mp enabled, within⟩, held.waiting, waiting]
      rfl
    rw [write_zorro within, heard]

end Runs

section Turns

variable {options : Options} {chain : Chain} {steps more : List BoardStep} {board done : Board}

/-- How a board that has had its turn came by it. -/
inductive Settled (steps : List BoardStep) (board : Board) : Board → Prop
  | placed (value value2 : UInt64) (size : Nat) (far : UInt64) :
      .write value value2 size far ∈ steps → unwrap far = board.register →
      Settled steps board (board.placed value)
  | shut (value value2 : UInt64) (size : Nat) (far : UInt64) :
      .write value value2 size far ∈ steps → shutUp (unwrap far) → Settled steps board board
  | disabled : board.enabled = false → Settled steps board board

theorem Settled.mono (settled : Settled steps board done) (within : steps ⊆ more) :
    Settled more board done := by
  cases settled with
  | placed value value2 size far written register =>
      exact .placed value value2 size far (within written) register
  | shut value value2 size far written silent =>
      exact .shut value value2 size far (within written) silent
  | disabled missed => exact .disabled missed

/-- The boards that get their turn under `steps` are the first that wait. -/
def Turned (steps : List BoardStep) (before after : Chain) : Prop :=
  ∃ had done, before.waiting = had ++ after.waiting ∧ after.passed = before.passed ++ done ∧
    List.Forall₂ (Settled steps) had done

theorem Turned.refl (steps : List BoardStep) (chain : Chain) : Turned steps chain chain :=
  ⟨[], [], rfl, (List.append_nil _).symm, .nil⟩

theorem Turned.trans {first second third : Chain} (left : Turned steps first second)
    (right : Turned more second third) : Turned (steps ++ more) first third := by
  obtain ⟨had, done, waiting, passed, settled⟩ := left
  obtain ⟨had', done', waiting', passed', settled'⟩ := right
  refine ⟨had ++ had', done ++ done', ?_, ?_, ?_⟩
  · rw [waiting, waiting', List.append_assoc]
  · rw [passed', passed, List.append_assoc]
  · refine List.rel_append (settled.imp fun _ _ done => done.mono ?_)
      (settled'.imp fun _ _ done => done.mono ?_)
    · exact List.subset_append_left _ _
    · exact List.subset_append_right _ _

theorem hear_turned {value value2 far : UInt64} {size : Nat} :
    Turned [.write value value2 size far] chain (chain.hear value (unwrap far)) := by
  unfold Chain.hear
  cases waits : chain.waiting with
  | nil => exact .refl _ _
  | cons board rest =>
      dsimp only
      split_ifs with register silent
      · exact ⟨[board], [board.placed value], waits, rfl,
          .cons (.placed value value2 size far List.mem_cons_self register) .nil⟩
      · exact ⟨[board], [board], waits, rfl,
          .cons (.shut value value2 size far List.mem_cons_self silent) .nil⟩
      · exact .refl _ _

theorem skip_turned : Turned steps chain chain.skip := by
  refine ⟨chain.waiting.takeWhile (!·.enabled), chain.waiting.takeWhile (!·.enabled),
    List.takeWhile_append_dropWhile.symm, rfl, ?_⟩
  refine List.forall₂_same.mpr fun board member => .disabled ?_
  simpa using List.all_eq_true.mp List.all_takeWhile board member

theorem follow_turned {step : BoardStep} (ongoing : step ≠ .reset) :
    Turned [step] chain (chain.follow options step) := by
  cases step with
  | write value value2 size far =>
      simp only [Chain.follow]
      split
      · exact .refl _ _
      · exact hear_turned
  | read size far =>
      simp only [Chain.follow]
      split
      · exact skip_turned
      · exact .refl _ _
  | reset => exact absurd rfl ongoing

theorem after_turned (ongoing : ∀ step ∈ steps, step ≠ .reset) :
    Turned steps chain (chain.after options steps) := by
  induction steps generalizing chain with
  | nil => exact .refl _ _
  | cons step rest ih =>
      have first := @follow_turned options chain step (ongoing step List.mem_cons_self)
      exact first.trans (ih fun step member => ongoing step (List.mem_cons_of_mem _ member))

end Turns

section Configuration

variable {options : Options} {chain : Chain}

/-- A step that no board hears. -/
def BoardStep.quiet : BoardStep → Prop
  | .write _ _ _ far => ¬ heard (unwrap far)
  | .read _ _ => True
  | .reset => False

instance (step : BoardStep) : Decidable step.quiet :=
  match step with
  | .write _ _ _ far => inferInstanceAs (Decidable (¬ heard (unwrap far)))
  | .read _ _ => inferInstanceAs (Decidable True)
  | .reset => inferInstanceAs (Decidable False)

/-- A step that shows the ROM of a board. -/
def BoardStep.looks (options : Options) : BoardStep → Bool
  | .read size far => zorroRead options size (unwrap far)
  | _ => false

/-- Some accesses, and the write that gives a board its base address. -/
structure Turn where
  lead : List BoardStep
  value : UInt64
  value2 : UInt64
  size : Nat
  far : UInt64

def Turn.steps (turn : Turn) : List BoardStep :=
  turn.lead ++ [.write turn.value turn.value2 turn.size turn.far]

/-- The guest looks at the ROM, and writes to no register of a board meanwhile. -/
def Looking (options : Options) (lead : List BoardStep) : Prop :=
  (∀ step ∈ lead, step.quiet) ∧ ∃ step ∈ lead, step.looks options = true

instance (options : Options) (lead : List BoardStep) : Decidable (Looking options lead) :=
  inferInstanceAs (Decidable (_ ∧ _))

/-- Base addresses given to the enabled boards in turn. -/
def assigned : List Board → List UInt64 → List Board
  | board :: rest, values =>
      if board.enabled then
        match values with
        | value :: values => board.placed value :: assigned rest values
        | [] => board :: assigned rest []
      else board :: assigned rest values
  | [], _ => []

theorem assigned_none (boards : List Board) : assigned boards [] = boards := by
  induction boards with
  | nil => rfl
  | cons board rest ih => simp [assigned, ih]

theorem assigned_length (boards : List Board) (values : List UInt64) :
    (assigned boards values).length = boards.length := by
  induction boards generalizing values with
  | nil => rfl
  | cons board rest ih =>
      unfold assigned
      split
      · split <;> simp [ih]
      · simp [ih]

/-- Disabled boards stay as they are. -/
theorem assigned_skip (boards : List Board) (values : List UInt64) :
    assigned boards values = boards.takeWhile (!·.enabled) ++
      assigned (boards.dropWhile (!·.enabled)) values := by
  induction boards with
  | nil => rfl
  | cons board rest ih =>
      cases enabled : board.enabled with
      | true => simp [enabled]
      | false => simp [enabled, assigned, ih]

theorem filter_skip (boards : List Board) :
    boards.filter (·.enabled) = (boards.dropWhile (!·.enabled)).filter (·.enabled) := by
  induction boards with
  | nil => rfl
  | cons board rest ih =>
      cases enabled : board.enabled with
      | true => simp [enabled]
      | false => simp [enabled, ih]

/-- Behind the skipped boards an enabled one waits, or none. -/
theorem Chain.skip_waiting (chain : Chain) : chain.skip.waiting = [] ∨
    ∃ board rest, chain.skip.waiting = board :: rest ∧ board.enabled = true := by
  simp only [Chain.skip]
  induction chain.waiting with
  | nil => exact .inl rfl
  | cons board rest ih =>
      cases enabled : board.enabled with
      | true => exact .inr ⟨board, rest, by simp [enabled], enabled⟩
      | false => simpa [enabled] using ih

theorem Chain.skip_skip (chain : Chain) : chain.skip.skip = chain.skip := by
  have first := chain.skip_waiting
  generalize chain.skip = skipped at first
  obtain ⟨passed, waiting⟩ := skipped
  obtain rfl | ⟨board, rest, rfl, enabled⟩ := first
  · simp [Chain.skip]
  · simp [Chain.skip, enabled]

theorem follow_quiet {step : BoardStep} (quiet : step.quiet) :
    chain.follow options step = if step.looks options then chain.skip else chain := by
  cases step with
  | write value value2 size far =>
      simp only [Chain.follow, chain.hear_quiet value quiet, BoardStep.looks]
      simp
  | read size far => rfl
  | reset => exact quiet.elim

/-- Looking at the boards skips the disabled ones, however often the guest looks. -/
theorem after_quiet {lead : List BoardStep} (quiet : ∀ step ∈ lead, step.quiet) :
    chain.after options lead = if lead.any (·.looks options) then chain.skip else chain := by
  induction lead generalizing chain with
  | nil => rfl
  | cons step rest ih =>
      have first := @follow_quiet options chain step (quiet step List.mem_cons_self)
      have others := @ih (chain.follow options step)
        fun step member => quiet step (List.mem_cons_of_mem _ member)
      change Chain.after options rest (chain.follow options step) = _
      rw [others, first, List.any_cons]
      cases step.looks options with
      | false => rfl
      | true => simp [Chain.skip_skip]

theorem Looking.after {lead : List BoardStep} (looking : Looking options lead) :
    chain.after options lead = chain.skip := by
  rw [after_quiet looking.1, if_pos (List.any_eq_true.mpr looking.2)]

theorem Chain.after_append (first second : List BoardStep) :
    chain.after options (first ++ second) = (chain.after options first).after options second :=
  List.foldl_append

/-- The chain under the guest's whole configuration. -/
theorem configuration_after {turns : List Turn} {tail : List BoardStep}
    (enabled : options.zorroDisable = false)
    (looking : ∀ turn ∈ turns, Looking options turn.lead) (finished : Looking options tail)
    (answered : turns.map (fun turn => unwrap turn.far) =
      (chain.waiting.filter (·.enabled)).map Board.register) :
    chain.after options (turns.flatMap Turn.steps ++ tail) =
      ⟨chain.passed ++ assigned chain.waiting (turns.map (·.value)), []⟩ := by
  induction turns generalizing chain with
  | nil =>
      have none : chain.skip.waiting = [] := by
        obtain none | ⟨board, rest, waits, enabled⟩ := chain.skip_waiting
        · exact none
        · rw [filter_skip] at answered
          change [] = (chain.skip.waiting.filter _).map _ at answered
          simp [waits, enabled] at answered
      have all : chain.waiting.takeWhile (!·.enabled) = chain.waiting := by
        have parts := @List.takeWhile_append_dropWhile _ (!·.enabled) chain.waiting
        change _ ++ chain.skip.waiting = _ at parts
        rwa [none, List.append_nil] at parts
      rw [List.flatMap_nil, List.nil_append, finished.after, List.map_nil, assigned_none]
      exact congr (congrArg Chain.mk (congrArg (chain.passed ++ ·) all)) none
  | cons turn turns ih =>
      rw [filter_skip] at answered
      change _ = (chain.skip.waiting.filter _).map _ at answered
      obtain none | ⟨board, rest, waits, first⟩ := chain.skip_waiting
      · simp [none] at answered
      rw [waits, List.filter_cons_of_pos first, List.map_cons, List.map_cons,
        List.cons.injEq] at answered
      have leads := looking turn List.mem_cons_self
      have hears : chain.after options turn.steps =
          ⟨chain.skip.passed ++ [board.placed turn.value], rest⟩ := by
        rw [Turn.steps, Chain.after_append, leads.after]
        simp only [Chain.after, List.foldl_cons, List.foldl_nil, Chain.follow, enabled,
          Bool.false_eq_true, if_false, Chain.hear, waits, answered.1, if_true]
      have others := @ih ⟨chain.skip.passed ++ [board.placed turn.value], rest⟩
        (fun turn member => looking turn (List.mem_cons_of_mem _ member)) answered.2
      have placed : assigned chain.waiting ((turn :: turns).map (·.value)) =
          chain.waiting.takeWhile (!·.enabled) ++
            board.placed turn.value :: assigned rest (turns.map (·.value)) := by
        rw [assigned_skip]
        change _ ++ assigned chain.skip.waiting _ = _
        rw [waits, List.map_cons, assigned, if_pos first]
      rw [List.flatMap_cons, List.append_assoc, Chain.after_append, hears, others, placed]
      simp only [Chain.skip, List.append_assoc, List.singleton_append]

end Configuration

section Boards

variable {BusState : Type u} {wires : Wires BusState} {options : Options}
  {before after : Host BusState}

/-- The chain that the array and the index spell. -/
def State.chain (state : State) : Chain :=
  ⟨state.board.take state.boardIdx, state.board.drop state.boardIdx⟩

theorem State.holds {state : State} (within : state.boardIdx ≤ state.board.length) :
    Holds state state.chain :=
  ⟨(List.take_append_drop _ _).symm, (List.length_take_of_le within).symm⟩

/-- Between two resets the index only grows.  A board behind it never changes again, a
board before it has not changed yet, and each board that it passed was disabled, was shut
up, or answers at the base that the guest wrote to the register of its kind. -/
theorem boards_settled_once {steps : List BoardStep}
    (within : before.sys.boardIdx ≤ before.sys.board.length)
    (ongoing : ∀ step ∈ steps, step ≠ .reset)
    (run : (host wires options).Runs Machine.anyStep before steps after) :
    before.sys.boardIdx ≤ after.sys.boardIdx ∧
      after.sys.board.length = before.sys.board.length ∧
      after.sys.board.take before.sys.boardIdx = before.sys.board.take before.sys.boardIdx ∧
      after.sys.board.drop after.sys.boardIdx = before.sys.board.drop after.sys.boardIdx ∧
      List.Forall₂ (Settled steps)
        ((before.sys.board.take after.sys.boardIdx).drop before.sys.boardIdx)
        ((after.sys.board.take after.sys.boardIdx).drop before.sys.boardIdx) := by
  obtain ⟨board, boardIdx⟩ := run_holds (State.holds within) run
  obtain ⟨had, done, waiting, passed, settled⟩ :=
    @after_turned options before.sys.chain steps ongoing
  have started := State.holds within
  have same : had.length = done.length := settled.length_eq
  generalize before.sys.chain.after options steps = now at board boardIdx waiting passed
  generalize before.sys.chain = was at started waiting passed
  have first : before.sys.board = was.passed ++ had ++ now.waiting := by
    rw [started.board, waiting, List.append_assoc]
  rw [passed] at board boardIdx
  have ends : after.sys.boardIdx = (was.passed ++ had).length := by
    rw [boardIdx, List.length_append, List.length_append, same]
  have taken : before.sys.board.take after.sys.boardIdx = was.passed ++ had := by
    rw [first, ends, List.take_left]
  have left : after.sys.board.take after.sys.boardIdx = was.passed ++ done := by
    rw [board, boardIdx, List.take_left]
  refine ⟨?_, ?_, ?_, ?_, ?_⟩
  · rw [started.boardIdx, boardIdx, List.length_append]
    exact Nat.le_add_right _ _
  · rw [first, board]
    simp only [List.length_append, same]
  · rw [started.boardIdx, first, board, List.append_assoc, List.append_assoc, List.take_left,
      List.take_left]
  · calc after.sys.board.drop after.sys.boardIdx
        = now.waiting := by rw [board, boardIdx, List.drop_left]
      _ = before.sys.board.drop after.sys.boardIdx := by rw [first, ends, List.drop_left]
  · rw [taken, left, started.boardIdx, List.drop_left, List.drop_left]
    exact settled

/-- A guest that looks at the ROM of each enabled board and then writes a base address to
its register configures all of them, in their order, whatever else it does meanwhile. -/
theorem configuration_completes {turns : List Turn} {tail : List BoardStep}
    (enabled : options.zorroDisable = false) (start : before.sys.boardIdx = 0)
    (looking : ∀ turn ∈ turns, Looking options turn.lead) (finished : Looking options tail)
    (answered : turns.map (fun turn => unwrap turn.far) =
      (before.sys.board.filter (·.enabled)).map Board.register)
    (run : (host wires options).Runs Machine.anyStep before
      (turns.flatMap Turn.steps ++ tail) after) :
    after.sys.board = assigned before.sys.board (turns.map (·.value)) ∧
      after.sys.boardIdx = before.sys.board.length := by
  have waits : Holds before.sys ⟨[], before.sys.board⟩ := ⟨rfl, start⟩
  have held := run_holds waits run
  rw [configuration_after enabled looking finished answered] at held
  obtain ⟨board, boardIdx⟩ := held
  rw [List.nil_append, List.append_nil] at board
  rw [List.nil_append] at boardIdx
  exact ⟨board, boardIdx.trans (assigned_length _ _)⟩

end Boards

/-- A disabled board, a Zorro III board and a Zorro II board. -/
def threeBoards : List Board :=
  [⟨false, false, fun _ => 0, 0⟩, ⟨true, true, fun _ => 0x90, 0⟩, ⟨false, true, fun _ => 0xd0, 0⟩]

def switchedOnHost : Host Unit := ⟨(powerOn threeBoards Probe.init).sys, ()⟩

/-- The guest reads a byte of each board, between other accesses, and places it. -/
def twoTurns : List Turn :=
  [⟨[.write 0x7fff 0 2 intena, .read 1 0xe80000], 0x4000, 0, 2, 0xe80044⟩,
    ⟨[.read 1 0xe80000, .read 1 0xe80002], 0xe9, 0, 1, 0xe80048⟩]

/-- The index, and the bases of the boards. -/
def placedBases (host : Host Unit) : Nat × List UInt32 :=
  (host.sys.boardIdx, host.sys.board.map (·.mapBase))

/-- The second board is shut up, and the machine is reset. -/
def shutAndReset : List BoardStep :=
  [.read 1 0xe80000, .write 0 0 1 0xe8004c, .write 0x4000 0 2 0xe80044, .reset, .read 1 0xe80000]

theorem autoconfig_follows_chain_of_shutAndReset : ∃ after,
    (host deadWires stock).Runs Machine.anyStep switchedOnHost shutAndReset after ∧
    Holds after.sys ((⟨[], threeBoards⟩ : Chain).after stock shutAndReset) ∧
    placedBases after = (1, [0, 0, 0]) := by
  have executed : (((host deadWires stock).run Machine.anyStep shutAndReset
      switchedOnHost).map placedBases) = some (1, [0, 0, 0]) := by
    decide +kernel
  obtain ⟨after, finished, shown⟩ := Machine.runs_of_observed executed
  have start : Holds switchedOnHost.sys ⟨[], threeBoards⟩ := ⟨rfl, rfl⟩
  exact ⟨after, finished, (autoconfig_follows_chain start finished).1, shown⟩

/-- A base for the first board, written twice. -/
def writtenTwice : List BoardStep :=
  [.read 1 0xe80000, .write 0x4000 0 2 0x1_00e80044, .write 0x5000 0 2 0xe80044]

theorem boards_settled_once_of_writtenTwice : ∃ after,
    (host deadWires stock).Runs Machine.anyStep switchedOnHost writtenTwice after ∧
    placedBases after = (2, [0, 0x40000000, 0]) ∧
    List.Forall₂ (Settled writtenTwice) ((threeBoards.take after.sys.boardIdx).drop 0)
      ((after.sys.board.take after.sys.boardIdx).drop 0) := by
  have executed : (((host deadWires stock).run Machine.anyStep writtenTwice
      switchedOnHost).map placedBases) = some (2, [0, 0x40000000, 0]) := by
    decide +kernel
  obtain ⟨after, finished, shown⟩ := Machine.runs_of_observed executed
  have settled := boards_settled_once (Nat.zero_le _)
    (fun step member => by
      simp only [writtenTwice, List.mem_cons, List.not_mem_nil, or_false] at member
      obtain rfl | rfl | rfl := member <;> exact BoardStep.noConfusion) finished
  exact ⟨after, finished, shown, settled.2.2.2.2⟩

theorem configuration_completes_of_threeBoards : ∃ after,
    (host deadWires stock).Runs Machine.anyStep switchedOnHost
      (twoTurns.flatMap Turn.steps ++ [.read 1 0xe80000]) after ∧
    after.sys.board = assigned threeBoards [0x4000, 0xe9] ∧ after.sys.boardIdx = 3 ∧
    placedBases after = (3, [0, 0x40000000, 0xe90000]) := by
  have executed : (((host deadWires stock).run Machine.anyStep
      (twoTurns.flatMap Turn.steps ++ [.read 1 0xe80000]) switchedOnHost).map placedBases) =
      some (3, [0, 0x40000000, 0xe90000]) := by
    decide +kernel
  obtain ⟨after, finished, shown⟩ := Machine.runs_of_observed executed
  obtain ⟨board, boardIdx⟩ := @configuration_completes _ deadWires stock switchedOnHost after
    twoTurns [.read 1 0xe80000] rfl rfl (by decide +kernel) (by decide +kernel)
    (by decide +kernel) finished
  exact ⟨after, finished, board, boardIdx, shown⟩

end Paulastorm.Sys
