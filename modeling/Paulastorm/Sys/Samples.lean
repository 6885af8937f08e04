import Paulastorm.Bus.Cycles
import Paulastorm.Mirror.Calls
import Paulastorm.Mirror.PageCache.Coherence
import Paulastorm.Mirror.PageCache.Parties
import Paulastorm.Sys.Interrupts

namespace Paulastorm.Sys

/-! The sample cache behind the write handler.

CPU0 performs guest writes and services the cache, one after the other, at its
dispatch points; CPU1 reads and requests at any time.  `move_slow_to_chip`
rewrites a range of the guest's Chip RAM on the way to the bus; a load reads
the bus at the page number.
-/

open Bus Library Mirror

/-- A call of `SYSWriteValToAddr`. -/
structure GuestWrite where
  value : UInt64
  value2 : UInt64
  size : Nat
  far : UInt64
deriving DecidableEq, Repr

/-- The bytes that an access of this size writes. -/
def writtenBytes (value value2 : UInt64) (size : Nat) : List UInt8 :=
  match size with
  | 1 | 2 | 4 | 8 => bigEndian size value.toNat
  | 16 => bigEndian 16 (value.toNat * 2 ^ 64 + value2.toNat)
  | _ => []

/-- What the guest stores, by its address on the 24 lines of the bus. -/
def GuestWrite.stores (write : GuestWrite) : List (UInt32 × UInt8) :=
  if unwrap write.far < 0x1000000 then
    located (unwrap write.far).toUInt32 (writtenBytes write.value write.value2 write.size)
  else []

/-- The handler and the cache, the cycles of the guest write in progress, and the bytes
that the guest last stored. -/
structure Samples where
  sys : State
  pages : PageCache.State
  cycles : List PageCache.BusWrite
  guest : Nat → UInt8

/-- A guest write, the next cycle of one, or a step of the cache. -/
inductive SampleStep where
  | guest (write : GuestWrite)
  | cycle
  | pages (label : PageCache.Label)

/-- CPU0 calls the handler. -/
def Samples.call (options : Options) (write : GuestWrite) (samples : Samples) : Samples :=
  let (_, sys, cycles) := sysWriteValToAddr collector options write.value write.value2 write.size
    write.far samples.sys []
  { samples with sys, cycles, guest := store write.stores samples.guest }

/-- CPU0 does one thing after the other. -/
def Samples.step (options : Options) (step : SampleStep) (samples : Samples) : Option Samples :=
  match step with
  | .guest write =>
      match samples.cycles, samples.pages.writer, samples.pages.worker with
      | [], .idle, .idle => some (samples.call options write)
      | _, _, _ => none
  | .cycle =>
      match samples.cycles with
      | [] => none
      | cycle :: rest => (PageCache.write cycle samples.pages).map fun pages =>
          { samples with pages, cycles := rest }
  | .pages (.write _) => none
  | .pages .service =>
      match samples.cycles, samples.pages.writer with
      | [], .idle => (PageCache.service samples.pages).map fun pages => { samples with pages }
      | _, _ => none
  | .pages label => (PageCache.step label samples.pages).map fun pages => { samples with pages }

def samples (options : Options) : Machine Samples SampleStep := ⟨Samples.step options⟩

/-- The cache is cleared and the guest has stored nothing yet. -/
def Samples.start (cache : Cache) (chip : Nat → UInt8) (sys : State) : Samples :=
  ⟨sys, PageCache.start cache chip, [], chip⟩

/-- The guest write is not redirected to the trapdoor memory. -/
def Direct (options : Options) : SampleStep → Samples → Prop
  | .guest write, _ => ¬(options.moveSlowToChip = true ∧ trapdoorArea (unwrap write.far) = true)
  | _, _ => True

instance directDecidable (options : Options) (step : SampleStep) (samples : Samples) :
    Decidable (Direct options step samples) :=
  match step with
  | .guest _ => inferInstanceAs (Decidable (¬(_ ∧ _)))
  | .cycle | .pages _ => .isTrue trivial

section Handler

variable {options : Options} {value value2 far : UInt64} {size : Nat}

/-- The sizes that the handlers know. -/
def knownSizes : List Nat := [1, 2, 4, 8, 16]

theorem writeSized_unknown {State : Type u} (wires : Wires State) (unknown : size ∉ knownSizes)
    (bus : State) : writeSized wires value value2 size far bus = bus := by
  simp only [knownSizes, List.mem_cons, List.not_mem_nil, or_false, not_or] at unknown
  obtain ⟨one, two, four, eight, sixteen⟩ := unknown
  unfold writeSized
  split <;> first | contradiction | rfl

theorem writtenBytes_unknown (unknown : size ∉ knownSizes) :
    writtenBytes value value2 size = [] := by
  simp only [knownSizes, List.mem_cons, List.not_mem_nil, or_false, not_or] at unknown
  obtain ⟨one, two, four, eight, sixteen⟩ := unknown
  unfold writtenBytes
  split <;> first | contradiction | rfl

theorem writeSized_writes (value value2 : UInt64) (size : Nat) (far : UInt64) :
    Writes True (fun _ wires => writeSized wires value value2 size far)
      (located far.toUInt32 (writtenBytes value value2 size)) := by
  have narrow : ∀ count, 256 ^ count ∣ 2 ^ 32 →
      bigEndian count value.toUInt32.toNat = bigEndian count value.toNat := fun count whole => by
    rw [UInt64.toNat_toUInt32, bigEndian_mod count _ whole]
  by_cases known : size ∈ knownSizes
  · simp only [knownSizes, List.mem_cons, List.not_mem_nil, or_false] at known
    rcases known with rfl | rfl | rfl | rfl | rfl
    · rw [show writtenBytes value value2 1 = _ from (narrow 1 (by decide)).symm]
      exact (psWrite8_writes _ _).mono False.elim
    · rw [show writtenBytes value value2 2 = _ from (narrow 2 (by decide)).symm]
      exact (psWrite16_writes _ _).mono fun _ => trivial
    · rw [show writtenBytes value value2 4 = _ from (narrow 4 (by decide)).symm]
      exact (psWrite32_writes _ _).mono fun _ => trivial
    · exact (psWrite64_writes _ _).mono fun _ => trivial
    · exact (psWrite128_writes _ _ _).mono fun _ => trivial
  · rw [writtenBytes_unknown known]
    exact ⟨[], List.forall_mem_nil _, rfl, fun _ wires state =>
      ⟨[], writeSized_unknown wires known state, rfl, nofun⟩⟩

/-- An access that stores no byte below the limit of the cache. -/
def Above (far : UInt64) : Prop := 0x200000 ≤ far.toNat ∧ far.toNat + 16 ≤ 2 ^ 24

theorem writtenBytes_length (value value2 : UInt64) (size : Nat) :
    (writtenBytes value value2 size).length ≤ 16 := by
  unfold writtenBytes
  split
  all_goals first
    | exact Nat.zero_le _
    | exact (bigEndian_length _ _).trans_le (by decide)

theorem Above.store (above : Above far) (value value2 : UInt64) (size : Nat) (chip : Nat → UInt8)
    {address : Nat} (below : address < 0x200000) :
    store (located far.toUInt32 (writtenBytes value value2 size)) chip address = chip address := by
  refine store_miss (fun cell member here => ?_) chip
  obtain ⟨index, inside, place⟩ := located_address member
  have length := writtenBytes_length value value2 size
  obtain ⟨lower, upper⟩ := above
  rw [UInt64.toNat_toUInt32] at place
  omega

/-- What the handler sends to the bus below 16 MiB, but for accesses above the cache. -/
theorem writeMapped_cycles (low : far < 0x1000000)
    (direct : ¬(options.moveSlowToChip = true ∧ trapdoorArea far = true)) (sys : State) :
    let cycles := (writeMapped collector options value value2 size far sys []).2
    (cycles = [] ∧ Above far) ∨ ∃ sent, (sent = value ∨ Above far) ∧
      cycles = writeSized collector sent value2 size far [] := by
  intro cycles
  have bound : far.toNat < 0x1000000 := UInt64.lt_iff_toNat_lt.mp low
  have serial : ¬(far = 0xdeadbeef ∧ size = 1) := by
    rintro ⟨rfl, -⟩
    exact absurd low (by decide)
  have area : ∀ lower upper : UInt64, 0x200000 ≤ lower.toNat → upper.toNat + 16 ≤ 2 ^ 24 →
      lower ≤ far → far ≤ upper → Above far := by
    intro lower upper least most from_lower to_upper
    rw [UInt64.le_iff_toNat_le] at from_lower to_upper
    exact ⟨by omega, by omega⟩
  have slow : slowArea far = true → Above far := by
    intro within
    simp only [slowArea, Bool.and_eq_true, decide_eq_true_eq] at within
    exact area 0xc00000 0xc7ffff (by decide) (by decide) within.1 within.2
  have sent : ∀ before, (driveWrite options value far before).1 = value ∨ Above far := by
    intro before
    by_cases drive : far = ciabprb
    · exact .inr (area ciabprb ciabprb (by decide) (by decide) (drive ▸ UInt64.le_refl _)
        (drive ▸ UInt64.le_refl _))
    · exact .inl (congrArg Prod.fst (if_neg fun both => drive both.1))
  have waiting : ∀ {before board}, waitingBoard options far before = some board → Above far := by
    intro before board found
    unfold waitingBoard at found
    split at found
    next within => exact area 0xe80000 0xe8ffff (by decide) (by decide) within.2.1 within.2.2
    · cases found
  simp only [cycles, writeMapped, if_neg serial, if_neg (UInt64.not_le.mpr low)]
  cases board : waitingBoard options far (driveWrite options value far
      (overlayWrite value size far sys)).2 with
  | some board => exact .inl ⟨rfl, waiting board⟩
  | none =>
      have straight : (options.moveSlowToChip && trapdoorArea far) ≠ true :=
        fun both => direct (Bool.and_eq_true_iff.mp both)
      have reached : busAddress options far = some far ∨
          (busAddress options far = none ∧ slowArea far = true) := by
        simp only [busAddress, if_neg straight]
        split
        next blocked => exact .inr ⟨rfl, (Bool.and_eq_true_iff.mp blocked).2⟩
        · split
          next blocked => exact .inr ⟨rfl, (Bool.and_eq_true_iff.mp blocked).1⟩
          · exact .inl rfl
      rcases reached with some | ⟨none, within⟩
      · rw [some]
        exact .inr ⟨_, sent _, rfl⟩
      · rw [none]
        exact .inl ⟨rfl, slow within⟩

/-- A guest write that is not redirected stores its bytes on the bus. -/
theorem call_cycles (write : GuestWrite) (sys : State)
    (direct : ¬(options.moveSlowToChip = true ∧ trapdoorArea (unwrap write.far) = true))
    (chip : Nat → UInt8) {address : Nat} (below : address < 0x200000) :
    applyAll (sysWriteValToAddr collector options write.value write.value2 write.size write.far sys
      []).2.2 chip address = store write.stores chip address := by
  obtain ⟨value, value2, size, far⟩ := write
  dsimp only at direct ⊢
  by_cases low : unwrap far < 0x1000000
  · have bound : (unwrap far).toNat < 0x1000000 := UInt64.lt_iff_toNat_lt.mp low
    have upper : unwrap far >>> 32 = 0 := by
      rw [← UInt64.toNat_inj, UInt64.toNat_shiftRight, Nat.shiftRight_eq_div_pow]
      change (unwrap far).toNat / 2 ^ 32 = 0
      omega
    have window : unwrap far < Probe.probeBase := by
      rw [UInt64.lt_iff_toNat_lt]
      change (unwrap far).toNat < 0xdeadb000
      omega
    rw [GuestWrite.stores, if_pos low]
    by_cases scsi : scsiArea options (unwrap far) = true
    · have above : Above (unwrap far) := by
        simp only [scsiArea, Bool.and_eq_true, decide_eq_true_eq, UInt64.le_iff_toNat_le] at scsi
        have least : 0x00da0000 ≤ (unwrap far).toNat := scsi.1.2
        have most : (unwrap far).toNat ≤ 0x00da7fff := scsi.2
        exact ⟨by omega, by omega⟩
      have nothing : (sysWriteValToAddr collector options value value2 size far sys []).2.2 = [] := by
        simp only [sysWriteValToAddr, writeAround, upper, scsi]
        rfl
      rw [nothing, above.store value value2 size chip below]
      rfl
    · obtain ⟨before, mapped⟩ : ∃ before,
          (sysWriteValToAddr collector options value value2 size far sys []).2.2 =
            (writeMapped collector options value value2 size (unwrap far) before []).2 := by
        simp only [sysWriteValToAddr, writeAround, upper, if_neg scsi, Probe.busWrite, if_pos (Or.inl window)]
        exact ⟨_, rfl⟩
      rw [mapped]
      rcases writeMapped_cycles low direct before with ⟨nothing, above⟩ | ⟨sent, same, cycles⟩
      · rw [nothing, above.store value value2 size chip below]
        rfl
      · rw [cycles, ((writeSized_writes sent value2 size (unwrap far)).collected).2]
        rcases same with rfl | above
        · rfl
        · rw [above.store sent value2 size chip below, above.store value value2 size chip below]
  · have nothing : (sysWriteValToAddr collector options value value2 size far sys []).2.2 = [] := by
      have high : 0x1000000 ≤ unwrap far := UInt64.not_lt.mp low
      simp only [sysWriteValToAddr, writeAround, writeMapped, if_pos high]
      split_ifs <;> rfl
    rw [nothing, GuestWrite.stores, if_neg low]
    rfl

end Handler

section Runs

variable {options : Options} {before after : Samples}

/-- CPU0 is at one thing at a time, and Chip RAM becomes what the guest has stored. -/
structure Showing (samples : Samples) : Prop where
  requests : PageCache.Requests samples.pages
  coherent : PageCache.Coherent samples.pages
  bumps : samples.pages.history.bumps = 0
  serial : samples.pages.worker = .idle ∨ (samples.cycles = [] ∧ samples.pages.writer = .idle)
  chip : ∀ address < 0x200000, applyAll samples.cycles samples.pages.chip address =
    samples.guest address

theorem start_showing (cache : Cache) (chip : Nat → UInt8) (sys : State) :
    Showing (Samples.start cache chip sys) where
  requests := PageCache.start_requests cache chip
  coherent := PageCache.start_coherent cache chip
  bumps := rfl
  serial := .inl rfl
  chip _ _ := rfl

/-- A step of the cache in which no invalidation meets a load. -/
theorem Showing.pages (showing : Showing before) (label : PageCache.Label) {pages : PageCache.State}
    (stepped : PageCache.step label before.pages = some pages) (bumps : pages.history.bumps = 0) :
    PageCache.Requests pages ∧ PageCache.Coherent pages := by
  have few : PageCache.loadsBounded label before.pages := by
    rw [PageCache.loadsBounded, stepped]
    change pages.history.bumps < 2 ^ 62
    omega
  exact ⟨PageCache.step_requests showing.requests stepped,
    PageCache.step_coherent showing.requests showing.coherent few stepped⟩

theorem pages_showing (showing : Showing before) {label : PageCache.Label}
    (stepped : Samples.step options (.pages label) before = some after) : Showing after := by
  obtain ⟨requests, coherent, bumps, serial, chip⟩ := id showing
  cases label with
  | write => cases stepped
  | service =>
      simp only [Samples.step] at stepped
      split at stepped
      next none idle =>
        obtain ⟨pages, begun, rfl⟩ := Option.map_eq_some_iff.mp stepped
        obtain ⟨sameChip, sameWriter, sameBumps⟩ := PageCache.service_leaves begun
        obtain ⟨requests, coherent⟩ := showing.pages .service begun (sameBumps.trans bumps)
        exact ⟨requests, coherent, sameBumps.trans bumps, .inr ⟨none, sameWriter.trans idle⟩,
          sameChip ▸ chip⟩
      · cases stepped
  | worker =>
      obtain ⟨pages, moved, rfl⟩ := Option.map_eq_some_iff.mp stepped
      obtain ⟨sameChip, sameWriter, counted⟩ := PageCache.worker_leaves moved
      have none : pages.history.bumps = 0 := counted.elim (·.trans bumps) id
      obtain ⟨requests, coherent⟩ := showing.pages .worker moved none
      have busy : before.pages.worker ≠ .idle := by
        intro idle
        simp only [PageCache.step, PageCache.worker, idle] at moved
        cases moved
      obtain ⟨done, idle⟩ := serial.resolve_left busy
      exact ⟨requests, coherent, none, .inr ⟨done, sameWriter.trans idle⟩, sameChip ▸ chip⟩
  | writer =>
      obtain ⟨pages, moved, rfl⟩ := Option.map_eq_some_iff.mp stepped
      have busy : before.pages.writer ≠ .idle := by
        intro idle
        simp only [PageCache.step, PageCache.writer, idle] at moved
        cases moved
      have idle := serial.resolve_right fun rest => busy rest.2
      obtain ⟨sameChip, sameWorker, same⟩ := PageCache.writer_leaves moved idle
      obtain ⟨requests, coherent⟩ := showing.pages .writer moved (same.trans bumps)
      exact ⟨requests, coherent, same.trans bumps, .inl (sameWorker.trans idle), sameChip ▸ chip⟩
  | request page | renderBegin | read address | prefetch address length | cpu1 =>
      obtain ⟨pages, moved, rfl⟩ := Option.map_eq_some_iff.mp stepped
      obtain ⟨sameChip, sameWorker, sameWriter, same⟩ := PageCache.cpu1_leaves rfl moved
      obtain ⟨requests, coherent⟩ := showing.pages _ moved (same.trans bumps)
      exact ⟨requests, coherent, same.trans bumps, serial.imp sameWorker.trans
        (And.imp_right sameWriter.trans), sameChip ▸ chip⟩

theorem step_showing {step : SampleStep} (direct : Direct options step before)
    (stepped : Samples.step options step before = some after) (showing : Showing before) :
    Showing after := by
  cases step with
  | pages label => exact pages_showing showing stepped
  | guest write =>
      obtain ⟨requests, coherent, bumps, serial, chip⟩ := showing
      simp only [Samples.step] at stepped
      split at stepped
      next none idle rest =>
        cases stepped
        refine ⟨requests, coherent, bumps, .inl rest, fun address below => ?_⟩
        have same : before.pages.chip address = before.guest address := by
          have before := chip address below
          rwa [none] at before
        change applyAll (sysWriteValToAddr collector options write.value write.value2 write.size
          write.far before.sys []).2.2 before.pages.chip address = store write.stores before.guest address
        rw [call_cycles write before.sys direct _ below]
        exact store_congr _ same
      · cases stepped
  | cycle =>
      obtain ⟨requests, coherent, bumps, serial, chip⟩ := id showing
      simp only [Samples.step] at stepped
      split at stepped
      · cases stepped
      next cycle rest pending =>
        obtain ⟨pages, written, rfl⟩ := Option.map_eq_some_iff.mp stepped
        obtain ⟨newChip, sameWorker, same⟩ := PageCache.write_leaves written
        obtain ⟨requests, coherent⟩ := showing.pages (.write cycle) written (same.trans bumps)
        have idle := serial.resolve_right fun done => by
          rw [pending] at done
          cases done.1
        refine ⟨requests, coherent, same.trans bumps, .inl (sameWorker.trans idle), ?_⟩
        rw [pending] at chip
        rw [newChip]
        exact chip

/-- In every run whose guest writes are not redirected, whatever the other options, the cache shows
what the guest has stored: once a guest write is done, no page that is ready shows anything
else, and `paula_mirror_read_byte` returns the byte that the guest last stored. -/
theorem samples_show_chip {cache : Cache} {chip : Nat → UInt8} {sys : State}
    {steps : List SampleStep} {state : Samples}
    (run : (samples options).Runs (Direct options) (.start cache chip sys) steps state)
    (done : state.cycles = []) (idle : state.pages.writer = .idle) (address : UInt32)
    (below : address < chipLimit) (ready : state.pages.cache.tagOf (pageOf address) = ready) :
    state.pages.cache.shadow address.toNat = state.guest address.toNat ∧
      (state.pages.cache.readByte address).1 = state.guest address.toNat := by
  have showing : Showing state := run.invariant (motive := Showing)
    (fun _ _ _ direct stepped showing => step_showing direct stepped showing)
    (start_showing cache chip sys)
  have small : address.toNat < 0x200000 := UInt32.lt_iff_toNat_lt.mp below
  have place : pageOf address * 256 + address.toNat % 256 = address.toNat := by
    rw [pageOf_eq]
    omega
  have settled : state.pages.writer.pending (pageOf address) = false := by
    rw [idle]
    rfl
  have copied := showing.coherent.coherence.pages (pageOf address) (pageOf_lt below) ready settled
    (address.toNat % 256) (Nat.mod_lt _ (by decide))
  have stored := showing.chip address.toNat small
  rw [done] at stored
  rw [place] at copied
  have shown : state.pages.cache.shadow address.toNat = state.guest address.toNat :=
    copied.trans stored
  exact ⟨shown, (readByte_ready below ready).1.trans shown⟩

end Runs

/-- A byte is written, its page is requested and loaded. -/
def storesThenLoads (value far : UInt64) (page : Nat) (settles : List SampleStep) :
    List SampleStep :=
  .guest ⟨value, 0, 1, far⟩ :: .cycle :: settles ++ .pages (.request page) ::
    List.replicate 6 (.pages .cpu1) ++ .pages .service :: List.replicate 520 (.pages .worker)

def switchedOn : Samples :=
  .start PageCache.sampleCache (fun _ => 0) (powerOn [] Probe.init).sys

def trapdoor : Options := { stock with moveSlowToChip := true }

/-- The byte is written once more while its page is ready. -/
def overwritten : List SampleStep :=
  storesThenLoads 7 0 0 [.pages .writer] ++
    storesThenLoads 9 0 0 (List.replicate 4 (.pages .writer))

set_option maxRecDepth 20000 in
theorem samples_show_chip_of_overwritten : ∃ state,
    (samples trapdoor).Runs (Direct trapdoor) switchedOn overwritten state ∧
    state.guest 0 = 9 ∧ (state.pages.cache.readByte 0).1 = 9 := by
  have executed : ((samples trapdoor).run (Direct trapdoor) overwritten switchedOn).map
      (fun state => (state.cycles, state.pages.writer, state.pages.cache.tagOf (pageOf 0),
        state.guest 0)) = some ([], .idle, ready, 9) := rfl
  obtain ⟨state, run, seen⟩ := Machine.runs_of_observed executed
  simp only [Prod.mk.injEq] at seen
  obtain ⟨done, idle, present, stored⟩ := seen
  exact ⟨state, run, stored, (samples_show_chip run done idle 0 (by decide) present).2.trans stored⟩

set_option maxRecDepth 20000 in
/-- A byte written where `move_slow_to_chip` redirects goes to the trapdoor memory, and the load
copies what the bus has at the guest's address. -/
theorem trapdoor_not_shown : ∃ state, (samples trapdoor).Runs Machine.anyStep switchedOn
      (storesThenLoads 7 0x080000 0x800 []) state ∧
    state.cycles = [] ∧ state.pages.writer = .idle ∧
    state.pages.cache.tagOf (pageOf 0x080000) = ready ∧ state.guest 0x080000 = 7 ∧
    (state.pages.cache.readByte 0x080000).1 = 0 := by
  have executed : ((samples trapdoor).run Machine.anyStep
      (storesThenLoads 7 0x080000 0x800 []) switchedOn).map (fun state => (state.cycles,
        state.pages.writer, state.pages.cache.tagOf (pageOf 0x080000), state.guest 0x080000,
        (state.pages.cache.readByte 0x080000).1)) = some ([], .idle, ready, 7, 0) := rfl
  obtain ⟨state, run, seen⟩ := Machine.runs_of_observed executed
  simp only [Prod.mk.injEq] at seen
  exact ⟨state, run, seen⟩

end Paulastorm.Sys
