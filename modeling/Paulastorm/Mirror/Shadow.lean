import Paulastorm.Registers
import Mathlib.Data.List.Induction

namespace Paulastorm.Mirror

/-! Captured register writes and the producer's register shadow
(`paula_mirror.h` and `mirror_shadow_word`). -/

/-- `paula_mirror_event`. -/
structure Event where
  ticks : UInt64
  address : UInt32
  value : UInt16
  width : UInt8
  reserved : UInt8
deriving DecidableEq, Repr

/-- The register part of `paula_mirror_snapshot`: the latest word written to
each register, and one seen bit per register. -/
structure Latest where
  reg : Fin 4 → Fin 6 → UInt16
  seen : Fin 4 → UInt8
  dma : UInt16
  intena : UInt16
  intreq : UInt16
  adkcon : UInt16
  seenGlobal : UInt32

/-- `paula_mirror_snapshot`. -/
structure Snapshot extends Latest where
  ticks : UInt64
  skipped : UInt32
  dropped : UInt32

/-- The arguments of one `paula_mirror_capture` call. -/
structure Call where
  address : UInt32
  value : UInt32
  width : UInt32
deriving DecidableEq, Repr

/-- `is_audio_register`. -/
def isAudioRegister (address : UInt32) : Bool :=
  let r := (address &&& 0xfff).toNat
  (0xa0 ≤ r && r ≤ 0xdb) || (0x96 ≤ r && r ≤ 0x97) || (0x9a ≤ r && r ≤ 0x9f)

namespace Call

/-- The call with its address on the 24-bit bus. -/
def masked (call : Call) : Call := { call with address := call.address &&& 0xffffff }

/-- The filter at the head of `paula_mirror_capture`. -/
def accepted (call : Call) : Bool :=
  call.masked.address &&& 0xfff000 == 0xdff000 && isAudioRegister call.masked.address

/-- The word that reaches the chip, as the shadow reconstructs it. -/
def word (call : Call) : UInt16 :=
  if call.width = 1 then ((call.value &&& 255) * 0x0101).toUInt16 else call.value.toUInt16

/-- The ring event of a call. -/
def event (call : Call) (ticks : UInt64) : Event where
  ticks := ticks
  address := call.address
  value := call.value.toUInt16
  width := call.width.toUInt8
  reserved := 0

/-- What the bus layer passes on: bytes at any address, words at even ones. -/
def WellFormed (call : Call) : Prop :=
  call.width = 1 ∨ (call.width = 2 ∧ call.address &&& 1 = 0)

instance (call : Call) : Decidable call.WellFormed := inferInstanceAs (Decidable (_ ∨ _))

/-- The register block offset a call addresses. -/
def offset (call : Call) : Nat := (call.address &&& 0xffe).toNat

end Call

namespace Latest

/-- The cleared shadow of `paula_mirror_enable`. -/
def empty : Latest where
  reg := fun _ _ => 0
  seen := fun _ => 0
  dma := 0
  intena := 0
  intreq := 0
  adkcon := 0
  seenGlobal := 0

/-- `mirror_shadow_word`. -/
def shadowWord (latest : Latest) (address : UInt32) (value : UInt16) : Latest :=
  let r := (address &&& 0xffe).toNat
  if r = 0x096 then
    { latest with dma := setClear latest.dma value, seenGlobal := latest.seenGlobal ||| 1 }
  else if r = 0x09a then
    { latest with intena := setClear latest.intena value, seenGlobal := latest.seenGlobal ||| 2 }
  else if r = 0x09c then
    { latest with intreq := setClear latest.intreq value, seenGlobal := latest.seenGlobal ||| 4 }
  else if r = 0x09e then
    { latest with adkcon := setClear latest.adkcon value, seenGlobal := latest.seenGlobal ||| 8 }
  else if r < 0x0a0 ∨ r > 0x0da then latest
  else
    let ch := (r - 0x0a0) / 16
    let reg := (r - 0x0a0) % 16
    if block : ch < 4 ∧ reg % 2 = 0 ∧ reg ≤ 10 then
      let channel : Fin 4 := ⟨ch, block.1⟩
      let index : Fin 6 := ⟨reg / 2, by omega⟩
      { latest with
        reg := Function.update latest.reg channel
          (Function.update (latest.reg channel) index value)
        seen := Function.update latest.seen channel
          (latest.seen channel ||| (1 <<< UInt8.ofNat index.val)) }
    else latest

/-- The shadow of one write to a known register. -/
def record (latest : Latest) (value : UInt16) : Reg → Latest
  | .dmacon =>
      { latest with dma := setClear latest.dma value, seenGlobal := latest.seenGlobal ||| 1 }
  | .intena =>
      { latest with intena := setClear latest.intena value, seenGlobal := latest.seenGlobal ||| 2 }
  | .intreq =>
      { latest with intreq := setClear latest.intreq value, seenGlobal := latest.seenGlobal ||| 4 }
  | .adkcon =>
      { latest with adkcon := setClear latest.adkcon value, seenGlobal := latest.seenGlobal ||| 8 }
  | .channel ch reg =>
      { latest with
        reg := Function.update latest.reg ch (Function.update (latest.reg ch) reg.index value)
        seen := Function.update latest.seen ch
          (latest.seen ch ||| (1 <<< UInt8.ofNat reg.index.val)) }

/-- The shadow's decoder is the register map. -/
theorem shadowWord_eq (latest : Latest) (address : UInt32) (value : UInt16) :
    latest.shadowWord address value =
      match decode (address &&& 0xffe).toNat with
      | some reg => latest.record value reg
      | none => latest := by
  unfold shadowWord decode
  simp only
  split_ifs with dmacon intena intreq adkcon outside block inside inside
  · rfl
  · rfl
  · rfl
  · rfl
  · omega
  · rfl
  · simp only [record, ChannelReg.index_ofIndex]
  · omega
  · omega
  · rfl

/-- Whether a channel register was ever written. -/
def sawChannel (latest : Latest) (ch : Fin 4) (reg : ChannelReg) : Bool :=
  latest.seen ch &&& (1 <<< UInt8.ofNat reg.index.val) != 0

/-- What restoring the shadow leaves latched. -/
def bank (latest : Latest) : Bank where
  loc ch := Bank.withLow (Bank.withHigh 0 (latest.reg ch 0)) (latest.reg ch 1)
  len ch := if latest.sawChannel ch .len then Bank.lengthWords (latest.reg ch 2) else 0
  per ch := if latest.sawChannel ch .per then Bank.periodTicks (latest.reg ch 3) else 1
  vol ch := latest.reg ch 4 &&& 0x7f
  dmacon := latest.dma
  intena := latest.intena
  intreq := latest.intreq
  adkcon := latest.adkcon

theorem sawChannel_record (latest : Latest) (value : UInt16) (written ch : Fin 4)
    (reg seen : ChannelReg) :
    (latest.record value (.channel written reg)).sawChannel ch seen =
      (decide (ch = written ∧ seen = reg) || latest.sawChannel ch seen) := by
  by_cases same : ch = written
  · subst same
    have bits : ((1 <<< UInt8.ofNat reg.index.val) &&& (1 <<< UInt8.ofNat seen.index.val) !=
        (0 : UInt8)) = decide (seen = reg) := by
      cases reg <;> cases seen <;> decide
    simp only [sawChannel, record, Function.update_self, Library.Word.or_and_ne_zero, bits,
      true_and, Bool.or_comm]
  · simp [sawChannel, record, same]

/-- Recording a write in the shadow is writing it to the bank. -/
theorem bank_record (latest : Latest) (value : UInt16) (reg : Reg) :
    (latest.record value reg).bank = latest.bank.write value reg := by
  cases reg with
  | channel written reg =>
      have shared : (latest.record value (.channel written reg)).reg written =
          Function.update (latest.reg written) reg.index value := Function.update_self _ _ _
      have frame : ∀ ch, ch ≠ written →
          (latest.record value (.channel written reg)).reg ch = latest.reg ch :=
        fun ch other => Function.update_of_ne other _ _
      have location : ∀ old low : UInt16, Bank.withLow (Bank.withHigh 0 value) low =
          Bank.withHigh (Bank.withLow (Bank.withHigh 0 old) low) value := by
        intro old low
        rw [Bank.withHigh_withLow, Bank.withHigh_withHigh]
      have written_bank : ∀ ch, ch ≠ written → ∀ seen : ChannelReg,
          (latest.record value (.channel written reg)).sawChannel ch seen =
            latest.sawChannel ch seen := by
        intro ch other seen
        simp [sawChannel_record, other]
      cases reg <;> refine Bank.ext ?_ ?_ ?_ ?_ rfl rfl rfl rfl <;> funext ch <;>
        by_cases same : ch = written
      all_goals first
        | (subst same
           simp [bank, Bank.write, sawChannel_record, shared, ChannelReg.index,
             Bank.withLow_withLow])
        | simp [bank, Bank.write, frame ch same, written_bank ch same, same]
      exact location _ _
  | _ => rfl

/-- The shadow of a list of calls, oldest first. -/
def ofCalls (calls : List Call) : Latest :=
  calls.foldl (fun latest call => latest.shadowWord call.address call.word) empty

theorem ofCalls_append_singleton (calls : List Call) (call : Call) :
    ofCalls (calls ++ [call]) = (ofCalls calls).shadowWord call.address call.word := by
  simp only [ofCalls, List.foldl_append, List.foldl_cons, List.foldl_nil]

/-- A register never written is zero, and no global word has its SET/CLR bit. -/
structure Wf (latest : Latest) : Prop where
  unseen : ∀ ch reg, latest.sawChannel ch reg = false → latest.reg ch reg.index = 0
  dmaTop : latest.dma &&& 0x8000 = 0
  intenaTop : latest.intena &&& 0x8000 = 0
  intreqTop : latest.intreq &&& 0x8000 = 0
  adkconTop : latest.adkcon &&& 0x8000 = 0
  dmaUnseen : latest.seenGlobal &&& 1 = 0 → latest.dma = 0
  intenaUnseen : latest.seenGlobal &&& 2 = 0 → latest.intena = 0
  intreqUnseen : latest.seenGlobal &&& 4 = 0 → latest.intreq = 0
  adkconUnseen : latest.seenGlobal &&& 8 = 0 → latest.adkcon = 0

theorem empty_wf : empty.Wf where
  unseen _ _ _ := rfl
  dmaTop := rfl
  intenaTop := rfl
  intreqTop := rfl
  adkconTop := rfl
  dmaUnseen _ := rfl
  intenaUnseen _ := rfl
  intreqUnseen _ := rfl
  adkconUnseen _ := rfl

theorem record_wf {latest : Latest} (wf : latest.Wf) (value : UInt16) (reg : Reg) :
    (latest.record value reg).Wf := by
  have raised : ∀ word mark other : UInt32, mark &&& other = 0 →
      ((word ||| mark) &&& other = 0 ↔ word &&& other = 0) :=
    fun word mark other apart => by
      rw [Library.Word.or_and_distrib32, apart, UInt32.or_zero]
  have marked : ∀ word mark : UInt32, mark ≠ 0 → (word ||| mark) &&& mark ≠ 0 :=
    fun word mark nonzero clear => nonzero (Library.Word.or_and_self32 word mark ▸ clear)
  cases reg with
  | dmacon =>
      exact { wf with
        dmaTop := setClear_top wf.dmaTop value
        dmaUnseen := fun clear => absurd clear (marked _ 1 (by decide))
        intenaUnseen := fun clear => wf.intenaUnseen ((raised _ 1 2 rfl).mp clear)
        intreqUnseen := fun clear => wf.intreqUnseen ((raised _ 1 4 rfl).mp clear)
        adkconUnseen := fun clear => wf.adkconUnseen ((raised _ 1 8 rfl).mp clear) }
  | intena =>
      exact { wf with
        intenaTop := setClear_top wf.intenaTop value
        dmaUnseen := fun clear => wf.dmaUnseen ((raised _ 2 1 rfl).mp clear)
        intenaUnseen := fun clear => absurd clear (marked _ 2 (by decide))
        intreqUnseen := fun clear => wf.intreqUnseen ((raised _ 2 4 rfl).mp clear)
        adkconUnseen := fun clear => wf.adkconUnseen ((raised _ 2 8 rfl).mp clear) }
  | intreq =>
      exact { wf with
        intreqTop := setClear_top wf.intreqTop value
        dmaUnseen := fun clear => wf.dmaUnseen ((raised _ 4 1 rfl).mp clear)
        intenaUnseen := fun clear => wf.intenaUnseen ((raised _ 4 2 rfl).mp clear)
        intreqUnseen := fun clear => absurd clear (marked _ 4 (by decide))
        adkconUnseen := fun clear => wf.adkconUnseen ((raised _ 4 8 rfl).mp clear) }
  | adkcon =>
      exact { wf with
        adkconTop := setClear_top wf.adkconTop value
        dmaUnseen := fun clear => wf.dmaUnseen ((raised _ 8 1 rfl).mp clear)
        intenaUnseen := fun clear => wf.intenaUnseen ((raised _ 8 2 rfl).mp clear)
        intreqUnseen := fun clear => wf.intreqUnseen ((raised _ 8 4 rfl).mp clear)
        adkconUnseen := fun clear => absurd clear (marked _ 8 (by decide)) }
  | channel written reg =>
      refine { wf with unseen := ?_ }
      intro ch seen absent
      rw [sawChannel_record] at absent
      simp only [Bool.or_eq_false_iff, decide_eq_false_iff_not, not_and] at absent
      obtain ⟨different, before⟩ := absent
      have kept := wf.unseen ch seen before
      by_cases same : ch = written
      · subst same
        have apart : seen.index ≠ reg.index := by
          have distinct := different rfl
          revert distinct
          cases seen <;> cases reg <;> decide
        simpa [record, Function.update_of_ne apart] using kept
      · simpa [record, same] using kept

theorem shadowWord_wf {latest : Latest} (wf : latest.Wf) (address : UInt32) (value : UInt16) :
    (latest.shadowWord address value).Wf := by
  rw [shadowWord_eq]
  cases decode (address &&& 0xffe).toNat with
  | none => exact wf
  | some reg => exact record_wf wf value reg

theorem ofCalls_wf (calls : List Call) : (ofCalls calls).Wf := by
  induction calls using List.reverseRecOn with
  | nil => exact empty_wf
  | append_singleton calls call ih =>
      rw [ofCalls_append_singleton]
      exact shadowWord_wf ih call.address call.word

theorem bank_shadowWord (latest : Latest) (address : UInt32) (value : UInt16) :
    (latest.shadowWord address value).bank =
      latest.bank.writeOffset (address &&& 0xffe).toNat value := by
  rw [shadowWord_eq, Bank.writeOffset]
  cases decode (address &&& 0xffe).toNat with
  | none => rfl
  | some reg => exact bank_record latest value reg

end Latest

/-- The register bank after a list of calls, oldest first. -/
def bankOf (calls : List Call) : Bank :=
  calls.foldl (fun bank call => bank.writeOffset call.offset call.word) Bank.reset

theorem bankOf_append_singleton (calls : List Call) (call : Call) :
    bankOf (calls ++ [call]) = (bankOf calls).writeOffset call.offset call.word := by
  simp only [bankOf, List.foldl_append, List.foldl_cons, List.foldl_nil]

theorem Latest.bank_empty : empty.bank = Bank.reset := by
  refine Bank.ext ?_ ?_ ?_ ?_ rfl rfl rfl rfl <;> funext ch
  · exact (by decide : Bank.withLow (Bank.withHigh 0 0) 0 = 0)
  · simp [bank, Bank.reset, empty, sawChannel]
  · simp [bank, Bank.reset, empty, sawChannel]
  · simp [bank, Bank.reset, empty]

/-- The shadow loses no register: it determines the bank that the calls leave. -/
theorem Latest.bank_ofCalls (calls : List Call) : (ofCalls calls).bank = bankOf calls := by
  induction calls using List.reverseRecOn with
  | nil => exact bank_empty
  | append_singleton calls call ih =>
      rw [ofCalls_append_singleton, bank_shadowWord, bankOf_append_singleton, ih]
      rfl

/-- The width field is truncated to a byte, which no width in use notices. -/
theorem Call.busWord_event {call : Call} (wellFormed : call.WellFormed) (ticks : UInt64) :
    busWord (call.event ticks).value (call.event ticks).width = call.word := by
  rcases wellFormed with byte | ⟨word, _⟩
  · have narrow : (call.event ticks).width = 1 := by rw [Call.event, byte]; rfl
    rw [busWord, if_pos narrow, Call.word, if_pos byte]
    simp [Call.event]
  · have wide : (call.event ticks).width = 2 := by rw [Call.event, word]; rfl
    rw [busWord, wide, if_neg (by decide), Call.word, word, if_neg (by decide)]
    rfl

end Paulastorm.Mirror
