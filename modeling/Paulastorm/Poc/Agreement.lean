import Paulastorm.Live.Host
import Paulastorm.Live.Settings
import Paulastorm.Live.Shown
import Paulastorm.Poc.Recovery

namespace Paulastorm.Poc

/-! The three copies of Paula's registers (the replay loop's own, the core's and the
diagnostic bank's) never diverge. -/

open Paulastorm.Core Mirror Probe
open Live (Shown Shows)

/-- The last LEN written to each channel, if there was one since the last reset. -/
abbrev Programmed : Type := Fin 4 → Option UInt16

def Programmed.write (programmed : Programmed) (value : UInt16) : Reg → Programmed
  | .channel ch .len => Function.update programmed ch (some value)
  | _ => programmed

def Programmed.writeOffset (programmed : Programmed) (offset : Nat) (value : UInt16) :
    Programmed :=
  match decode offset with
  | some reg => programmed.write value reg
  | none => programmed

/-- The three copies of the registers. -/
@[ext] structure Copies where
  latched : Latched
  shown : Shown

def Copies.write (copies : Copies) (value : UInt16) (reg : Reg) : Copies :=
  ⟨copies.latched.write value reg, copies.shown.write value reg⟩

def Copies.writeOffset (copies : Copies) (offset : Nat) (value : UInt16) : Copies :=
  ⟨copies.latched.writeOffset offset value, copies.shown.writeOffset offset value⟩

theorem Copies.writeOffset_eq (copies : Copies) (offset : Nat) (value : UInt16) :
    copies.writeOffset offset value =
      match decode offset with
      | some reg => copies.write value reg
      | none => copies := by
  simp only [writeOffset, Latched.writeOffset, Bank.writeOffset, LiveState.writeOffset,
    Shown.writeOffset]
  cases decode offset <;> rfl

/-- Where the copies stand to each other. -/
structure Copies.Agree (programmed : Programmed) (copies : Copies) : Prop where
  dma : copies.latched.state.dma = copies.latched.bank.dmacon
  dmacon : copies.shown.dmacon = copies.latched.bank.dmacon.toUInt32
  cursor : copies.latched.state.loc = copies.latched.bank.loc
  loc : copies.shown.loc = copies.latched.bank.loc
  vol : ∀ ch, copies.shown.vol ch = (copies.latched.bank.vol ch).toUInt32
  per : ∀ ch, (copies.latched.bank.per ch).toUInt32 =
    if copies.shown.per ch = 0 then 1 else copies.shown.per ch
  len : ∀ ch, copies.latched.bank.len ch = (programmed ch).elim 0 Bank.lengthWords
  words : ∀ ch, copies.latched.state.len ch = (programmed ch).getD 0
  shownLen : ∀ ch, copies.shown.len ch = (copies.latched.state.len ch).toUInt32
  flags : ∀ ch, copies.shown.flags ch = if dmaOn copies.latched.bank.dmacon ch then 1 else 0
  intena : copies.shown.intena = copies.latched.bank.intena.toUInt32
  adkcon : copies.shown.adkcon = copies.latched.bank.adkcon.toUInt32
  intreq : ∃ raised : UInt16, raised &&& 0x0780 = raised ∧
    copies.latched.bank.intreq.toUInt32 = copies.shown.intreq ||| raised.toUInt32

section Words

/-- A property of two families at every index survives an update of both at one. -/
theorem forall_update₂ {ι α β : Type} [DecidableEq ι] {first : ι → α} {second : ι → β} (index : ι)
    (related : ι → α → β → Prop) {value : α} {value' : β} (here : related index value value')
    (everywhere : ∀ other, related other (first other) (second other)) (other : ι) :
    related other (Function.update first index value other)
      (Function.update second index value' other) := by
  by_cases same : other = index
  · subst same
    simpa only [Function.update_self] using here
  · simpa only [Function.update_of_ne same] using everywhere other

theorem periodTicks_toUInt32 (value : UInt16) : (Bank.periodTicks value).toUInt32 =
    if value.toUInt32 = 0 then 1 else value.toUInt32 := by
  have zero : value.toUInt32 = 0 ↔ value = 0 := by
    rw [← UInt16.toUInt32_inj]
    rfl
  simp only [Bank.periodTicks, zero, ite_not]
  split <;> rfl

/-- The set and clear rule on a word of the bank is the rule on the register. -/
theorem setClear_toUInt32 (word value : UInt16) :
    (setClear word value).toUInt32 = Shown.setClear word.toUInt32 value := by
  simp only [setClear, Shown.setClear]
  split
  · exact UInt16.toUInt32_or _ _
  · exact Library.Word.toUInt32_and_not _ _

theorem flag_toUInt32 (dma : UInt16) (ch : Fin 4) :
    Shown.flag dma.toUInt32 ch = if dmaOn dma ch then 1 else 0 := by
  have narrow : ∀ mask : UInt16, dma.toUInt32 &&& mask.toUInt32 ≠ 0 ↔ dma &&& mask ≠ 0 := by
    intro mask
    rw [← UInt16.toUInt32_and, ne_eq, ne_eq, ← UInt16.toUInt32_inj]
    rfl
  have master := narrow kDmaConMaster
  have own := narrow (dmaMask ch)
  have bit : (dmaMask ch).toUInt32 = 1 <<< UInt32.ofNat ch.val := by
    clear own
    revert ch
    decide
  rw [bit] at own
  simp only [Shown.flag, dmaOn, Bool.and_eq_true, bne_iff_ne]
  refine if_congr ?_ rfl rfl
  rw [and_comm, own]
  exact and_congr_right fun _ => master

/-- What a write makes of the bits under a mask depends on these bits alone. -/
theorem setClear_masked (word value mask : UInt16) :
    setClear (word &&& mask) value &&& mask = setClear word value &&& mask := by
  have again : word &&& mask &&& mask = word &&& mask := by rw [UInt16.and_assoc, UInt16.and_self]
  simp only [setClear]
  split
  · rw [Library.Word.or_and_distrib, Library.Word.or_and_distrib, again]
  · have swap : word &&& mask &&& ~~~(value &&& 0x7fff) = word &&& ~~~(value &&& 0x7fff) &&& mask := by
      rw [UInt16.and_assoc, UInt16.and_comm mask, ← UInt16.and_assoc]
    rw [swap, UInt16.and_assoc, UInt16.and_self]

/-- Requests raised by the core stay audio requests through a write to INTREQ. -/
theorem setClear_raised {requests : UInt16} {shown : UInt32} {raised value : UInt16}
    (audio : raised &&& 0x0780 = raised)
    (covered : requests.toUInt32 = shown ||| raised.toUInt32) :
    ∃ after : UInt16, after &&& 0x0780 = after ∧
      (setClear requests value).toUInt32 = Shown.setClear shown value ||| after.toUInt32 := by
  rw [setClear_toUInt32, covered]
  simp only [Shown.setClear]
  split
  · refine ⟨raised, audio, ?_⟩
    rw [UInt32.or_assoc, UInt32.or_comm raised.toUInt32, ← UInt32.or_assoc]
  · refine ⟨raised &&& ~~~(value &&& 0x7fff), ?_, ?_⟩
    · rw [UInt16.and_assoc, UInt16.and_comm (~~~_), ← UInt16.and_assoc, audio]
    · rw [Library.Word.or_and_distrib32, Library.Word.toUInt32_and_not]

end Words

namespace Copies

variable {programmed : Programmed} {copies : Copies}

/-- One write to a register keeps the copies together. -/
theorem Agree.write (agree : copies.Agree programmed) (value : UInt16) (reg : Reg) :
    (copies.write value reg).Agree (programmed.write value reg) := by
  cases reg with
  | dmacon =>
      have dmacon : Shown.setClear copies.shown.dmacon value =
          (setClear copies.latched.bank.dmacon value).toUInt32 := by
        rw [agree.dmacon, setClear_toUInt32]
      exact { agree with
        dma := congrArg (setClear · value) agree.dma
        dmacon := dmacon
        flags := fun ch => (congrArg (Shown.flag · ch) dmacon).trans (flag_toUInt32 _ ch) }
  | intena =>
      have intena := (congrArg (Shown.setClear · value) agree.intena).trans (setClear_toUInt32 _ _).symm
      exact { agree with intena := intena }
  | adkcon =>
      have adkcon := (congrArg (Shown.setClear · value) agree.adkcon).trans (setClear_toUInt32 _ _).symm
      exact { agree with adkcon := adkcon }
  | intreq =>
      obtain ⟨raised, audio, covered⟩ := agree.intreq
      exact { agree with intreq := setClear_raised audio covered }
  | channel ch reg =>
      cases reg with
      | lch =>
          have cursor := congrArg (fun loc : Fin 4 → UInt32 =>
            Function.update loc ch (Bank.withHigh (loc ch) value)) agree.cursor
          have loc := congrArg (fun loc : Fin 4 → UInt32 =>
            Function.update loc ch (Bank.withHigh (loc ch) value)) agree.loc
          exact { agree with cursor := cursor, loc := loc }
      | lcl =>
          have cursor := congrArg (fun loc : Fin 4 → UInt32 =>
            Function.update loc ch (Bank.withLow (loc ch) value)) agree.cursor
          have loc := congrArg (fun loc : Fin 4 → UInt32 =>
            Function.update loc ch (Bank.withLow (loc ch) value)) agree.loc
          exact { agree with cursor := cursor, loc := loc }
      | len => exact { agree with
          len := forall_update₂ ch (fun _ length programmed =>
            length = Option.elim programmed 0 Bank.lengthWords) rfl agree.len
          words := forall_update₂ ch (fun _ words programmed =>
            words = Option.getD programmed 0) rfl agree.words
          shownLen := forall_update₂ ch (fun _ shown words => shown = UInt16.toUInt32 words) rfl
            agree.shownLen }
      | per => exact { agree with
          per := forall_update₂ ch (fun _ ticks shown => UInt16.toUInt32 ticks =
            if shown = 0 then 1 else shown) (periodTicks_toUInt32 value) agree.per }
      | vol => exact { agree with
          vol := forall_update₂ ch (fun _ shown volume => shown = UInt16.toUInt32 volume) rfl
            agree.vol }
      | dat => exact { agree with }

theorem Agree.writeOffset (agree : copies.Agree programmed) (offset : Nat) (value : UInt16) :
    (copies.writeOffset offset value).Agree (programmed.writeOffset offset value) := by
  rw [writeOffset_eq, Programmed.writeOffset]
  cases decode offset with
  | none => exact agree
  | some reg => exact agree.write value reg

/-- After a reset no LEN has been written. -/
theorem reset_agree : Copies.Agree (fun _ => none) ⟨.reset, .reset⟩ where
  dma := rfl
  dmacon := rfl
  cursor := rfl
  loc := rfl
  vol _ := rfl
  per _ := rfl
  len _ := rfl
  words _ := rfl
  shownLen _ := rfl
  flags ch := by
    rw [show (Copies.latched ⟨.reset, .reset⟩).bank.dmacon = 0 from rfl, dmaOn_zero]
    rfl
  intena := rfl
  adkcon := rfl
  intreq := ⟨0, rfl, rfl⟩

/-- Requests for audio interrupts are all that a frame latches. -/
theorem Agree.raise (agree : copies.Agree programmed) {bank : Bank}
    (same : bank.withoutIntreq = copies.latched.bank.withoutIntreq) {raised : UInt16}
    (audio : raised &&& 0x0780 = raised)
    (requests : bank.intreq = copies.latched.bank.intreq ||| raised) :
    Agree programmed ⟨⟨bank, copies.latched.state⟩, copies.shown⟩ := by
  obtain ⟨before, beforeAudio, covered⟩ := agree.intreq
  have intreq : ∃ after : UInt16, after &&& 0x0780 = after ∧
      bank.intreq.toUInt32 = copies.shown.intreq ||| after.toUInt32 := by
    refine ⟨before ||| raised, ?_, ?_⟩
    · rw [Library.Word.or_and_distrib, beforeAudio, audio]
    · rw [requests, UInt16.toUInt32_or, covered, UInt32.or_assoc, UInt16.toUInt32_or]
  obtain ⟨loc, len, per, vol, dmacon, intena, _, adkcon⟩ := bank
  simp only [Bank.withoutIntreq, Bank.mk.injEq] at same
  obtain ⟨rfl, rfl, rfl, rfl, rfl, rfl, _, rfl⟩ := same
  exact { agree with intreq := intreq }

/-- The copies less the audio interrupt requests of the core, which a frame may raise. -/
def withoutAudio (copies : Copies) : Copies :=
  { copies with latched.bank.intreq := copies.latched.bank.intreq &&& ~~~(0x0780 : UInt16) }

/-- What a write makes of the copies does not depend on the audio requests, but for these. -/
theorem withoutAudio_write (copies : Copies) (value : UInt16) (reg : Reg) :
    (copies.withoutAudio.write value reg).withoutAudio = (copies.write value reg).withoutAudio := by
  have again : ∀ word : UInt16, word &&& ~~~(0x0780 : UInt16) &&& ~~~(0x0780 : UInt16) =
      word &&& ~~~(0x0780 : UInt16) := fun word => by rw [UInt16.and_assoc, UInt16.and_self]
  cases reg with
  | intreq => simp only [withoutAudio, write, Latched.write, Bank.write, setClear_masked]
  | channel ch reg =>
      cases reg <;> simp only [withoutAudio, write, Latched.write, Bank.write, again]
  | dmacon | intena | adkcon => simp only [withoutAudio, write, Latched.write, Bank.write, again]

variable {other : Copies}

theorem write_congr (same : copies.withoutAudio = other.withoutAudio) (value : UInt16) (reg : Reg) :
    (copies.write value reg).withoutAudio = (other.write value reg).withoutAudio := by
  rw [← withoutAudio_write copies, same, withoutAudio_write]

theorem writeOffset_congr (same : copies.withoutAudio = other.withoutAudio) (offset : Nat)
    (value : UInt16) :
    (copies.writeOffset offset value).withoutAudio =
      (other.writeOffset offset value).withoutAudio := by
  rw [writeOffset_eq, writeOffset_eq]
  cases decode offset with
  | none => exact same
  | some reg => exact write_congr same value reg

theorem withoutAudio_raise {bank : Bank}
    (same : bank.withoutIntreq = copies.latched.bank.withoutIntreq) {raised : UInt16}
    (audio : raised &&& 0x0780 = raised)
    (requests : bank.intreq = copies.latched.bank.intreq ||| raised) :
    withoutAudio ⟨⟨bank, copies.latched.state⟩, copies.shown⟩ = copies.withoutAudio := by
  have none : raised &&& ~~~(0x0780 : UInt16) = 0 := by
    rw [← audio, UInt16.and_assoc, UInt16.and_not_self, UInt16.and_zero]
  have kept : bank.intreq &&& ~~~(0x0780 : UInt16) =
      copies.latched.bank.intreq &&& ~~~(0x0780 : UInt16) := by
    rw [requests, Library.Word.or_and_distrib, none, UInt16.or_zero]
  obtain ⟨loc, len, per, vol, dmacon, intena, _, adkcon⟩ := bank
  simp only [Bank.withoutIntreq, Bank.mk.injEq] at same
  obtain ⟨rfl, rfl, rfl, rfl, rfl, rfl, _, rfl⟩ := same
  dsimp only at kept
  simp only [withoutAudio, kept]

/-- A register of the shadow is written if it was ever seen. -/
def restore (latest : Latest) (ch : Fin 4) (copies : Copies) (reg : Fin 5) : Copies :=
  if latest.sawChannel ch (.ofIndex reg.castSucc) then
    copies.write (latest.reg ch reg.castSucc) (.channel ch (.ofIndex reg.castSucc))
  else copies

/-- A register without a channel is written back with its bits set. -/
def restoreGlobal (latest : Latest) (seen : UInt32) (word : UInt16) (reg : Reg) (copies : Copies) :
    Copies :=
  if latest.seenGlobal &&& seen ≠ 0 then copies.write (0x8000 ||| word) reg else copies

/-- The copies after a reset and the writes of a shadow, DMACON last. -/
def ofLatest (latest : Latest) : Copies :=
  let copies := (List.finRange 4).foldl (fun copies ch =>
    (List.finRange 5).foldl (restore latest ch) copies) ⟨.reset, .reset⟩
  let copies := copies.restoreGlobal latest 2 latest.intena .intena
  let copies := copies.restoreGlobal latest 4 latest.intreq .intreq
  let copies := copies.restoreGlobal latest 8 latest.adkcon .adkcon
  copies.restoreGlobal latest 1 latest.dma .dmacon

end Copies

variable {F D σ : Type} (port : Port σ)

def Replay.copies (replay : Replay F D σ) : Copies :=
  ⟨replay.latched, .of (port.metrics replay.host)⟩

section Calls

variable {port : Port σ} (owns : port.Owns fun word => word ∉ sharedWords)
include owns

theorem prefetch_shown (address length : UInt32) (host : σ) :
    Shown.of (port.metrics (port.prefetch address length host)) = .of (port.metrics host) :=
  Shown.of_congr fun word shows => owns.prefetch address length host word shows.own

theorem live_prefetch_shown (core : Paula F D) (host : σ) :
    Shown.of (port.metrics (Live.prefetch port core host)) = .of (port.metrics host) :=
  Shown.of_congr fun _ shows => Live.prefetch_get owns core host shows.own

theorem probe_add_shown {index : Nat} (hidden : ¬ Shows index) (value : UInt32) (host : σ) :
    Shown.of (port.metrics (port.probe (add · index value) host)) = .of (port.metrics host) := by
  rw [owns.metrics_probe]
  exact Shown.of_add hidden value

theorem track_shown (r : Nat) (value : UInt16) (state : LiveState) (host : σ) :
    Shown.of (port.metrics (track port r value state host).2) = .of (port.metrics host) := by
  have channel : ∀ (state : LiveState) (ch : Fin 4) (host : σ),
      Shown.of (port.metrics (prefetchChannel port state ch host)) = .of (port.metrics host) :=
    fun _ _ _ => prefetch_shown owns _ _ _
  simp only [track]
  split_ifs
  · rfl
  · exact channel _ _ _
  · rfl
  · exact channel _ _ _
  · rfl
  · let kept : σ → Prop := fun after => Shown.of (port.metrics after) = .of (port.metrics host)
    refine List.foldlRecOn (motive := kept) _ _ rfl fun after same ch _ => ?_
    change Shown.of (port.metrics (if _ then _ else _)) = _
    split
    · exact (channel _ _ _).trans same
    · exact same
  · rfl
  · rfl

variable [Floating D]

/-- Writing a register writes the core's copy and the one that is shown. -/
theorem write_shown (address : UInt32) (value : UInt16) (live : Live F D) (host : σ) :
    Shown.of (port.metrics (live.write port address value host).2) =
      (Shown.of (port.metrics host)).writeOffset (address &&& 0xfff).toNat value := by
  have probed : port.metrics (live.write port address value host).2 =
      Live.writeShadow (address &&& 0xfff).toNat value (port.metrics host) :=
    owns.metrics_probe _ _
  rw [probed, Shown.of_writeShadow]

theorem applyLiveEvent_copies {event : Event} (deliverable : Deliverable event)
    (replay : Replay F D σ) :
    (applyLiveEvent port event replay).copies port =
      (replay.copies port).writeOffset (event.address &&& 0xffe).toNat
        (busWord event.value event.width) := by
  refine Copies.ext (applyLiveEvent_latched deliverable replay) ?_
  have width : ¬ (event.width ≠ 1 ∧ event.width ≠ 2) := by
    rintro ⟨byte, word⟩
    exact deliverable.elim byte fun both => word both.1
  have aligned : ¬ (event.width = 2 ∧ event.address &&& 1 ≠ 0) := by
    rintro ⟨word, odd⟩
    rcases deliverable with byte | ⟨_, even⟩
    · exact absurd (byte.symm.trans word) (by decide)
    · exact odd even
  have tracked := track_shown owns (event.address &&& 0xffe).toNat (busWord event.value event.width)
    replay.state replay.host
  have written := write_shown owns (0xdff000 ||| (event.address &&& 0xffe))
    (busWord event.value event.width) replay.live (track port (event.address &&& 0xffe).toNat
      (busWord event.value event.width) replay.state replay.host).2
  rw [live_offset, tracked] at written
  simp only [Replay.copies, applyLiveEvent, if_neg width, if_neg aligned]
  split
  · exact (live_prefetch_shown owns _ _).trans written
  · exact written

/-- An event that is not deliverable only counts. -/
theorem applyLiveEvent_undeliverable {event : Event} (refused : ¬ Deliverable event)
    (replay : Replay F D σ) :
    (applyLiveEvent port event replay).copies port = replay.copies port := by
  have ignored : ({ replay with host := port.probe (add · ppIgnored 1) replay.host } :
      Replay F D σ).copies port = replay.copies port :=
    Copies.ext rfl (probe_add_shown owns (by decide) 1 replay.host)
  simp only [Deliverable, not_or, not_and] at refused
  rw [applyLiveEvent]
  split_ifs with width odd
  · exact ignored
  · exact ignored
  · have word : event.width = 2 := by
      by_contra other
      exact width ⟨refused.1, other⟩
    exact absurd ⟨word, refused.2 word⟩ odd

end Calls

section Restore

/-- A register of the shadow is written if it was ever seen. -/
def Programmed.restore (latest : Latest) (ch : Fin 4) (programmed : Programmed) (reg : Fin 5) :
    Programmed :=
  if latest.sawChannel ch (.ofIndex reg.castSucc) then
    programmed.write (latest.reg ch reg.castSucc) (.channel ch (.ofIndex reg.castSucc))
  else programmed

/-- The LEN of a shadow. -/
def Programmed.ofLatest (latest : Latest) : Programmed :=
  fun ch => if latest.sawChannel ch .len then some (latest.reg ch 2) else none

theorem Programmed.restore_all (latest : Latest) :
    (List.finRange 4).foldl (fun programmed ch =>
      (List.finRange 5).foldl (restore latest ch) programmed) (fun _ => none) =
      ofLatest latest := by
  have other : ∀ ch (programmed : Programmed) (reg : Fin 5), reg ≠ 2 →
      restore latest ch programmed reg = programmed := by
    intro ch programmed reg different
    have untouched : ∀ value,
        programmed.write value (.channel ch (.ofIndex reg.castSucc)) = programmed := by
      revert different
      fin_cases reg <;> intro different value <;> first | rfl | exact absurd rfl different
    simp only [restore, untouched, ite_self]
  have block : ∀ ch (programmed : Programmed),
      (List.finRange 5).foldl (restore latest ch) programmed =
        if latest.sawChannel ch .len then Function.update programmed ch (some (latest.reg ch 2))
        else programmed := by
    intro ch programmed
    have regs : List.finRange 5 = [0, 1, 2, 3, 4] := rfl
    simp only [regs, List.foldl_cons, List.foldl_nil]
    rw [other ch _ 4 (by decide), other ch _ 3 (by decide), other ch _ 1 (by decide),
      other ch _ 0 (by decide)]
    rfl
  have apply : ∀ (written : Fin 4) (programmed : Programmed) (ch : Fin 4),
      (List.finRange 5).foldl (restore latest written) programmed ch =
        if ch = written then if latest.sawChannel ch .len then some (latest.reg ch 2)
          else programmed ch
        else programmed ch := by
    intro written programmed ch
    rw [block]
    by_cases same : ch = written
    · subst same
      rw [if_pos rfl]
      split
      · exact Function.update_self _ _ _
      · rfl
    · rw [if_neg same]
      split
      · exact Function.update_of_ne same _ _
      · rfl
  have channels : List.finRange 4 = [0, 1, 2, 3] := rfl
  funext ch
  simp only [channels, List.foldl_cons, List.foldl_nil, apply, ofLatest]
  fin_cases ch <;> rfl

/-- The writes of a shadow keep the copies together. -/
theorem Copies.ofLatest_agree (latest : Latest) :
    (Copies.ofLatest latest).Agree (.ofLatest latest) := by
  let follows : Copies → Programmed → Prop := fun copies programmed => copies.Agree programmed
  have register : ∀ ch (copies : Copies) programmed reg, follows copies programmed →
      follows (copies.restore latest ch reg) (programmed.restore latest ch reg) := by
    intro ch copies programmed reg agree
    simp only [follows, Copies.restore, Programmed.restore]
    split
    · exact agree.write _ _
    · exact agree
  have global : ∀ (copies : Copies) seen word reg,
      (Programmed.ofLatest latest).write (0x8000 ||| word) reg = .ofLatest latest →
      copies.Agree (.ofLatest latest) →
      (copies.restoreGlobal latest seen word reg).Agree (.ofLatest latest) := by
    intro copies seen word reg unprogrammed agree
    rw [Copies.restoreGlobal]
    split
    · exact unprogrammed ▸ agree.write (0x8000 ||| word) reg
    · exact agree
  have channels : follows ((List.finRange 4).foldl (fun copies ch =>
      (List.finRange 5).foldl (Copies.restore latest ch) copies) ⟨.reset, .reset⟩)
      (.ofLatest latest) := by
    rw [← Programmed.restore_all]
    refine List.foldl_rel (r := follows) Copies.reset_agree fun ch _ _ _ agree => ?_
    exact List.foldl_rel (r := follows) agree fun reg _ _ _ agree => register ch _ _ reg agree
  exact global _ _ _ .dmacon rfl <| global _ _ _ .adkcon rfl <| global _ _ _ .intreq rfl <|
    global _ _ _ .intena rfl channels

variable {port} (owns : port.Owns fun word => word ∉ sharedWords)
include owns

variable [Floating D]

theorem restoreRegister_copies (snapshot : Snapshot) (ch : Fin 4) (replay : Replay F D σ)
    (reg : Fin 5) :
    (restoreRegister port snapshot ch replay reg).copies port =
      (replay.copies port).restore snapshot.toLatest ch reg := by
  obtain ⟨even, offset⟩ := restored_place ch reg
  rw [restoreRegister_eq, Copies.restore]
  split
  · rw [applyLiveEvent_copies owns (.inr ⟨rfl, even⟩), Copies.writeOffset_eq]
    simp only [restoredEvent, offset, busWord, decode_offset]
    rfl
  · rfl

theorem restoreGlobal_copies (snapshot : Snapshot) {seen address : UInt32} {word : UInt16} (reg : Reg)
    (offset : (address &&& 0xfff).toNat = reg.offset)
    (untracked : ∀ state : LiveState, state.write (0x8000 ||| word) reg = state)
    (replay : Replay F D σ) :
    (restoreGlobal port (snapshot.seenGlobal &&& seen != 0) address (0x8000 ||| word) replay).copies
        port = (replay.copies port).restoreGlobal snapshot.toLatest seen word reg := by
  have latched : (restoreGlobal port (snapshot.seenGlobal &&& seen != 0) address (0x8000 ||| word)
      replay).latched = _ := restoreGlobal_latched port reg offset untracked replay
  rw [Copies.restoreGlobal]
  by_cases ever : snapshot.seenGlobal &&& seen ≠ 0
  · have noted : (snapshot.seenGlobal &&& seen != 0) = true := bne_iff_ne.mpr ever
    have shown := write_shown owns address (0x8000 ||| word) replay.live replay.host
    rw [offset, Shown.writeOffset, decode_offset] at shown
    rw [noted] at latched ⊢
    rw [if_pos ever]
    exact Copies.ext latched shown
  · have noted : (snapshot.seenGlobal &&& seen != 0) = false := bne_eq_false_iff_eq.mpr (not_not.mp ever)
    rw [noted, if_neg ever]
    rfl

variable [Floating F]

/-- A restore leaves the writes of the shadow, whatever was there before. -/
theorem restoreLiveState_copies (snapshot : Snapshot) (before : Replay F D σ) :
    (restoreLiveState port snapshot before).copies port = .ofLatest snapshot.toLatest := by
  let flagged := port.probe (flag · ppFlagCaptureFailed true) before.host
  let cleared : Replay F D σ :=
    ⟨.cleared, (before.live.reset port flagged).1, (before.live.reset port flagged).2⟩
  have started : cleared.copies port = ⟨.reset, .reset⟩ := by
    refine Copies.ext rfl ?_
    change Shown.of (port.metrics (port.probe Live.clearShadow flagged)) = _
    rw [owns.metrics_probe]
    exact Shown.of_clearShadow _
  have channels : ((List.finRange 4).foldl (fun replay ch =>
      (List.finRange 5).foldl (restoreRegister port snapshot ch) replay) cleared).copies port =
        (List.finRange 4).foldl (fun copies ch =>
          (List.finRange 5).foldl (Copies.restore snapshot.toLatest ch) copies) ⟨.reset, .reset⟩ := by
    let shows : Replay F D σ → Copies → Prop := fun replay copies => replay.copies port = copies
    refine List.foldl_rel (r := shows) started fun ch _ _ _ same => ?_
    refine List.foldl_rel (r := shows) same fun reg _ replay _ same => ?_
    exact (restoreRegister_copies owns snapshot ch replay reg).trans
      (congrArg (Copies.restore snapshot.toLatest ch · reg) same)
  have enabled : (enableDma port snapshot (quietRestore port snapshot before)).copies port =
      ((quietRestore port snapshot before).copies port).restoreGlobal snapshot.toLatest 1
        snapshot.dma .dmacon := by
    rw [enableDma, Copies.restoreGlobal]
    split
    · have even : (0xdff096 : UInt32) &&& 1 = 0 := by decide
      have offset : ((0xdff096 : UInt32) &&& 0xffe).toNat = Reg.offset .dmacon := by decide
      rw [applyLiveEvent_copies owns (.inr ⟨rfl, even⟩), Copies.writeOffset_eq]
      simp only [restoredEvent, offset, busWord, decode_offset]
      rfl
    · rfl
  obtain ⟨state, live⟩ := restoreLiveState_eq port snapshot before
  have latched : (restoreLiveState port snapshot before).latched =
      (enableDma port snapshot (quietRestore port snapshot before)).latched :=
    Latched.ext (congrArg (fun live : Live F D => live.core.bank) live) state
  have shown : Shown.of (port.metrics (restoreLiveState port snapshot before).host) =
      .of (port.metrics (enableDma port snapshot (quietRestore port snapshot before)).host) := by
    change Shown.of (port.metrics (port.probe _ (port.probe _ (port.probe _ _)))) = _
    rw [owns.metrics_probe, Shown.of_flag, probe_add_shown owns (by decide),
      probe_add_shown owns (by decide)]
    rfl
  have same : (restoreLiveState port snapshot before).copies port =
      (enableDma port snapshot (quietRestore port snapshot before)).copies port :=
    Copies.ext latched shown
  rw [same, enabled, Copies.ofLatest, quietRestore]
  rw [restoreGlobal_copies owns snapshot .adkcon rfl fun _ => rfl,
    restoreGlobal_copies owns snapshot .intreq rfl fun _ => rfl,
    restoreGlobal_copies owns snapshot .intena rfl fun _ => rfl, channels]

omit owns in
theorem restoreLiveState_restartsMatch (snapshot : Snapshot) (before : Replay F D σ) :
    (restoreLiveState port snapshot before).live.core.RestartsMatch := by
  have quiet := quietRestore_restartsMatch port snapshot before
  rw [(restoreLiveState_eq port snapshot before).2, enableDma]
  split
  · exact applyLiveEvent_restartsMatch port _ quiet
  · exact quiet

end Restore

section Render

variable {port} (owns : port.Owns fun word => word ∉ sharedWords)
variable [Floating F] [Floating D] [Arith F D]

/-- What the copies and the restart flags are to each other, at rest; and the registers that
the copies hold. -/
structure Together (port : Port σ) (programmed : Programmed) (registers : Copies)
    (replay : Replay F D σ) : Prop where
  agree : (replay.copies port).Agree programmed
  restarts : replay.live.core.RestartsMatch
  registers : (replay.copies port).withoutAudio = registers.withoutAudio

variable {programmed : Programmed} {registers : Copies} {state : LiveState} {live : Live F D}
  {host : σ}

theorem Together.renderFrame (owns : port.Owns fun word => word ∉ sharedWords)
    (together : Together port programmed registers (⟨state, live, host⟩ : Replay F D σ)) :
    Together port programmed registers (⟨state, (live.renderFrame port host).2.1,
      (live.renderFrame port host).2.2⟩ : Replay F D σ) := by
  obtain ⟨_, bank, restart, raised, audio, requests⟩ := Live.renderFrame_keeps live host port
  have shown : Shown.of (port.metrics (live.renderFrame port host).2.2) =
      .of (port.metrics host) := by
    refine Shown.of_congr fun word shows => Live.renderFrame_get live host owns shows.own ?_ ?_ ?_
    · exact fun same => absurd (same ▸ shows) (by decide)
    · exact fun same => absurd (same ▸ shows) (by decide)
    · exact fun same => absurd (same ▸ shows) (by decide)
  constructor
  · have raise := together.agree.raise bank audio requests
    rw [Replay.copies, shown]
    exact raise
  · intro ch
    have dmacon : (live.renderFrame port host).2.1.core.dmaCon = live.core.dmaCon :=
      congrArg Bank.dmacon bank
    change ((live.renderFrame port host).2.1.core.channels ch).dmaWantsRestart = _
    rw [restart, dmacon]
    exact together.restarts ch
  · have raise := @Copies.withoutAudio_raise ((⟨state, live, host⟩ : Replay F D σ).copies port) _ bank
      _ audio requests
    rw [Replay.copies, shown]
    exact raise.trans together.registers

theorem Together.renderFrames (owns : port.Owns fun word => word ∉ sharedWords) (frames : Nat)
    (together : Together port programmed registers (⟨state, live, host⟩ : Replay F D σ)) :
    Together port programmed registers (⟨state, (live.renderFrames port frames host).2.1,
      (live.renderFrames port frames host).2.2⟩ : Replay F D σ) := by
  induction frames generalizing live host with
  | zero => exact together
  | succ frames ih => exact ih (together.renderFrame owns)

omit [Floating D] [Arith F D] in
theorem Together.mixerApply (owns : port.Owns fun word => word ∉ sharedWords)
    (together : Together port programmed registers (⟨state, live, host⟩ : Replay F D σ)) :
    Together port programmed registers (⟨state, (live.mixerApply port host).1,
      (live.mixerApply port host).2⟩ : Replay F D σ) := by
  simp only [Live.mixerApply]
  split
  · exact together
  · have mailbox : ¬ Shows pmApplied := by decide
    have bank : (Live.adoptCore (get (port.metrics host) pmRequest) live.core).bank =
        live.core.bank := by
      rw [Live.adoptCore_eq]
      rfl
    have shown : Shown.of (port.metrics (port.probe
        (set · pmApplied (get (port.metrics host) pmRequest)) host)) = .of (port.metrics host) := by
      rw [owns.metrics_probe, Shown.of_set mailbox]
    constructor
    · have agree := together.agree
      simp only [Replay.copies, Replay.latched, Live.adopt, bank, shown] at agree ⊢
      exact agree
    · intro ch
      have kept := together.restarts ch
      change ((Live.adoptCore _ live.core).channels ch).dmaWantsRestart =
        !dmaOn (Live.adoptCore _ live.core).dmaCon ch
      rw [Live.adoptCore_eq]
      exact kept
    · have registers := together.registers
      simp only [Replay.copies, Replay.latched, Live.adopt, bank, shown] at registers ⊢
      exact registers

theorem Together.render (owns : port.Owns fun word => word ∉ sharedWords) (frames : Nat)
    (together : Together port programmed registers (⟨state, live, host⟩ : Replay F D σ)) :
    Together port programmed registers (⟨state, (live.render port frames host).2.1,
      (live.render port frames host).2.2⟩ : Replay F D σ) := by
  obtain ⟨agree, restarts, registers⟩ := (together.mixerApply owns).renderFrames owns frames
  have counted := probe_add_shown owns (show ¬ Shows ppRenderFrames by decide) frames.toUInt32
    ((live.mixerApply port host).1.renderFrames port frames (live.mixerApply port host).2).2.2
  refine ⟨?_, restarts, ?_⟩
  · simp only [Replay.copies, Live.render, counted]
    exact agree
  · simp only [Replay.copies, Live.render, counted]
    exact registers

end Render

section Run

variable [Floating F] [Floating D] [Arith F D]

/-- What the replay loop does to the registers. -/
inductive Operation where
  | apply (event : Event)
  | restore (snapshot : Snapshot)
  | render (frames : Nat)

def Operation.perform (port : Port σ) (replay : Replay F D σ) : Operation → Replay F D σ
  | .apply event => applyLiveEvent port event replay
  | .restore snapshot => restoreLiveState port snapshot replay
  | .render frames =>
      let (_, live, host) := replay.live.render port frames replay.host
      { replay with live := live, host := host }

instance Deliverable.decidable (event : Event) : Decidable (Deliverable event) :=
  inferInstanceAs (Decidable (_ ∨ _))

/-- The LEN registers after an operation. -/
def Operation.programs (programmed : Programmed) : Operation → Programmed
  | .apply event =>
      if Deliverable event then
        programmed.writeOffset (event.address &&& 0xffe).toNat (busWord event.value event.width)
      else programmed
  | .restore snapshot => .ofLatest snapshot.toLatest
  | .render _ => programmed

def run (port : Port σ) (operations : List Operation) (replay : Replay F D σ) : Replay F D σ :=
  operations.foldl (Operation.perform port) replay

def programmed (operations : List Operation) : Programmed :=
  operations.foldl Operation.programs fun _ => none

/-- The registers after an operation: an event writes its register, a restore resets and writes
the registers of the snapshot, and a frame writes none. -/
def Operation.registers (copies : Copies) : Operation → Copies
  | .apply event =>
      if Deliverable event then
        copies.writeOffset (event.address &&& 0xffe).toNat (busWord event.value event.width)
      else copies
  | .restore snapshot => .ofLatest snapshot.toLatest
  | .render _ => copies

def registers (operations : List Operation) : Copies :=
  operations.foldl Operation.registers ⟨.reset, .reset⟩

variable {port}

theorem Together.perform (owns : port.Owns fun word => word ∉ sharedWords)
    {programmed : Programmed} {registers : Copies} {replay : Replay F D σ}
    (together : Together port programmed registers replay) (operation : Operation) :
    Together port (operation.programs programmed) (operation.registers registers)
      (operation.perform port replay) := by
  cases operation with
  | apply event =>
      have restarts := applyLiveEvent_restartsMatch port event together.restarts
      simp only [Operation.perform, Operation.programs, Operation.registers]
      by_cases deliverable : Deliverable event
      · have written := applyLiveEvent_copies owns deliverable replay
        rw [if_pos deliverable, if_pos deliverable]
        refine ⟨?_, restarts, ?_⟩
        · rw [written]
          exact together.agree.writeOffset _ _
        · rw [written]
          exact Copies.writeOffset_congr together.registers _ _
      · have refused := applyLiveEvent_undeliverable owns deliverable replay
        rw [if_neg deliverable, if_neg deliverable]
        exact ⟨refused ▸ together.agree, restarts, refused ▸ together.registers⟩
  | restore snapshot =>
      have copies := restoreLiveState_copies owns snapshot replay
      exact ⟨copies ▸ Copies.ofLatest_agree snapshot.toLatest,
        restoreLiveState_restartsMatch snapshot replay, congrArg Copies.withoutAudio copies⟩
  | render frames => exact together.render owns frames

omit [Arith F D] in
/-- The start of the loop: a blank bank, a new core, and nothing tracked. -/
theorem initial_together (owns : port.Owns fun word => word ∉ sharedWords) {host : σ}
    (blank : port.metrics host = Probe.init) :
    Together port (fun _ => none) ⟨.reset, .reset⟩ (Replay.initial port host : Replay F D σ) := by
  have shown : Shown.of (port.metrics (Replay.initial port host : Replay F D σ).host) = .reset := by
    change Shown.of (port.metrics (port.probe _ host)) = _
    rw [owns.metrics_probe, blank]
    have channels : List.finRange 4 = [0, 1, 2, 3] := rfl
    have period : ∀ (ch : Fin 4) (metrics : Metrics), Shown.of (set metrics (channelCell ch ppChPer) 1) =
        { Shown.of metrics with per := Function.update (Shown.of metrics).per ch 1 } :=
      fun ch metrics => Shown.of_set_cell ch (by decide) 1
    simp only [channels, List.foldl_cons, List.foldl_nil, period]
    refine Shown.ext ?_ ?_ ?_ ?_ ?_ rfl rfl rfl rfl <;> funext ch <;> fin_cases ch <;> rfl
  have same : (Replay.initial port host : Replay F D σ).copies port = ⟨.reset, .reset⟩ :=
    Copies.ext rfl shown
  refine ⟨same ▸ Copies.reset_agree, fun ch => ?_, congrArg Copies.withoutAudio same⟩
  change true = !dmaOn 0 ch
  rw [dmaOn_zero]
  rfl

theorem run_together (owns : port.Owns fun word => word ∉ sharedWords) (host : σ)
    (blank : port.metrics host = Probe.init) (operations : List Operation) :
    Together port (programmed operations) (registers operations)
      (run port operations (.initial port host : Replay F D σ)) := by
  have follows : ∀ operations (replay : Replay F D σ) programmed registers,
      Together port programmed registers replay →
      Together port (operations.foldl Operation.programs programmed)
        (operations.foldl Operation.registers registers) (run port operations replay) := by
    intro operations
    induction operations with
    | nil => exact fun _ _ _ together => together
    | cons operation rest ih => exact fun _ _ _ together => ih _ _ _ (together.perform owns operation)
  exact follows operations _ _ _ (initial_together owns blank)

/-- The host as the firmware starts it: whatever is in the cache, a new bank. -/
def started {chip : Nat → UInt8} (cache : Cache) (upcoming : List (Live.Interference chip)) :
    Live.Host chip := ⟨{ cache with metrics := Probe.init }, upcoming⟩

/-- After any sequence of events, restores and frames the three copies agree. -/
theorem mirrors_never_diverge (chip : Nat → UInt8) (cache : Cache)
    (upcoming : List (Live.Interference chip)) (operations : List Operation) :
    let port := Live.livePort chip
    let replay : Replay F D (Live.Host chip) :=
      run port operations (.initial port (started cache upcoming))
    (replay.copies port).Agree (programmed operations) ∧
      ∀ ch, (replay.live.core.channels ch).dmaWantsRestart = false ↔
        dmaOn replay.live.core.dmaCon ch = true := by
  intro port replay
  obtain ⟨agree, restarts, -⟩ : Together port (programmed operations) (registers operations) replay :=
    run_together (Live.livePort_owns chip) (started cache upcoming) rfl operations
  refine ⟨agree, fun ch => ?_⟩
  rw [restarts ch, Bool.not_eq_false']

end Run

end Paulastorm.Poc
