import Paulastorm.Live.Frame
import Paulastorm.Mirror.Calls

namespace Paulastorm.Live

/-! The diagnostic bank as a third copy of Paula's registers: what `paula_live_write`
and `paula_live_reset` leave in the words that show them. -/

open Paulastorm.Core Mirror Probe

/-- The registers as the diagnostic bank shows them. -/
@[ext] structure Shown where
  loc : Fin 4 → UInt32
  len : Fin 4 → UInt32
  per : Fin 4 → UInt32
  vol : Fin 4 → UInt32
  flags : Fin 4 → UInt32
  dmacon : UInt32
  intena : UInt32
  intreq : UInt32
  adkcon : UInt32

/-- A word of the bank that shows a register or a DMA flag. -/
def Shows (word : Nat) : Prop :=
  (22 ≤ word ∧ word ≤ 25) ∨ (64 ≤ word ∧ word < 96 ∧ (word % 8 < 4 ∨ word % 8 = 5))

instance Shows.decidable (word : Nat) : Decidable (Shows word) :=
  inferInstanceAs (Decidable (_ ∨ _))

namespace Shown

def of (metrics : Metrics) : Shown where
  loc ch := get metrics (channelCell ch ppChLoc)
  len ch := get metrics (channelCell ch ppChLen)
  per ch := get metrics (channelCell ch ppChPer)
  vol ch := get metrics (channelCell ch ppChVol)
  flags ch := get metrics (channelCell ch ppChFlags)
  dmacon := get metrics ppDmacon
  intena := get metrics ppIntena
  intreq := get metrics ppIntreq
  adkcon := get metrics ppAdkcon

def reset : Shown where
  loc := fun _ => 0
  len := fun _ => 0
  per := fun _ => 1
  vol := fun _ => 0
  flags := fun _ => 0
  dmacon := 0
  intena := 0
  intreq := 0
  adkcon := 0

/-- The set and clear rule on a word of the bank. -/
def setClear (bits : UInt32) (value : UInt16) : UInt32 :=
  if value &&& 0x8000 ≠ 0 then bits ||| (value &&& 0x7fff).toUInt32
  else bits &&& ~~~(value &&& 0x7fff).toUInt32

/-- The DMA flag that a shown DMACON gives a channel. -/
def flag (dma : UInt32) (ch : Fin 4) : UInt32 :=
  if dma &&& 0x200 ≠ 0 ∧ dma &&& (1 <<< UInt32.ofNat ch.val) ≠ 0 then 1 else 0

def write (shown : Shown) (value : UInt16) : Reg → Shown
  | .dmacon => { shown with
      dmacon := setClear shown.dmacon value, flags := flag (setClear shown.dmacon value) }
  | .intena => { shown with intena := setClear shown.intena value }
  | .intreq => { shown with intreq := setClear shown.intreq value }
  | .adkcon => { shown with adkcon := setClear shown.adkcon value }
  | .channel ch .lch => { shown with
      loc := Function.update shown.loc ch (Bank.withHigh (shown.loc ch) value) }
  | .channel ch .lcl => { shown with
      loc := Function.update shown.loc ch (Bank.withLow (shown.loc ch) value) }
  | .channel ch .len => { shown with len := Function.update shown.len ch value.toUInt32 }
  | .channel ch .per => { shown with per := Function.update shown.per ch value.toUInt32 }
  | .channel ch .vol => { shown with vol := Function.update shown.vol ch (value &&& 0x7f).toUInt32 }
  | .channel _ .dat => shown

def writeOffset (shown : Shown) (offset : Nat) (value : UInt16) : Shown :=
  match decode offset with
  | some reg => shown.write value reg
  | none => shown

end Shown

variable {metrics : Metrics}

section Words

theorem Shows.channelCell (ch : Fin 4) {cell : Nat} (registers : cell < 4 ∨ cell = 5) :
    Shows (channelCell ch cell) := by
  have inside := ch.isLt
  refine .inr ⟨?_, ?_, ?_⟩ <;> simp only [Probe.channelCell] <;> omega

theorem not_shows_channelCell (ch : Fin 4) {cell : Nat} (small : cell < 8)
    (counters : ¬ (cell < 4 ∨ cell = 5)) : ¬ Shows (channelCell ch cell) := by
  simp only [Shows, channelCell]
  omega

/-- What the bank shows is in its shown words. -/
theorem Shown.of_congr {other : Metrics}
    (same : ∀ word, Shows word → get other word = get metrics word) : of other = of metrics := by
  refine Shown.ext (funext fun ch => ?_) (funext fun ch => ?_) (funext fun ch => ?_)
    (funext fun ch => ?_) (funext fun ch => ?_) ?_ ?_ ?_ ?_
  · exact same _ (.channelCell ch (by decide))
  · exact same _ (.channelCell ch (by decide))
  · exact same _ (.channelCell ch (by decide))
  · exact same _ (.channelCell ch (by decide))
  · exact same _ (.channelCell ch (by decide))
  · exact same ppDmacon (by decide)
  · exact same ppIntena (by decide)
  · exact same ppIntreq (by decide)
  · exact same ppAdkcon (by decide)

theorem Shown.of_add {index : Nat} (hidden : ¬ Shows index) (value : UInt32) :
    of (add metrics index value) = of metrics :=
  of_congr fun _ shows => get_add_of_ne fun same => hidden (same ▸ shows)

theorem Shown.of_set {index : Nat} (hidden : ¬ Shows index) (value : UInt32) :
    of (set metrics index value) = of metrics :=
  of_congr fun _ shows => get_set_of_ne fun same => hidden (same ▸ shows)

theorem Shown.of_flag (mask : UInt32) (enabled : Bool) :
    of (Probe.flag metrics mask enabled) = of metrics := by
  have hidden : ¬ Shows ppFlags := by decide
  exact of_congr fun _ shows => get_flag_of_ne fun same => hidden (same ▸ shows)

/-- The words that show registers are the live mirror's own. -/
theorem Shows.own {word : Nat} (shows : Shows word) : word ∉ sharedWords := by
  have hidden : ∀ word ∈ sharedWords, ¬ Shows word := by decide
  exact fun shared => hidden word shared shows

theorem get_set_cell (ch other : Fin 4) {cell cell' : Nat} (small : cell < 8) (small' : cell' < 8)
    (value : UInt32) : get (set metrics (channelCell ch cell) value) (channelCell other cell') =
      if other = ch ∧ cell' = cell then value else get metrics (channelCell other cell') := by
  have inside := ch.isLt
  split
  next here =>
    obtain ⟨rfl, rfl⟩ := here
    refine get_set_self ?_ ?_ <;> simp only [channelCell, pmMagic] <;> omega
  next elsewhere =>
    refine get_set_of_ne fun same => elsewhere ?_
    simp only [channelCell] at same
    exact ⟨Fin.ext (by omega), by omega⟩

theorem get_set_cell_global (ch : Fin 4) (cell : Nat) {word : Nat} (global : word < 64)
    (value : UInt32) :
    get (set metrics (channelCell ch cell) value) word = get metrics word := by
  refine get_set_of_ne fun same => ?_
  simp only [channelCell] at same
  omega

end Words

section Cells

/-- A store to a register cell of a channel is seen in that cell only. -/
theorem Shown.of_set_cell (ch : Fin 4) {cell : Nat} (small : cell < 8) (value : UInt32) :
    of (set metrics (channelCell ch cell) value) = { of metrics with
      loc := if cell = ppChLoc then Function.update (of metrics).loc ch value else (of metrics).loc
      len := if cell = ppChLen then Function.update (of metrics).len ch value else (of metrics).len
      per := if cell = ppChPer then Function.update (of metrics).per ch value else (of metrics).per
      vol := if cell = ppChVol then Function.update (of metrics).vol ch value else (of metrics).vol
      flags := if cell = ppChFlags then Function.update (of metrics).flags ch value
        else (of metrics).flags } := by
  have field : ∀ {shown : Nat}, shown < 8 →
      (fun other => get (set metrics (channelCell ch cell) value) (channelCell other shown)) =
        if cell = shown then
          Function.update (fun other => get metrics (channelCell other shown)) ch value
        else fun other => get metrics (channelCell other shown) := by
    intro shown inside
    funext other
    rw [get_set_cell ch other small inside]
    by_cases here : cell = shown
    · subst here
      simp only [and_true, if_true, Function.update_apply]
    · simp only [here, Ne.symm here, and_false, if_false]
  have global : ∀ word < 64,
      get (set metrics (channelCell ch cell) value) word = get metrics word :=
    fun _ below => get_set_cell_global ch cell below value
  exact Shown.ext (field (by decide)) (field (by decide)) (field (by decide)) (field (by decide))
    (field (by decide)) (global ppDmacon (by decide))
    (global ppIntena (by decide)) (global ppIntreq (by decide)) (global ppAdkcon (by decide))

/-- A store to a register without a channel is seen there only. -/
theorem Shown.of_set_global {index : Nat} (metric : 3 ≤ index) (global : index < 64)
    (value : UInt32) : of (set metrics index value) = { of metrics with
      dmacon := if index = ppDmacon then value else (of metrics).dmacon
      intena := if index = ppIntena then value else (of metrics).intena
      intreq := if index = ppIntreq then value else (of metrics).intreq
      adkcon := if index = ppAdkcon then value else (of metrics).adkcon } := by
  have cell : ∀ {shown : Nat}, (fun other => get (set metrics index value) (channelCell other shown)) =
      fun other => get metrics (channelCell other shown) := by
    intro shown
    funext other
    refine get_set_of_ne fun same => ?_
    simp only [channelCell] at same
    omega
  have word : ∀ shown : Nat, get (set metrics index value) shown =
      if index = shown then value else get metrics shown := by
    intro shown
    split
    next here => exact here ▸ get_set_self metric (by simp only [pmMagic]; omega)
    next elsewhere => exact get_set_of_ne (Ne.symm elsewhere)
  exact Shown.ext cell cell cell cell cell (word ppDmacon) (word ppIntena) (word ppIntreq)
    (word ppAdkcon)

end Cells

section Writes

/-- `shadow_setclr` is the set and clear rule. -/
theorem Shown.of_shadowSetclr (metrics : Metrics) (index : Nat) (metric : 3 ≤ index)
    (global : index < 64) (value : UInt16) :
    of (shadowSetclr metrics index value) = { of metrics with
      dmacon := if index = ppDmacon then setClear (get metrics index) value else (of metrics).dmacon
      intena := if index = ppIntena then setClear (get metrics index) value else (of metrics).intena
      intreq := if index = ppIntreq then setClear (get metrics index) value else (of metrics).intreq
      adkcon := if index = ppAdkcon then setClear (get metrics index) value
        else (of metrics).adkcon } :=
  of_set_global metric global _

/-- The flags of all four channels are stored one by one. -/
theorem Shown.of_flagChannels (dma : UInt32) :
    of ((List.finRange 4).foldl (flagChannel dma) metrics) =
      { of metrics with flags := flag dma } := by
  have turn : ∀ (ch : Fin 4) (metrics : Metrics), of (flagChannel dma metrics ch) =
      { of metrics with flags := Function.update (of metrics).flags ch (flag dma ch) } :=
    fun ch metrics => of_set_cell ch (by decide) _
  have channels : List.finRange 4 = [0, 1, 2, 3] := rfl
  simp only [channels, List.foldl_cons, List.foldl_nil, turn]
  congr 1
  funext ch
  fin_cases ch <;> rfl

theorem Shown.of_clearChannel (ch : Fin 4) (metrics : Metrics) :
    of (clearChannel metrics ch) = { of metrics with
      loc := Function.update (of metrics).loc ch 0
      len := Function.update (of metrics).len ch 0
      per := Function.update (of metrics).per ch 1
      vol := Function.update (of metrics).vol ch 0
      flags := Function.update (of metrics).flags ch 0 } := by
  simp only [clearChannel]
  rw [of_set_cell ch (by decide), of_set_cell ch (by decide), of_set_cell ch (by decide),
    of_set_cell ch (by decide), of_set_cell ch (by decide), of_set_cell ch (by decide)]
  rfl

/-- A reset of the live mirror resets what the bank shows. -/
theorem Shown.of_clearShadow (metrics : Metrics) : of (clearShadow metrics) = reset := by
  have channels : List.finRange 4 = [0, 1, 2, 3] := rfl
  simp only [clearShadow, channels, List.foldl_cons, List.foldl_nil, of_clearChannel]
  rw [of_set_global (by decide) (by decide), of_set_global (by decide) (by decide),
    of_set_global (by decide) (by decide), of_set_global (by decide) (by decide)]
  refine Shown.ext ?_ ?_ ?_ ?_ ?_ rfl rfl rfl rfl <;> funext ch <;> fin_cases ch <;> rfl

theorem Shown.of_writeChannelShadow (ch : Fin 4) (reg : ChannelReg) (value : UInt16) :
    of (writeChannelShadow ch (reg.index.val * 2) value metrics) =
      (of metrics).write value (.channel ch reg) := by
  have counted : ¬ Shows ppAuddatWrites := by decide
  have data : ¬ Shows (channelCell ch ppChDat) :=
    not_shows_channelCell ch (by decide) (by decide)
  cases reg with
  | lch => exact of_set_cell ch (by decide) _
  | lcl => exact of_set_cell ch (by decide) _
  | len => exact of_set_cell ch (by decide) _
  | per => exact of_set_cell ch (by decide) _
  | vol => exact of_set_cell ch (by decide) _
  | dat => exact (of_add counted 1).trans (of_set data _)

/-- The decoder of `paula_live_write` is the register map. -/
theorem Shown.of_writeShadow (r : Nat) (value : UInt16) (metrics : Metrics) :
    of (writeShadow r value metrics) = (of metrics).writeOffset r value := by
  have applied : ∀ metrics, of (add metrics ppApplied 1) = of metrics :=
    fun metrics => of_add (by decide) 1
  have word : ∀ word, word ≠ ppApplied → get (add metrics ppApplied 1) word = get metrics word :=
    fun _ => get_add_of_ne
  have ignored : ∀ metrics, of (add metrics ppIgnored 1) = of metrics :=
    fun metrics => of_add (by decide) 1
  have writes : ∀ (ch : Fin 4) metrics, of (add metrics (channelCell ch ppChWrites) 1) = of metrics :=
    fun ch metrics => of_add (not_shows_channelCell ch (by decide) (by decide)) 1
  rw [writeOffset]
  cases found : decode r with
  | none =>
      have missing := decode_eq_none_iff.mp found
      have absent : ∀ (ch : Fin 4) (reg : ChannelReg), r ≠ 0x0a0 + ch.val * 16 + reg.index.val * 2 :=
        fun ch reg same => missing (.channel ch reg) same.symm
      have dmacon : r ≠ 0x096 := fun same => missing .dmacon same.symm
      have intena : r ≠ 0x09a := fun same => missing .intena same.symm
      have intreq : r ≠ 0x09c := fun same => missing .intreq same.symm
      have adkcon : r ≠ 0x09e := fun same => missing .adkcon same.symm
      simp only [writeShadow, if_neg dmacon, if_neg intena, if_neg intreq, if_neg adkcon]
      split
      next block =>
        have lch := absent ⟨(r - 0x0a0) / 16, by omega⟩ .lch
        have lcl := absent ⟨(r - 0x0a0) / 16, by omega⟩ .lcl
        have len := absent ⟨(r - 0x0a0) / 16, by omega⟩ .len
        have per := absent ⟨(r - 0x0a0) / 16, by omega⟩ .per
        have vol := absent ⟨(r - 0x0a0) / 16, by omega⟩ .vol
        have dat := absent ⟨(r - 0x0a0) / 16, by omega⟩ .dat
        simp only [ChannelReg.index, Fin.isValue] at lch lcl len per vol dat
        rw [writes]
        simp only [writeChannelShadow]
        rw [if_neg (by omega), if_neg (by omega), if_neg (by omega), if_neg (by omega),
          if_neg (by omega), if_neg (by omega), ignored, applied]
      next => rw [ignored, applied]
  | some register =>
      have offset := decode_eq_some_iff.mp found
      subst offset
      cases register with
      | channel ch reg =>
          have inside := ch.isLt
          have index := reg.index.isLt
          have block : 0x0a0 ≤ Reg.offset (.channel ch reg) ∧ Reg.offset (.channel ch reg) ≤ 0x0da := by
            simp only [Reg.offset]
            omega
          have number : (⟨(Reg.offset (.channel ch reg) - 0x0a0) / 16, by omega⟩ : Fin 4) = ch := by
            refine Fin.ext ?_
            simp only [Reg.offset]
            omega
          have word : (Reg.offset (.channel ch reg) - 0x0a0) % 16 = reg.index.val * 2 := by
            simp only [Reg.offset]
            omega
          simp only [writeShadow, dif_pos block, number, word]
          rw [if_neg (by omega), if_neg (by omega), if_neg (by omega), if_neg (by omega), writes,
            of_writeChannelShadow, applied]
      | dmacon =>
          have stored := of_shadowSetclr (add metrics ppApplied 1) ppDmacon (by decide) (by decide) value
          have dma := congrArg Shown.dmacon stored
          change of ((List.finRange 4).foldl (flagChannel (of (shadowSetclr _ _ _)).dmacon) _) = _
          rw [of_flagChannels, dma, stored, applied]
          exact congrArg (fun bits => { of metrics with
            dmacon := setClear bits value, flags := flag (setClear bits value) }) (word ppDmacon (by decide))
      | intena =>
          refine (of_shadowSetclr _ ppIntena (by decide) (by decide) value).trans ?_
          rw [applied, word ppIntena (by decide)]
          rfl
      | intreq =>
          refine (of_shadowSetclr _ ppIntreq (by decide) (by decide) value).trans ?_
          rw [applied, word ppIntreq (by decide)]
          rfl
      | adkcon =>
          refine (of_shadowSetclr _ ppAdkcon (by decide) (by decide) value).trans ?_
          rw [applied, word ppAdkcon (by decide)]
          rfl

end Writes

end Paulastorm.Live
