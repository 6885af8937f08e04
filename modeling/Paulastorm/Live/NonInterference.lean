import Paulastorm.Core.Walk
import Paulastorm.Live.Frame
import Paulastorm.Live.Settings
import Paulastorm.Mirror.Calls

namespace Paulastorm

/-! The mixer does not interfere with Paula.

Two runs are compared whose hosts answer alike and whose live mirrors agree but
for the mixer's part.  The words of the bank that the mailbox and the cache move
are left out of the comparison.
-/

open Paulastorm.Core Probe Mirror

/-- The words of the bank that two runs with the same sample bytes may disagree on. -/
def Probe.hiddenWords : List Nat := pmApplied :: sharedWords

def Probe.SameMetrics (first second : Metrics) : Prop :=
  ∀ word, word ∉ hiddenWords → get first word = get second word

/-- A change of the bank that does not look at the hidden words. -/
def Probe.Blind (change : Metrics → Metrics) : Prop :=
  ∀ first second, SameMetrics first second → SameMetrics (change first) (change second)

/-- Related hosts answer alike, and stay related. -/
structure Port.Couples {σ : Type} (port : Port σ) (related : σ → σ → Prop) : Prop where
  symm : ∀ {host host'}, related host host' → related host' host
  readByte : ∀ address {host host'}, related host host' →
    (port.readByte address host).1 = (port.readByte address host').1 ∧
      related (port.readByte address host).2 (port.readByte address host').2
  prefetch : ∀ address length {host host'}, related host host' →
    related (port.prefetch address length host) (port.prefetch address length host')
  renderBegin : ∀ {host host'}, related host host' →
    related (port.renderBegin host) (port.renderBegin host')
  renderMissed : ∀ {host host'}, related host host' →
    port.renderMissed host = port.renderMissed host'
  probe : ∀ {change}, Blind change → ∀ {host host'}, related host host' →
    related (port.probe change host) (port.probe change host')
  applied : ∀ word {host host'}, related host host' →
    related (port.probe (set · pmApplied word) host) host'

namespace Probe

variable {first second third : Metrics}

theorem SameMetrics.refl (metrics : Metrics) : SameMetrics metrics metrics := fun _ _ => rfl

theorem SameMetrics.symm (same : SameMetrics first second) : SameMetrics second first :=
  fun word seen => (same word seen).symm

theorem SameMetrics.trans (left : SameMetrics first second) (right : SameMetrics second third) :
    SameMetrics first third :=
  fun word seen => (left word seen).trans (right word seen)

theorem set_blind (index : Nat) (value : UInt32) : Blind (set · index value) := by
  intro first second same word seen
  by_cases here : word = index
  · subst here
    have other : word ≠ pmApplied := fun applied => seen (applied ▸ List.mem_cons_self)
    simp only [set, other, or_false]
    split
    next writable => rw [get_of_metric writable.1 writable.2, get_of_metric writable.1 writable.2,
      Function.update_self, Function.update_self]
    next => exact same word seen
  · rw [get_set_of_ne here, get_set_of_ne here]
    exact same word seen

theorem SameMetrics.set {first second : Metrics} (same : SameMetrics first second) (index : Nat)
    (value : UInt32) : SameMetrics (Probe.set first index value) (Probe.set second index value) :=
  set_blind index value first second same

theorem add_blind (index : Nat) (value : UInt32) : Blind (add · index value) := by
  intro first second same word seen
  by_cases here : word = index
  · subst here
    by_cases writable : 3 ≤ word ∧ word < pmMagic
    · rw [get_add_self writable.1 writable.2, get_add_self writable.1 writable.2, same word seen]
    · simp only [add, if_neg writable]
      exact same word seen
  · rw [get_add_of_ne here, get_add_of_ne here]
    exact same word seen

theorem flag_blind (mask : UInt32) (enabled : Bool) : Blind (flag · mask enabled) := by
  intro first second same word seen
  have other : word ≠ ppFlags := fun flags => seen (flags ▸ by decide)
  rw [get_flag_of_ne other, get_flag_of_ne other]
  exact same word seen

theorem Blind.comp {inner outer : Metrics → Metrics} (early : Blind inner) (late : Blind outer) :
    Blind fun metrics => outer (inner metrics) :=
  fun first second same => late _ _ (early first second same)

end Probe

namespace Live

section Shadow

theorem channelCell_seen (ch : Fin 4) {cell : Nat} (small : cell < 8) :
    channelCell ch cell ∉ hiddenWords := by
  have apart : ∀ word ∈ hiddenWords, word < 64 ∨ 96 ≤ word := by decide
  have inside := ch.isLt
  intro hidden
  have place := apart _ hidden
  simp only [channelCell] at place
  omega

theorem clearShadow_blind : Blind clearShadow := by
  have channel : ∀ ch first second, SameMetrics first second →
      SameMetrics (clearChannel first ch) (clearChannel second ch) := by
    intro ch first second same
    simp only [clearChannel]
    exact (((((same.set _ _).set _ _).set _ _).set _ _).set _ _).set _ _
  intro first second same
  simp only [clearShadow]
  have globals := (((same.set ppDmacon 0).set ppIntena 0).set ppIntreq 0).set ppAdkcon 0
  exact List.foldl_rel (r := SameMetrics) globals fun ch _ _ _ same => channel ch _ _ same

/-- Storing what is computed from one word that both runs see. -/
theorem set_seen_blind {source : Nat} (seen : source ∉ hiddenWords) (index : Nat)
    (value : UInt32 → UInt32) :
    Blind fun metrics => set metrics index (value (get metrics source)) := by
  intro first second same
  simp only [same source seen]
  exact set_blind index _ first second same

theorem shadowSetclr_blind {index : Nat} (seen : index ∉ hiddenWords) (value : UInt16) :
    Blind (shadowSetclr · index value) :=
  set_seen_blind seen index fun bits => if value &&& 0x8000 ≠ 0 then
    bits ||| (value &&& 0x7fff).toUInt32 else bits &&& ~~~(value &&& 0x7fff).toUInt32

theorem writeChannelShadow_blind (ch : Fin 4) (reg : Nat) (value : UInt16) :
    Blind (writeChannelShadow ch reg value) := by
  have loc := channelCell_seen ch (show ppChLoc < 8 by decide)
  intro first second same
  simp only [writeChannelShadow]
  split_ifs
  · exact set_seen_blind loc _ (fun loc => (loc &&& (0xffff : UInt32)) |||
      (value.toUInt32 <<< (16 : UInt32))) first second same
  · exact set_seen_blind loc _ (fun loc => (loc &&& (0xffff0000 : UInt32)) ||| value.toUInt32)
      first second same
  · exact set_blind _ _ first second same
  · exact set_blind _ _ first second same
  · exact set_blind _ _ first second same
  · exact (set_blind _ _).comp (add_blind _ _) first second same
  · exact add_blind _ _ first second same

theorem writeShadow_blind (r : Nat) (value : UInt16) : Blind (writeShadow r value) := by
  intro first second same
  have counted := add_blind ppApplied 1 first second same
  have stored := shadowSetclr_blind (show ppDmacon ∉ hiddenWords by decide) value _ _ counted
  simp only [writeShadow]
  split_ifs
  · rw [stored ppDmacon (by decide)]
    exact List.foldl_rel (r := SameMetrics) stored
      fun ch _ first second same => set_blind _ _ first second same
  · exact shadowSetclr_blind (by decide) value _ _ counted
  · exact shadowSetclr_blind (by decide) value _ _ counted
  · exact shadowSetclr_blind (by decide) value _ _ counted
  · exact (writeChannelShadow_blind _ _ value).comp (add_blind _ 1) _ _ counted
  · exact add_blind ppIgnored 1 _ _ counted

end Shadow

variable {F D σ : Type} {port : Port σ} {related : σ → σ → Prop} {host host' : σ}

section Coupled

variable (live : Live F D)

theorem prefetch_coupled (couples : port.Couples related) (core : Paula F D)
    (same : related host host') : related (prefetch port core host) (prefetch port core host') := by
  rw [prefetch_eq, prefetch_eq]
  exact List.foldl_rel (r := related) same
    fun window _ _ _ same => couples.prefetch window.1 window.2 same

theorem lookAhead_coupled (couples : port.Couples related) (same : related host host') :
    (live.lookAhead port host).1 = (live.lookAhead port host').1 ∧
      related (live.lookAhead port host).2 (live.lookAhead port host').2 := by
  simp only [lookAhead]
  split_ifs
  · exact ⟨rfl, prefetch_coupled couples live.core same⟩
  · exact ⟨rfl, same⟩

variable [Floating F] [Floating D] [Arith F D]

theorem attempt_coupled (couples : port.Couples related) (core : Paula F D)
    (same : related host host') :
    (attempt port core host).1 = (attempt port core host').1 ∧
      (attempt port core host).2.speculativeIrqs = (attempt port core host').2.speculativeIrqs ∧
      related (attempt port core host).2.host (attempt port core host').2.host := by
  have follows : Follows (callbacks port) (callbacks port) (fun _ => False) fun state other =>
      state.renderAttempt = other.renderAttempt ∧ state.speculativeIrqs = other.speculativeIrqs ∧
        related state.host other.host := by
    refine ⟨fun _ _ => id, fun _ _ => id, ?_, ?_⟩
    · rintro address state other ⟨attempts, irqs, same⟩
      obtain ⟨byte, after⟩ := couples.readByte address same
      exact .inr ⟨byte, attempts, irqs, after⟩
    · rintro bits state other ⟨attempts, irqs, same⟩
      simp only [callbacks, attempts]
      split_ifs
      · exact ⟨rfl, congrArg (· + 1) irqs, same⟩
      · exact ⟨rfl, irqs, couples.probe (add_blind _ _) same⟩
  have agrees : Agrees _ _ (attempt port core host) (attempt port core host') :=
    Paula.render_agrees follows core ⟨rfl, rfl, couples.renderBegin same⟩
  obtain ⟨out, _, irqs, after⟩ := agrees.resolve_left id
  exact ⟨out, irqs, after⟩

/-- On related hosts a mirror renders the same frame. -/
theorem renderFrame_coupled (couples : port.Couples related) (same : related host host') :
    (live.renderFrame port host).2.1 = (live.renderFrame port host').2.1 ∧
      related (live.renderFrame port host).2.2 (live.renderFrame port host').2.2 := by
  obtain ⟨looked, ahead⟩ := lookAhead_coupled live couples same
  obtain ⟨out, irqs, after⟩ := attempt_coupled couples (live.lookAhead port host').1.core ahead
  simp only [renderFrame, looked, out, irqs, couples.renderMissed after]
  split_ifs
  · exact ⟨rfl, couples.probe (add_blind _ _) after⟩
  · simp only [commit]
    split_ifs
    · exact ⟨trivial, couples.probe (add_blind _ _) (couples.probe (add_blind _ _) after)⟩
    · exact ⟨trivial, couples.probe (add_blind _ _) after⟩
    · exact ⟨trivial, couples.probe (add_blind _ _) after⟩
    · exact ⟨trivial, after⟩

end Coupled

/-- Two live mirrors that differ in the mixer's part only. -/
structure Same (first second : Live F D) : Prop where
  dma : first.core.dma = second.core.dma
  renderAttempt : first.renderAttempt = second.renderAttempt
  speculativeIrqs : first.speculativeIrqs = second.speculativeIrqs
  waitingForCache : first.waitingForCache = second.waitingForCache
  outputGate : first.outputGate = second.outputGate
  prefetchCountdown : first.prefetchCountdown = second.prefetchCountdown

theorem Same.refl (live : Live F D) : Same live live := ⟨rfl, rfl, rfl, rfl, rfl, rfl⟩

theorem Same.symm {first second : Live F D} (same : Same first second) : Same second first :=
  ⟨same.dma.symm, same.renderAttempt.symm, same.speculativeIrqs.symm, same.waitingForCache.symm,
    same.outputGate.symm, same.prefetchCountdown.symm⟩

theorem Same.trans {first second third : Live F D} (left : Same first second)
    (right : Same second third) : Same first third :=
  ⟨left.dma.trans right.dma, left.renderAttempt.trans right.renderAttempt,
    left.speculativeIrqs.trans right.speculativeIrqs,
    left.waitingForCache.trans right.waitingForCache, left.outputGate.trans right.outputGate,
    left.prefetchCountdown.trans right.prefetchCountdown⟩

section Frame

variable {first second : Live F D}

theorem prefetch_same (same : Same first second) (host : σ) :
    prefetch port first.core host = prefetch port second.core host := by
  rw [prefetch_eq, prefetch_eq, Paula.fetchState_of_dma same.dma]

theorem lookAhead_same (port : Port σ) (same : Same first second) (host : σ) :
    Same (first.lookAhead port host).1 (second.lookAhead port host).1 ∧
      (first.lookAhead port host).2 = (second.lookAhead port host).2 := by
  simp only [lookAhead, same.prefetchCountdown, prefetch_same same]
  split_ifs
  · exact ⟨{ same with prefetchCountdown := rfl }, trivial⟩
  · exact ⟨{ same with prefetchCountdown := rfl }, trivial⟩

variable [Floating F]

theorem hold_same (same : Same first second) (host : σ) :
    Same (first.hold port host).2.1 (second.hold port host).2.1 ∧
      (first.hold port host).2.2 = (second.hold port host).2.2 := by
  simp only [hold, same.outputGate, same.waitingForCache, same.prefetchCountdown]
  exact ⟨⟨same.dma, same.renderAttempt, rfl, rfl, rfl, rfl⟩, trivial⟩

theorem commit_same (same : Same first second) (mix mix' : F × F) (irqs : UInt32) (host : σ) :
    Same (first.commit port mix irqs host).2.1 (second.commit port mix' irqs host).2.1 ∧
      (first.commit port mix irqs host).2.2 = (second.commit port mix' irqs host).2.2 := by
  simp only [commit, same.outputGate, same.waitingForCache]
  exact ⟨⟨same.dma, same.renderAttempt, rfl, rfl, rfl, same.prefetchCountdown⟩, trivial⟩

variable [Floating D] [Arith F D]

/-- On one host, mirrors that differ in the mixer's part render the same frame of it. -/
theorem renderFrame_same (port : Port σ) (same : Same first second) (host : σ) :
    Same (first.renderFrame port host).2.1 (second.renderFrame port host).2.1 ∧
      (first.renderFrame port host).2.2 = (second.renderFrame port host).2.2 := by
  obtain ⟨looked, called⟩ := lookAhead_same port same host
  obtain ⟨core, state⟩ := Paula.render_dma (callbacks port) same.dma
    ⟨true, 0, port.renderBegin (first.lookAhead port host).2⟩
  have speculated : (speculation first host port).2 = (speculation second host port).2 := by
    refine state.trans ?_
    rw [called]
    rfl
  have cores : (speculation first host port).1.2.dma = (speculation second host port).1.2.dma := by
    refine core.trans ?_
    rw [called]
    rfl
  have missed : first.frameMissed host port = second.frameMissed host port := by
    rw [frameMissed, frameMissed, speculated]
  have attempted : Same (first.attempted host port) (second.attempted host port) :=
    { looked with
      renderAttempt := rfl
      speculativeIrqs := congrArg Speculation.speculativeIrqs speculated }
  rw [renderFrame_eq, renderFrame_eq, ← missed, speculated]
  split
  · exact hold_same attempted _
  · have complete : Same
        { first.attempted host port with core := (speculation first host port).1.2 }
        { second.attempted host port with core := (speculation second host port).1.2 } :=
      ⟨cores, attempted.renderAttempt, attempted.speculativeIrqs, attempted.waitingForCache,
        attempted.outputGate, attempted.prefetchCountdown⟩
    exact commit_same complete _ _ _ _

end Frame

/-- Mirrors that differ in the mixer's part only, on related hosts. -/
structure Alike (related : σ → σ → Prop) (first : Live F D) (host : σ) (second : Live F D)
    (host' : σ) : Prop where
  live : Same first second
  host : related host host'

section Alike

variable {first second : Live F D}

theorem Alike.symm (couples : port.Couples related)
    (alike : Alike related first host second host') : Alike related second host' first host :=
  ⟨alike.live.symm, couples.symm alike.host⟩

theorem prefetch_alike (couples : port.Couples related)
    (alike : Alike related first host second host') :
    related (prefetch port first.core host) (prefetch port second.core host') := by
  rw [prefetch_same alike.live]
  exact prefetch_coupled couples second.core alike.host

theorem write_alike [Floating D] (couples : port.Couples related)
    (alike : Alike related first host second host') (address : UInt32) (value : UInt16) :
    Alike related (first.write port address value host).1 (first.write port address value host).2
      (second.write port address value host').1 (second.write port address value host').2 where
  live := ⟨Paula.writeRegister16_dma alike.live.dma address value, alike.live.renderAttempt,
    alike.live.speculativeIrqs, alike.live.waitingForCache, alike.live.outputGate,
    alike.live.prefetchCountdown⟩
  host := couples.probe (writeShadow_blind _ value) alike.host

variable [Floating F]

theorem reset_alike [Floating D] (couples : port.Couples related)
    (alike : Alike related first host second host') :
    Alike related (first.reset port host).1 (first.reset port host).2
      (second.reset port host').1 (second.reset port host').2 where
  live := ⟨Paula.reset_dma alike.live.dma, rfl, rfl, rfl, rfl, rfl⟩
  host := couples.probe clearShadow_blind alike.host

theorem adopt_same (word : UInt32) (live : Live F D) : Same (live.adopt word) live := by
  refine ⟨?_, rfl, rfl, rfl, rfl, rfl⟩
  change (adoptCore word live.core).dma = live.core.dma
  rw [adoptCore_eq]
  rfl

/-- Adopting a mailbox word touches the mixer's part and the mailbox. -/
theorem mixerApply_alike (couples : port.Couples related)
    (alike : Alike related first host second host') :
    Alike related (first.mixerApply port host).1 (first.mixerApply port host).2 second host' := by
  simp only [mixerApply]
  split_ifs
  · exact alike
  · exact ⟨(adopt_same _ first).trans alike.live, couples.applied _ alike.host⟩

theorem mixerApply_alike_both (couples : port.Couples related)
    (alike : Alike related first host second host') :
    Alike related (first.mixerApply port host).1 (first.mixerApply port host).2
      (second.mixerApply port host').1 (second.mixerApply port host').2 :=
  (mixerApply_alike couples ((mixerApply_alike couples alike).symm couples)).symm couples

variable [Floating D] [Arith F D]

theorem renderFrame_alike (couples : port.Couples related)
    (alike : Alike related first host second host') :
    Alike related (first.renderFrame port host).2.1 (first.renderFrame port host).2.2
      (second.renderFrame port host').2.1 (second.renderFrame port host').2.2 := by
  obtain ⟨live, called⟩ := renderFrame_coupled first couples alike.host
  obtain ⟨same, called'⟩ := renderFrame_same port alike.live host'
  refine ⟨?_, ?_⟩
  · rw [live]
    exact same
  · rw [← called']
    exact called

end Alike

end Live

end Paulastorm
