import Paulastorm.Core.Render

namespace Paulastorm.Core

/-! Rendering latches no register and adopts no setting: it only raises audio
interrupt requests. -/

namespace Paula

variable {F D σ : Type} {p q r : Paula F D}

/-- The mixer settings and the attached callbacks. -/
def settings (p : Paula F D) : F × Interp × (Fin 4 → Bool) × Bool × Bool :=
  (p.stereoSep, p.interp, p.channelMuted, p.read, p.onInterrupt)

/-- From `p` to `q` nothing latched has changed but audio interrupt requests. -/
structure KeepsRegisters (p q : Paula F D) : Prop where
  settings : q.settings = p.settings
  bank : q.bank.withoutIntreq = p.bank.withoutIntreq
  restart : ∀ ch, (q.channels ch).dmaWantsRestart = (p.channels ch).dmaWantsRestart
  intReq : ∃ raised : UInt16, raised &&& 0x0780 = raised ∧ q.intReq = p.intReq ||| raised

theorem KeepsRegisters.refl (p : Paula F D) : KeepsRegisters p p where
  settings := rfl
  bank := rfl
  restart _ := rfl
  intReq := ⟨0, rfl, by simp⟩

theorem KeepsRegisters.trans (first : KeepsRegisters p q) (second : KeepsRegisters q r) :
    KeepsRegisters p r where
  settings := second.settings.trans first.settings
  bank := second.bank.trans first.bank
  restart ch := (second.restart ch).trans (first.restart ch)
  intReq := by
    obtain ⟨early, earlyAudio, middle⟩ := first.intReq
    obtain ⟨late, lateAudio, after⟩ := second.intReq
    refine ⟨early ||| late, ?_, ?_⟩
    · rw [Library.Word.or_and_distrib, earlyAudio, lateAudio]
    · rw [after, middle, UInt16.or_assoc]

/-- A channel with the same latched registers. -/
def Channel.SameRegisters (c d : Channel F D) : Prop :=
  d.locPtrLatched = c.locPtrLatched ∧ d.lenWordsLatched = c.lenWordsLatched ∧
    d.period = c.period ∧ d.volume = c.volume ∧ d.dmaWantsRestart = c.dmaWantsRestart

theorem updateChannel_keeps (p : Paula F D) (ch : Fin 4) {c : Channel F D}
    (same : Channel.SameRegisters (p.channels ch) c) : KeepsRegisters p (p.updateChannel ch c) := by
  obtain ⟨loc, len, period, volume, restart⟩ := same
  refine { settings := rfl, bank := ?_, restart := ?_, intReq := ⟨0, rfl, by simp [updateChannel]⟩ }
  · rw [bank_updateChannel, loc, len, period, volume]
    exact Bank.ext (Function.update_eq_self ch p.bank.loc) (Function.update_eq_self ch p.bank.len)
      (Function.update_eq_self ch p.bank.per) (Function.update_eq_self ch p.bank.vol)
      rfl rfl rfl rfl
  · intro other
    by_cases equal : other = ch
    · subst equal
      rw [updateChannel_self, restart]
    · rw [updateChannel_of_ne p equal]

theorem raise_keeps (p : Paula F D) (ch : Fin 4) :
    KeepsRegisters p (p.raise ch) where
  settings := rfl
  bank := rfl
  restart _ := rfl
  intReq := ⟨intBit ch, by revert ch; decide, rfl⟩

variable (callbacks : Callbacks σ)

theorem reload_keeps (p : Paula F D) (ch : Fin 4) (host : σ) :
    KeepsRegisters p (p.reload callbacks ch host).1 := by
  simp only [reload]
  split
  · refine .trans ?_ (raise_keeps _ ch)
    exact updateChannel_keeps p ch ⟨rfl, rfl, rfl, rfl, rfl⟩
  · exact .refl p

theorem advance_keeps (p : Paula F D) (ch : Fin 4) (host : σ) :
    KeepsRegisters p (p.advanceOneSourceSample callbacks ch host).1 := by
  simp only [advanceOneSourceSample]
  split_ifs
  · exact updateChannel_keeps p ch ⟨rfl, rfl, rfl, rfl, rfl⟩
  · exact updateChannel_keeps p ch ⟨rfl, rfl, rfl, rfl, rfl⟩
  · exact (reload_keeps callbacks p ch host).trans
      (updateChannel_keeps _ ch ⟨rfl, rfl, rfl, rfl, rfl⟩)
  · exact updateChannel_keeps p ch ⟨rfl, rfl, rfl, rfl, rfl⟩

variable [Floating D]

theorem catchUp_keeps (ch : Fin 4) (rounds : Nat) (p : Paula F D) (host : σ) :
    KeepsRegisters p (catchUp callbacks ch rounds (p, host)).1 := by
  induction rounds generalizing p host with
  | zero => exact .refl p
  | succ rounds ih =>
      simp only [catchUp]
      split
      · refine .trans ?_ (ih _ _)
        refine .trans ?_ (advance_keeps callbacks _ ch host)
        exact updateChannel_keeps p ch ⟨rfl, rfl, rfl, rfl, rfl⟩
      · exact .refl p

section Mix

variable [Floating F] [Arith F D]

theorem serviceChannel_keeps (p : Paula F D) (ch : Fin 4) (frame : D) (host : σ) :
    KeepsRegisters p (p.serviceChannel callbacks ch frame host).1.2 := by
  have stepped : KeepsRegisters p (p.addStep ch frame) :=
    updateChannel_keeps p ch ⟨rfl, rfl, rfl, rfl, rfl⟩
  have mixed : ∀ q : Paula F D, KeepsRegisters q (q.mixOut ch).2 :=
    fun q => updateChannel_keeps q ch ⟨rfl, rfl, rfl, rfl, rfl⟩
  exact (stepped.trans (catchUp_keeps callbacks ch _ _ host)).trans (mixed _)

theorem mixChannel_keeps (toSame toOpp : F) (frame : D) (mix : ((F × F) × Paula F D) × σ)
    (ch : Fin 4) : KeepsRegisters mix.1.2 (mixChannel callbacks toSame toOpp frame mix ch).1.2 := by
  have panned : ∀ (out : F × F) (mono : F) (q : Paula F D),
      KeepsRegisters q (pan toSame toOpp ch out mono q).2 := by
    intro out mono q
    simp only [pan]
    split <;> exact ⟨rfl, rfl, fun _ => rfl, 0, rfl, by simp⟩
  exact (serviceChannel_keeps callbacks mix.1.2 ch frame mix.2).trans (panned _ _ _)

/-- One frame leaves every latched register. -/
theorem render_keeps (p : Paula F D) (host : σ) :
    KeepsRegisters p (p.render callbacks host).1.2 := by
  have start : KeepsRegisters p p.beginFrame := ⟨rfl, rfl, fun _ => rfl, 0, rfl, by simp [beginFrame]⟩
  have turns : ∀ (toSame toOpp : F) (frame : D) (channels : List (Fin 4))
      (mix : ((F × F) × Paula F D) × σ),
      KeepsRegisters mix.1.2 (channels.foldl (mixChannel callbacks toSame toOpp frame) mix).1.2 := by
    intro toSame toOpp frame channels
    induction channels with
    | nil => exact fun mix => .refl _
    | cons ch rest ih =>
        intro mix
        exact (mixChannel_keeps callbacks toSame toOpp frame mix ch).trans (ih _)
  exact start.trans (turns _ _ _ _ (((ofRat 0, ofRat 0), p.beginFrame), host))

end Mix

end Paula

end Paulastorm.Core
