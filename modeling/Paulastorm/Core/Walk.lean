import Paulastorm.Core.Render

namespace Paulastorm.Core

/-! The DMA walk does not look at the mixer.

The core is split in two: the settings and ramps of the mixer, and the rest.
Whatever the first part holds, rendering and register writes do the same to the
second part and to the host.
-/

/-- The mixer settings and their ramps. -/
structure MixState (F : Type) where
  interp : Interp
  stereoSep : F
  channelMuted : Fin 4 → Bool
  channelMixGain : Fin 4 → F
  stereoCurrent : F

/-- The rest of the core: the registers, the DMA cursors and the volume glides. -/
@[ext] structure DmaState (F D : Type) where
  clockHz : D
  gainSmoothCoeff : F
  read : Bool
  onInterrupt : Bool
  channels : Fin 4 → Channel F D
  dmaCon : UInt16
  intReq : UInt16
  intEna : UInt16
  adkCon : UInt16
  vhposrCounter : UInt16

namespace Paula

variable {F D σ : Type}

def dma (p : Paula F D) : DmaState F D where
  clockHz := p.clockHz
  gainSmoothCoeff := p.gainSmoothCoeff
  read := p.read
  onInterrupt := p.onInterrupt
  channels := p.channels
  dmaCon := p.dmaCon
  intReq := p.intReq
  intEna := p.intEna
  adkCon := p.adkCon
  vhposrCounter := p.vhposrCounter

def mixState (p : Paula F D) : MixState F where
  interp := p.interp
  stereoSep := p.stereoSep
  channelMuted := p.channelMuted
  channelMixGain := p.channelMixGain
  stereoCurrent := p.stereoCurrent

def withMixState (p : Paula F D) (mix : MixState F) : Paula F D :=
  { p with
    interp := mix.interp
    stereoSep := mix.stereoSep
    channelMuted := mix.channelMuted
    channelMixGain := mix.channelMixGain
    stereoCurrent := mix.stereoCurrent }

/-- Cores with the same DMA state differ in the mixer only. -/
theorem eq_withMixState {p q : Paula F D} (same : p.dma = q.dma) : q = p.withMixState q.mixState := by
  obtain ⟨_, _, _, _, _, _, _, _, _, _, _, _, _, _, _⟩ := p
  obtain ⟨_, _, _, _, _, _, _, _, _, _, _, _, _, _, _⟩ := q
  simp only [dma, DmaState.mk.injEq] at same
  obtain ⟨rfl, rfl, rfl, rfl, rfl, rfl, rfl, rfl, rfl, rfl⟩ := same
  rfl

/-- The lookahead windows are part of the DMA state. -/
theorem fetchState_of_dma {p q : Paula F D} (same : p.dma = q.dma) : p.fetchState = q.fetchState := by
  rw [eq_withMixState same]
  rfl

theorem reset_dma [Floating F] [Floating D] {p q : Paula F D} (same : p.dma = q.dma) :
    p.reset.dma = q.reset.dma := by
  rw [eq_withMixState same]
  rfl

theorem writeRegister16_dma [Floating D] {p q : Paula F D} (same : p.dma = q.dma) (addr : UInt32)
    (value : UInt16) : (p.writeRegister16 addr value).dma = (q.writeRegister16 addr value).dma := by
  rw [eq_withMixState same, writeRegister16_eq, writeRegister16_eq]
  cases decode (addr &&& 0xfff).toNat with
  | none => rfl
  | some reg =>
      cases reg with
      | channel ch reg => cases reg <;> rfl
      | _ => rfl

variable (callbacks : Callbacks σ) (mix : MixState F)

theorem advance_withMixState (p : Paula F D) (ch : Fin 4) (host : σ) :
    (p.withMixState mix).advanceOneSourceSample callbacks ch host =
      ((p.advanceOneSourceSample callbacks ch host).1.withMixState mix,
        (p.advanceOneSourceSample callbacks ch host).2) := by
  have read : (p.withMixState mix).read = p.read := rfl
  have dmaCon : (p.withMixState mix).dmaCon = p.dmaCon := rfl
  have channels : (p.withMixState mix).channels = p.channels := rfl
  have reload : (p.withMixState mix).reload callbacks ch host =
      ((p.reload callbacks ch host).1.withMixState mix, (p.reload callbacks ch host).2) := by
    simp only [Paula.reload, channels]
    split <;> rfl
  simp only [advanceOneSourceSample, read, dmaCon, channels, reload]
  split_ifs <;> rfl

variable [Floating D]

theorem catchUp_withMixState (ch : Fin 4) (rounds : Nat) (p : Paula F D) (host : σ) :
    catchUp callbacks ch rounds (p.withMixState mix, host) =
      ((catchUp callbacks ch rounds (p, host)).1.withMixState mix,
        (catchUp callbacks ch rounds (p, host)).2) := by
  induction rounds generalizing p host with
  | zero => rfl
  | succ rounds ih =>
      have channels : (p.withMixState mix).channels = p.channels := rfl
      have updated : ∀ c, (p.withMixState mix).updateChannel ch c =
          (p.updateChannel ch c).withMixState mix := fun _ => rfl
      simp only [catchUp, channels]
      split
      · rw [updated, advance_withMixState, ih]
      · rfl

variable [Floating F] [Arith F D]

theorem serviceChannel_dma {p q : Paula F D} (same : p.dma = q.dma) (ch : Fin 4) (frame : D)
    (host : σ) : (p.serviceChannel callbacks ch frame host).1.2.dma =
        (q.serviceChannel callbacks ch frame host).1.2.dma ∧
      (p.serviceChannel callbacks ch frame host).2 = (q.serviceChannel callbacks ch frame host).2 := by
  have mixed : ∀ (p : Paula F D) mix, ((p.withMixState mix).mixOut ch).2.dma = (p.mixOut ch).2.dma :=
    fun _ _ => rfl
  have stepped : (p.withMixState q.mixState).addStep ch frame =
      (p.addStep ch frame).withMixState q.mixState := rfl
  have channels : ((p.addStep ch frame).withMixState q.mixState).channels =
      (p.addStep ch frame).channels := rfl
  rw [eq_withMixState same]
  simp only [serviceChannel]
  rw [stepped, channels, catchUp_withMixState]
  exact ⟨(mixed _ _).symm, rfl⟩

theorem mixChannel_dma (toSame toSame' toOpp toOpp' : F) (frame : D)
    {before after : ((F × F) × Paula F D) × σ} (same : before.1.2.dma = after.1.2.dma)
    (host : before.2 = after.2) (ch : Fin 4) :
    (mixChannel callbacks toSame toOpp frame before ch).1.2.dma =
        (mixChannel callbacks toSame' toOpp' frame after ch).1.2.dma ∧
      (mixChannel callbacks toSame toOpp frame before ch).2 =
        (mixChannel callbacks toSame' toOpp' frame after ch).2 := by
  have panned : ∀ (toSame toOpp : F) (mix : F × F) (mono : F) (p : Paula F D),
      (pan toSame toOpp ch mix mono p).2.dma = p.dma := by
    intro toSame toOpp mix mono p
    simp only [pan]
    split <;> rfl
  obtain ⟨⟨mix, p⟩, first⟩ := before
  obtain ⟨⟨mix', q⟩, second⟩ := after
  cases host
  obtain ⟨served, called⟩ := serviceChannel_dma callbacks same ch frame first
  simp only [mixChannel]
  rw [panned, panned]
  exact ⟨served, called⟩

/-- One frame moves the DMA state and the host alike, whatever the mixer holds. -/
theorem render_dma {p q : Paula F D} (same : p.dma = q.dma) (host : σ) :
    (p.render callbacks host).1.2.dma = (q.render callbacks host).1.2.dma ∧
      (p.render callbacks host).2 = (q.render callbacks host).2 := by
  have turns : ∀ (toSame toSame' toOpp toOpp' : F) (frame : D) (channels : List (Fin 4))
      (before after : ((F × F) × Paula F D) × σ), before.1.2.dma = after.1.2.dma →
      before.2 = after.2 →
      (channels.foldl (mixChannel callbacks toSame toOpp frame) before).1.2.dma =
          (channels.foldl (mixChannel callbacks toSame' toOpp' frame) after).1.2.dma ∧
        (channels.foldl (mixChannel callbacks toSame toOpp frame) before).2 =
          (channels.foldl (mixChannel callbacks toSame' toOpp' frame) after).2 := by
    intro toSame toSame' toOpp toOpp' frame channels
    induction channels with
    | nil => exact fun _ _ same host => ⟨same, host⟩
    | cons ch rest ih =>
        intro before after same host
        obtain ⟨same, host⟩ := mixChannel_dma callbacks toSame toSame' toOpp toOpp' frame same host ch
        exact ih _ _ same host
  have begun : p.beginFrame.dma = q.beginFrame.dma := by
    rw [eq_withMixState same]
    rfl
  exact turns _ _ _ _ _ _ _ _ begun rfl

end Paula

end Paulastorm.Core
