import Paulastorm.Live.Frame

namespace Paulastorm.Live

/-! The mixer settings of the live mirror, and the diagnostic words that register
writes move. -/

open Paulastorm.Core Probe

variable {F D σ : Type}

section Settings

variable [Floating F]

/-- The mixer settings of a core, replaced. -/
def withMixer (core : Paula F D) (stereo : F) (interp : Interp) (muted : Fin 4 → Bool) :
    Paula F D :=
  { core with stereoSep := stereo, interp := interp, channelMuted := muted }

def wordStereo (word : UInt32) : F :=
  let s : F := ofRat ((word >>> 7) &&& (127 : UInt32)).toNat * ofRat (1 / 100)
  if Floating.lt s (ofRat 0) then ofRat 0 else if Floating.lt (ofRat 1) s then ofRat 1 else s

def wordInterp (word : UInt32) : Interp :=
  if (word >>> 14) &&& (1 : UInt32) ≠ 0 then .linear else .nearest

def wordMuted (word : UInt32) (ch : Fin 4) : Bool :=
  (word >>> 15) &&& (15 : UInt32) &&& (1 <<< UInt32.ofNat ch.val) != 0

/-- Adopting a word replaces the mixer settings and nothing else. -/
theorem adoptCore_eq (word : UInt32) (core : Paula F D) : adoptCore word core =
    withMixer core (wordStereo word) (wordInterp word) (wordMuted word) := by
  have channels : List.finRange 4 = [0, 1, 2, 3] := rfl
  have muted : ∀ (muted : Fin 4 → Bool), Function.update (Function.update (Function.update
      (Function.update muted 0 (wordMuted word 0)) 1 (wordMuted word 1)) 2 (wordMuted word 2)) 3
        (wordMuted word 3) = wordMuted word := by
    intro muted
    funext ch
    fin_cases ch <;> rfl
  simp only [adoptCore, channels, List.foldl_cons, List.foldl_nil]
  exact congrArg (withMixer core (wordStereo word) (wordInterp word)) (muted core.channelMuted)

theorem adoptCore_adoptCore (first second : UInt32) (core : Paula F D) :
    adoptCore second (adoptCore first core) = adoptCore second core := by
  simp only [adoptCore_eq]
  rfl

/-- A core that shows the settings of a word has adopted it. -/
theorem adoptCore_self {word : UInt32} {before after : Paula F D}
    (same : after.settings = (adoptCore word before).settings) : adoptCore word after = after := by
  simp only [adoptCore_eq, Paula.settings, withMixer, Prod.mk.injEq] at same ⊢
  obtain ⟨stereo, interp, muted, _, _⟩ := same
  rw [← stereo, ← interp, ← muted]

/-- Register writes and settings commute. -/
theorem writeRegister16_adoptCore [Floating D] (word : UInt32) (core : Paula F D) (address : UInt32)
    (value : UInt16) : (adoptCore word core).writeRegister16 address value =
      adoptCore word (core.writeRegister16 address value) := by
  simp only [adoptCore_eq, Paula.writeRegister16_eq]
  cases decode (address &&& 0xfff).toNat with
  | none => rfl
  | some reg =>
      cases reg with
      | channel ch reg => cases reg <;> rfl
      | _ => rfl

end Settings

/-- The diagnostic words that register writes move, outside the channel blocks. -/
def shadowWords : List Nat :=
  [ppApplied, ppIgnored, ppAuddatWrites, ppDmacon, ppIntena, ppIntreq, ppAdkcon]

theorem get_writeShadow_outside {word : Nat} (outside : word < 64 ∨ pmMagic ≤ word)
    (other : word ∉ shadowWords)
    (r : Nat) (value : UInt16) (metrics : Metrics) :
    get (writeShadow r value metrics) word = get metrics word := by
  have stored : ∀ index ∈ shadowWords, ∀ metrics number,
      get (set metrics index number) word = get metrics word :=
    fun index member metrics number => get_set_of_ne fun same => other (same ▸ member)
  have counted : ∀ index ∈ shadowWords, ∀ metrics number,
      get (add metrics index number) word = get metrics word :=
    fun index member metrics number => get_add_of_ne fun same => other (same ▸ member)
  have apart : ∀ (ch : Fin 4) (cell : Nat), cell < 8 → word ≠ channelCell ch cell := by
    intro ch cell small same
    simp only [channelCell, pmMagic] at same outside
    omega
  have flags : ∀ (dma : UInt32) (metrics : Metrics),
      get ((List.finRange 4).foldl (flagChannel dma) metrics) word = get metrics word := by
    intro dma metrics
    have channels : List.finRange 4 = [0, 1, 2, 3] := rfl
    simp only [channels, List.foldl_cons, List.foldl_nil, flagChannel,
      get_set_of_ne (apart _ ppChFlags (by decide))]
  have channel : ∀ ch reg metrics,
      get (writeChannelShadow ch reg value metrics) word = get metrics word := by
    intro ch reg metrics
    simp only [writeChannelShadow]
    split_ifs
    all_goals first
      | exact get_set_of_ne (apart _ _ (by decide))
      | exact (counted ppAuddatWrites (by decide) _ _).trans
          (get_set_of_ne (apart _ _ (by decide)))
      | exact counted ppIgnored (by decide) _ _
  have applied := counted ppApplied (by decide) metrics 1
  simp only [writeShadow]
  split_ifs
  · exact (flags _ _).trans ((stored ppDmacon (by decide) _ _).trans applied)
  · exact (stored ppIntena (by decide) _ _).trans applied
  · exact (stored ppIntreq (by decide) _ _).trans applied
  · exact (stored ppAdkcon (by decide) _ _).trans applied
  · exact (get_add_of_ne (apart _ _ (by decide))).trans ((channel _ _ _).trans applied)
  · exact (counted ppIgnored (by decide) _ _).trans applied

theorem get_writeShadow {word : Nat} (below : word < 64) (other : word ∉ shadowWords)
    (r : Nat) (value : UInt16) (metrics : Metrics) :
    get (writeShadow r value metrics) word = get metrics word :=
  get_writeShadow_outside (.inl below) other r value metrics

end Paulastorm.Live
