import Mathlib.Tactic.FinCases
import Paulastorm.Library.Transition
import Paulastorm.Mixer

namespace Paulastorm.PaulaMixer

/-! The mixer panel that runs on the Amiga, against the mailbox.

The panel keeps a copy of the settings, which the user, the mailbox and the
firmware's flags change in turn.
-/

open Library Probe

inductive Slider where
  | master
  | stereo
deriving DecidableEq, Repr

/-- The gadgets by their `GadgetID`; text has none. -/
inductive Gadget where
  | text
  | slider (slider : Slider)
  | interp
  | mute (ch : Fin 4)
  | defaults
  | close
deriving DecidableEq, Repr

/-- The panel's variables.  Texts and the gadgets' own attributes are left out. -/
structure Panel where
  master : UInt32 := 100
  stereo : UInt32 := 100
  interp : UInt32 := 0
  mute : Fin 4 → UInt32 := fun _ => 0
  backend : Bool := false
  initialized : Bool := false
  activeSlider : Option Slider := none
  requestedWord : UInt32 := 0
  remoteDefaults : UInt32 := pmDefault
  running : Bool := true

/-- What one gesture is meant to change. -/
inductive Field where
  | slider (slider : Slider)
  | interp
  | mute (ch : Fin 4)
  | all
deriving DecidableEq, Repr

/-- A word that was written for a gesture, and the word loaded or sent before it. -/
structure Written where
  field : Field
  base : UInt32
  word : UInt32
deriving DecidableEq, Repr

/-- The panel and the probe.  The code does not read the rest: the word that was last
loaded or sent, the words that were written, and the sliders that the user holds. -/
structure State where
  panel : Panel
  metrics : Metrics
  last : UInt32 := 0
  written : List Written := []
  held : Slider → Bool := fun _ => false

def readWord (index : Nat) (state : State) : UInt32 := get state.metrics index

def State.request (state : State) : UInt32 := readWord pmRequest state

/-- The bits of the muted channels. -/
def muteMask (mute : Fin 4 → UInt32) : UInt32 :=
  (List.finRange 4).foldl
    (fun mask ch => if mute ch ≠ 0 then mask ||| ((1 : UInt32) <<< ch.val.toUInt32) else mask) 0

def Panel.settingsWord (panel : Panel) : UInt32 :=
  mixerPack panel.master panel.stereo panel.interp (muteMask panel.mute)

def Panel.loadSettings (word : UInt32) (panel : Panel) : Panel :=
  if mixerValid word then
    { panel with
      master := word &&& (127 : UInt32)
      stereo := (word >>> 7) &&& (127 : UInt32)
      interp := (word >>> 14) &&& (1 : UInt32)
      mute := fun ch => (word >>> (15 + ch.val.toUInt32)) &&& (1 : UInt32) }
  else panel

def loadSettings (word : UInt32) (state : State) : State :=
  { state with
    panel := state.panel.loadSettings word
    last := if mixerValid word then word else state.last }

/-- A long write to a word of the probe. -/
def writeWord (index : Nat) (value : UInt32) (state : State) : State :=
  let address := probeBase + 4 * index.toUInt64
  { state with metrics := (busWrite state.metrics value.toUInt64 4 address).2 }

/-- The backend is lost and no slider is followed any more. -/
def Panel.detach (panel : Panel) : Panel :=
  { panel with backend := false, initialized := false, activeSlider := none }

def sendSettings (field : Field) (state : State) : State :=
  if !state.panel.backend || !state.panel.initialized then state
  else
    let word := state.panel.settingsWord
    if !mixerValid word then state
    else
      let state := writeWord pmRequest word
        { state with
          last := word
          written := ⟨field, state.last, word⟩ :: state.written }
      let requested := readWord pmRequest state
      let panel := { state.panel with requestedWord := requested }
      { state with panel := if requested ≠ word then panel.detach else panel }

def present (state : State) : Bool :=
  readWord ppMagic state == probeMagic && readWord ppVersion state == probeVersion &&
    readWord ppWords state == probeWords.toUInt32

def available (state : State) : Bool :=
  let flags := if present state then readWord ppFlags state else 0
  present state &&
    (flags &&& (ppFlagHdmiReady ||| ppFlagRendering)) == ppFlagHdmiReady ||| ppFlagRendering &&
    (flags &&& ppFlagMaiFailed) == 0 &&
    readWord pmMagic state == mixerMagic && readWord pmVersion state == mixerVersion

/-- `update_values` when the backend appears. -/
def attach (state : State) : State :=
  let word := readWord pmRequest state
  let defaults := readWord pmDefaults state
  if mixerValid word && mixerValid defaults then
    let panel := state.panel
    let state := { state with
      panel := { panel with backend := true, remoteDefaults := defaults, requestedWord := word } }
    let state := loadSettings word state
    { state with panel.initialized := true }
  else state

/-- `update_values` while the backend is there. -/
def follow (state : State) : State :=
  let word := readWord pmRequest state
  if mixerValid word then
    if word ≠ state.panel.requestedWord ∧ state.panel.activeSlider = none then
      let state := loadSettings word state
      { state with panel.requestedWord := word }
    else state
  -- the slider is not released here
  else { state with panel.backend := false, panel.initialized := false }

def updateValues (state : State) : State :=
  let state :=
    if available state && !state.panel.backend then attach state
    else if !available state && state.panel.backend then { state with panel := state.panel.detach }
    else state
  if state.panel.backend then follow state else state

def defaults (state : State) : State :=
  if !state.panel.backend then state
  else updateValues (sendSettings .all (loadSettings state.panel.remoteDefaults state))

/-- The messages of the window that the panel asks for. -/
inductive Class where
  | closeWindow
  | vanillaKey
  | refreshWindow
  | gadgetDown
  | gadgetUp
  | mouseMove
deriving DecidableEq, Repr

def Panel.setSlider (slider : Slider) (code : UInt16) (panel : Panel) : Panel :=
  match slider with
  | .master => { panel with master := code.toUInt32 }
  | .stereo => { panel with stereo := code.toUInt32 }

def Panel.grab (cls : Class) (slider : Slider) (panel : Panel) : Panel :=
  if cls = .gadgetDown then { panel with activeSlider := some slider }
  else if cls = .gadgetUp then { panel with activeSlider := none }
  else panel

/-- The chain of tests that handles a gadget's message. -/
def gesture (cls : Class) (id : Gadget) (code : UInt16) (state : State) : State :=
  let backend := state.panel.backend
  match id with
  | .slider slider =>
      if backend ∧ code ≤ 100 then
        sendSettings (.slider slider)
          { state with panel := (state.panel.setSlider slider code).grab cls slider }
      else state
  | .interp =>
      if backend ∧ cls = .gadgetUp then
        sendSettings .interp { state with panel.interp := code.toUInt32 }
      else state
  | .mute ch =>
      if backend then
        sendSettings (.mute ch)
          { state with
            panel.mute := Function.update state.panel.mute ch (if code ≠ 0 then 1 else 0) }
      else state
  | .defaults => if cls = .gadgetUp then defaults state else state
  | .close => if cls = .gadgetUp then { state with panel.running := false } else state
  | .text => state

/-- One message of the window's port. -/
def message (cls : Class) (address : Gadget) (code : UInt16) (state : State) : State :=
  let active := state.panel.activeSlider
  let id := if cls = .mouseMove then (active.map Gadget.slider).getD .text else address
  if cls = .closeWindow ∨ (cls = .vanillaKey ∧ code = 27) then
    { state with panel.running := false }
  else if cls = .refreshWindow then updateValues state
  else if cls = .gadgetUp ∨ cls = .gadgetDown ∨ (cls = .mouseMove ∧ active ≠ none) then
    updateValues (gesture cls id code state)
  else state

/-- What reaches the panel, and what happens to the probe outside it. -/
inductive Event where
  | message (cls : Class) (address : Gadget) (code : UInt16)
  | timer
  | guestWrite (value : UInt64) (size : Nat) (address : UInt64)
  | report (index : Nat) (value : UInt32)
  | flag (mask : UInt32) (enabled : Bool)
deriving DecidableEq, Repr

/-- The user presses or releases a slider. -/
def State.hold (cls : Class) (address : Gadget) (state : State) : State :=
  match address with
  | .slider slider =>
      if cls = .gadgetDown then { state with held := Function.update state.held slider true }
      else if cls = .gadgetUp then { state with held := Function.update state.held slider false }
      else state
  | _ => state

def handle : Event → State → State
  | .message cls address code, state => message cls address code (state.hold cls address)
  | .timer, state => updateValues state
  | .guestWrite value size address, state =>
      { state with metrics := (busWrite state.metrics value size address).2 }
  | .report index value, state => { state with metrics := Probe.set state.metrics index value }
  | .flag mask enabled, state => { state with metrics := Probe.flag state.metrics mask enabled }

def machine : Machine State Event := ⟨fun event state => some (handle event state)⟩

/-- The panel as `main` enters its loop. -/
def opened (metrics : Metrics) : State := updateValues { panel := {}, metrics }

def Gadget.isSlider : Gadget → Bool
  | .slider _ => true
  | _ => false

/-- A slider's level is between 0 and 100. -/
def inRange : Event → Prop
  | .message cls address code =>
      cls = .mouseMove ∨ ((cls = .gadgetDown ∨ cls = .gadgetUp) ∧ address.isSlider) → code ≤ 100
  | _ => True

/-- The events of a run in which the user's sliders stay in range. -/
def described (event : Event) (_ : State) : Prop := inRange event

instance (event : Event) (state : State) : Decidable (described event state) :=
  match event with
  | .message cls address code =>
      inferInstanceAs (Decidable (cls = .mouseMove ∨
        ((cls = .gadgetDown ∨ cls = .gadgetUp) ∧ address.isSlider) → code ≤ 100))
  | .timer => isTrue trivial
  | .guestWrite _ _ _ => isTrue trivial
  | .report _ _ => isTrue trivial
  | .flag _ _ => isTrue trivial

def Event.external : Event → Bool
  | .guestWrite _ _ _ => true
  | _ => false

/-- The bits of a word that a gesture may change. -/
def Field.mask : Field → UInt32
  | .slider .master => 127
  | .slider .stereo => (127 : UInt32) <<< 7
  | .interp => (1 : UInt32) <<< 14
  | .mute ch => (1 : UInt32) <<< (15 + ch.val.toUInt32)
  | .all => 0xffffffff

/-- A valid word that differs from the one before it in its own field only. -/
def Written.Sound (sent : Written) : Prop :=
  mixerValid sent.word = true ∧
    sent.base &&& ~~~sent.field.mask = sent.word &&& ~~~sent.field.mask

section Words

variable {panel : Panel} {word keep : UInt32}

theorem muteMask_eq (mute : Fin 4 → UInt32) : muteMask mute =
    (if mute 0 ≠ 0 then 1 else 0) ||| (if mute 1 ≠ 0 then 2 else 0) |||
      (if mute 2 ≠ 0 then 4 else 0) ||| (if mute 3 ≠ 0 then 8 else 0) := by
  change [(0 : Fin 4), 1, 2, 3].foldl _ 0 = _
  simp only [List.foldl]
  split_ifs <;> rfl

theorem muteMask_toNat (mute : Fin 4 → UInt32) : (muteMask mute).toNat =
    (if mute 0 ≠ 0 then 1 else 0) + (if mute 1 ≠ 0 then 2 else 0) +
      (if mute 2 ≠ 0 then 4 else 0) + (if mute 3 ≠ 0 then 8 else 0) := by
  rw [muteMask_eq]
  split_ifs <;> rfl

/-- What the panel can show makes a valid word. -/
theorem settingsWord_valid (master : panel.master ≤ 100) (stereo : panel.stereo ≤ 100) :
    mixerValid panel.settingsWord = true := by
  have masterMax : panel.master.toNat ≤ 100 := UInt32.le_iff_toNat_le.mp master
  have stereoMax : panel.stereo.toNat ≤ 100 := UInt32.le_iff_toNat_le.mp stereo
  have value : panel.settingsWord.toNat = _ := mixerPack_toNat _ _ _ _
  rw [mixerValid_iff]
  omega

/-- A loaded word is what the panel would send. -/
theorem settingsWord_loadSettings (valid : mixerValid word = true) :
    (panel.loadSettings word).settingsWord = word := by
  have bit : ∀ ch : Fin 4, ((word >>> (15 + ch.val.toUInt32)) &&& (1 : UInt32)).toNat =
      word.toNat / 2 ^ (15 + ch.val) % 2 := by
    intro ch
    have place : (15 + ch.val.toUInt32).toNat % 32 = 15 + ch.val := by
      revert ch
      decide
    rw [and_low_toNat _ _ 1 rfl, UInt32.toNat_shiftRight, place, Nat.shiftRight_eq_div_pow, pow_one]
  have set : ∀ ch : Fin 4, ((word >>> (15 + ch.val.toUInt32)) &&& (1 : UInt32) ≠ 0) ↔
      word.toNat / 2 ^ (15 + ch.val) % 2 = 1 := by
    intro ch
    rw [ne_eq, ← UInt32.toNat_inj, bit ch]
    change ¬_ = 0 ↔ _
    omega
  have mask : (muteMask fun ch => (word >>> (15 + ch.val.toUInt32)) &&& (1 : UInt32)) =
      (mixerFields word).mute := by
    apply UInt32.toNat_inj.mp
    rw [muteMask_toNat, (mixerFields_toNat word).2.2.2]
    simp only [set]
    change (if word.toNat / 2 ^ 15 % 2 = 1 then 1 else 0) +
      (if word.toNat / 2 ^ 16 % 2 = 1 then 2 else 0) +
      (if word.toNat / 2 ^ 17 % 2 = 1 then 4 else 0) +
      (if word.toNat / 2 ^ 18 % 2 = 1 then 8 else 0) = word.toNat / 2 ^ 15 % 2 ^ 4
    split_ifs <;> omega
  calc (panel.loadSettings word).settingsWord
    _ = mixerPack (mixerFields word).master (mixerFields word).stereo (mixerFields word).linear
          (muteMask fun ch => (word >>> (15 + ch.val.toUInt32)) &&& (1 : UInt32)) := by
      rw [Panel.loadSettings, if_pos valid]
      rfl
    _ = (mixerFields word).pack := by
      rw [mask]
      rfl
    _ = word := pack_mixerFields valid

theorem or_and (first second keep : UInt32) :
    (first ||| second) &&& keep = (first &&& keep) ||| (second &&& keep) :=
  UInt32.toBitVec_inj.mp BitVec.and_or_distrib_right

theorem pack_and (master stereo linear mute keep : UInt32) :
    mixerPack master stereo linear mute &&& keep = (pmValid &&& keep) |||
      (master &&& ((127 : UInt32) &&& keep)) ||| ((stereo <<< 7) &&& (((127 : UInt32) <<< 7) &&& keep)) |||
        ((linear <<< 14) &&& (((1 : UInt32) <<< 14) &&& keep)) |||
          ((mute <<< 15) &&& (((15 : UInt32) <<< 15) &&& keep)) := by
  simp only [mixerPack, or_and, UInt32.shiftLeft_and, UInt32.and_assoc]

/-- Each gesture changes its own field of the word. -/
theorem settingsWord_setSlider (slider : Slider) (code : UInt16) :
    (panel.setSlider slider code).settingsWord &&& ~~~(Field.slider slider).mask =
      panel.settingsWord &&& ~~~(Field.slider slider).mask := by
  have masterOut : (127 : UInt32) &&& ~~~(Field.slider .master).mask = 0 := by decide
  have stereoOut : ((127 : UInt32) <<< 7) &&& ~~~(Field.slider .stereo).mask = 0 := by decide
  cases slider with
  | master => simp only [Panel.settingsWord, Panel.setSlider, pack_and, masterOut, UInt32.and_zero]
  | stereo => simp only [Panel.settingsWord, Panel.setSlider, pack_and, stereoOut, UInt32.and_zero]

theorem settingsWord_interp (value : UInt32) :
    { panel with interp := value }.settingsWord &&& ~~~Field.interp.mask =
      panel.settingsWord &&& ~~~Field.interp.mask := by
  have out : ((1 : UInt32) <<< 14) &&& ~~~Field.interp.mask = 0 := by decide
  simp only [Panel.settingsWord, pack_and, out, UInt32.and_zero]

theorem settingsWord_mute (ch : Fin 4) (value : UInt32) :
    { panel with mute := Function.update panel.mute ch value }.settingsWord &&&
        ~~~(Field.mute ch).mask =
      panel.settingsWord &&& ~~~(Field.mute ch).mask := by
  have out : ((muteMask (Function.update panel.mute ch value)) <<< 15) &&&
        (((15 : UInt32) <<< 15) &&& ~~~(Field.mute ch).mask) =
      ((muteMask panel.mute) <<< 15) &&& (((15 : UInt32) <<< 15) &&& ~~~(Field.mute ch).mask) := by
    rw [muteMask_eq, muteMask_eq]
    fin_cases ch <;> simp [Function.update] <;> split_ifs <;> decide
  simp only [Panel.settingsWord, pack_and, out]

end Words

end Paulastorm.PaulaMixer
