import Paulastorm.PaulaMixer

namespace Paulastorm.PaulaMixer

/-! The panel follows the mailbox, whatever the user and the guest do. -/

open Library Probe

/-- What the panel knows while the backend is there. -/
structure Attached (state : State) : Prop where
  initialized : state.panel.initialized = true
  requested : state.panel.requestedWord = state.panel.settingsWord
  last : state.last = state.panel.settingsWord

/-- What holds between two events. -/
structure Sound (state : State) : Prop where
  request : mixerValid state.request = true
  master : state.panel.master ≤ 100
  stereo : state.panel.stereo ≤ 100
  remoteDefaults : mixerValid state.panel.remoteDefaults = true
  attached : state.panel.backend = true → Attached state
  active : ∀ slider, state.panel.activeSlider = some slider →
    state.panel.backend = true ∧ state.held slider = true
  written : ∀ sent ∈ state.written, sent.Sound

/-- Nothing but the panel has posted a word since the panel last read one. -/
def Synced (state : State) : Prop :=
  state.panel.backend = true → state.request = state.panel.requestedWord

/-- A gesture has changed the panel and its word is about to be sent. -/
structure Ready (field : Field) (state : State) : Prop where
  master : state.panel.master ≤ 100
  stereo : state.panel.stereo ≤ 100
  remoteDefaults : mixerValid state.panel.remoteDefaults = true
  backend : state.panel.backend = true
  initialized : state.panel.initialized = true
  active : ∀ slider, state.panel.activeSlider = some slider → state.held slider = true
  changed : state.last &&& ~~~field.mask = state.panel.settingsWord &&& ~~~field.mask
  written : ∀ sent ∈ state.written, sent.Sound

variable {state : State} {field : Field} {word : UInt32}

theorem get_pmRequest (metrics : Metrics) : get metrics pmRequest = metrics pmRequest := rfl

/-- The firmware accepts every valid word. -/
theorem writeWord_request (valid : mixerValid word = true) :
    writeWord pmRequest word state =
      { state with metrics := Function.update state.metrics pmRequest word } := by
  have narrow : word.toUInt64.toUInt32 = word := by
    apply UInt32.toNat_inj.mp
    rw [UInt64.toNat_toUInt32, UInt32.toNat_toUInt64]
    exact Nat.mod_eq_of_lt word.toNat_lt
  have window : ¬((probeBase + 4 * pmRequest.toUInt64) < probeBase ∨
      (probeBase + 4 * pmRequest.toUInt64) ≥ probeBase + 512) := by decide
  have accepted : 4 = 4 ∧ probeBase + 4 * pmRequest.toUInt64 = probeBase + 392 ∧
      mixerValid word.toUInt64.toUInt32 = true := ⟨rfl, by decide, narrow.symm ▸ valid⟩
  rw [writeWord, busWrite, if_neg window, if_pos accepted, narrow]

/-- Sending posts the panel's word, and the panel reads it back. -/
theorem Ready.sends (ready : Ready field state) :
    sendSettings field state =
      { state with
        panel.requestedWord := state.panel.settingsWord
        metrics := Function.update state.metrics pmRequest state.panel.settingsWord
        last := state.panel.settingsWord
        written := ⟨field, state.last, state.panel.settingsWord⟩ :: state.written } := by
  have valid := settingsWord_valid ready.master ready.stereo
  have shown : get (Function.update state.metrics pmRequest state.panel.settingsWord) pmRequest =
      state.panel.settingsWord := by
    rw [get_pmRequest, Function.update_self]
  simp only [sendSettings, ready.backend, ready.initialized, valid, Bool.not_true,
    Bool.or_self, Bool.false_eq_true, if_false, writeWord_request valid, readWord, shown, ne_eq,
    not_true_eq_false]

theorem Ready.sound (ready : Ready field state) : Sound (sendSettings field state) := by
  have valid := settingsWord_valid ready.master ready.stereo
  have shown : (sendSettings field state).request = state.panel.settingsWord := by
    rw [ready.sends]
    exact Function.update_self pmRequest _ state.metrics
  have attached : Attached (sendSettings field state) := by
    rw [ready.sends]
    exact ⟨ready.initialized, rfl, rfl⟩
  refine ⟨shown ▸ valid, ?_, ?_, ?_, fun _ => attached, ?_, ?_⟩ <;> rw [ready.sends]
  · exact ready.master
  · exact ready.stereo
  · exact ready.remoteDefaults
  · exact fun slider active => ⟨ready.backend, ready.active slider active⟩
  · intro sent member
    rcases List.mem_cons.mp member with now | earlier
    · rw [now]
      exact ⟨valid, ready.changed⟩
    · exact ready.written sent earlier

theorem Ready.synced (ready : Ready field state) : Synced (sendSettings field state) := by
  intro _
  rw [ready.sends]
  exact Function.update_self pmRequest _ state.metrics

/-- Loading a valid word makes it the panel's own. -/
theorem loadSettings_valid (valid : mixerValid word = true) :
    (loadSettings word state).last = word ∧
      (loadSettings word state).panel.settingsWord = word ∧
      (loadSettings word state).panel.master ≤ 100 ∧
      (loadSettings word state).panel.stereo ≤ 100 := by
  have fields := mixerFields_valid valid
  have loaded : (loadSettings word state).panel.settingsWord = word :=
    settingsWord_loadSettings valid
  refine ⟨if_pos valid, loaded, ?_, ?_⟩ <;>
    simp only [loadSettings, Panel.loadSettings, if_pos valid]
  · exact fields.master
  · exact fields.stereo

@[simp] theorem loadSettings_frame :
    (loadSettings word state).metrics = state.metrics ∧
      (loadSettings word state).written = state.written ∧
      (loadSettings word state).held = state.held ∧
      (loadSettings word state).panel.backend = state.panel.backend ∧
      (loadSettings word state).panel.initialized = state.panel.initialized ∧
      (loadSettings word state).panel.activeSlider = state.panel.activeSlider ∧
      (loadSettings word state).panel.remoteDefaults = state.panel.remoteDefaults := by
  unfold loadSettings Panel.loadSettings
  split <;> exact ⟨rfl, rfl, rfl, rfl, rfl, rfl, rfl⟩

section Update

/-- A word that was just loaded leaves the panel sound. -/
theorem sound_of_loaded (valid : mixerValid word = true)
    (remoteDefaults : mixerValid state.panel.remoteDefaults = true)
    (backend : state.panel.backend = true) (initialized : state.panel.initialized = true)
    (requested : state.panel.requestedWord = word) (request : state.request = word)
    (active : ∀ slider, state.panel.activeSlider = some slider → state.held slider = true)
    (written : ∀ sent ∈ state.written, sent.Sound) : Sound (loadSettings word state) := by
  obtain ⟨last, same, master, stereo⟩ := @loadSettings_valid state word valid
  obtain ⟨metrics, sent, held, _, kept, slider, defaults⟩ :=
    @loadSettings_frame state word
  have unread : (loadSettings word state).panel.requestedWord = word := by
    rw [← requested]
    unfold loadSettings Panel.loadSettings
    split <;> rfl
  have posted : (loadSettings word state).request = word := by
    rw [State.request, readWord, metrics]
    exact request
  refine ⟨posted ▸ valid, master, stereo, defaults ▸ remoteDefaults, fun _ => ?_, ?_, sent ▸ written⟩
  · exact ⟨kept.trans initialized, unread.trans same.symm, last.trans same.symm⟩
  · rw [slider, held]
    exact fun slider grabbed => ⟨by rw [loadSettings_frame.2.2.2.1, backend], active slider grabbed⟩

/-- The panel as it finds the backend, before it loads the word. -/
def State.attaching (state : State) : State :=
  { state with
    panel := { state.panel with
      backend := true
      initialized := true
      remoteDefaults := pmDefault
      requestedWord := state.request } }

theorem attach_eq (valid : mixerValid state.request = true) :
    attach state = loadSettings state.request state.attaching := by
  have posted : readWord pmRequest state = state.request := rfl
  have defaults : readWord pmDefaults state = pmDefault := rfl
  have both : (mixerValid state.request && mixerValid pmDefault) = true := by
    rw [Bool.and_eq_true]
    exact ⟨valid, by decide⟩
  simp only [attach, posted, defaults, if_pos both, loadSettings, Panel.loadSettings, if_pos valid,
    State.attaching]

theorem follow_eq (valid : mixerValid state.request = true) :
    follow state =
      if state.request ≠ state.panel.requestedWord ∧ state.panel.activeSlider = none then
        loadSettings state.request
          { state with panel := { state.panel with requestedWord := state.request } }
      else state := by
  have posted : readWord pmRequest state = state.request := rfl
  rw [follow]
  dsimp only
  rw [posted, if_pos valid]
  split
  next => simp only [loadSettings, Panel.loadSettings, if_pos valid]
  next => rfl

theorem Sound.afterAttach (sound : Sound state) (absent : state.panel.backend = false) :
    Sound (attach state) := by
  rw [attach_eq sound.request]
  have defaults : mixerValid pmDefault = true := by decide
  refine sound_of_loaded sound.request defaults rfl rfl rfl rfl ?_ sound.written
  intro slider active
  exact absurd (sound.active slider active).1 (by rw [absent]; decide)

theorem Sound.afterFollow (sound : Sound state) (backend : state.panel.backend = true) :
    Sound (follow state) := by
  rw [follow_eq sound.request]
  split
  next =>
    exact sound_of_loaded sound.request sound.remoteDefaults backend
      (sound.attached backend).initialized rfl rfl (fun slider active => (sound.active slider active).2)
      sound.written
  next => exact sound

theorem Sound.afterDetach (sound : Sound state) :
    Sound { state with panel := state.panel.detach } where
  request := sound.request
  master := sound.master
  stereo := sound.stereo
  remoteDefaults := sound.remoteDefaults
  attached := fun backend => absurd backend Bool.false_ne_true
  active := fun slider active => absurd active (Option.some_ne_none slider).symm
  written := sound.written

theorem Sound.attach_backend (sound : Sound state) : (attach state).panel.backend = true := by
  rw [attach_eq sound.request]
  exact loadSettings_frame.2.2.2.1

theorem Sound.attach_synced (sound : Sound state) :
    (attach state).request = (attach state).panel.requestedWord := by
  rw [attach_eq sound.request]
  simp only [loadSettings, Panel.loadSettings, if_pos sound.request]
  rfl

theorem Sound.follow_backend (sound : Sound state) :
    (follow state).panel.backend = state.panel.backend := by
  rw [follow_eq sound.request]
  split
  next => exact loadSettings_frame.2.2.2.1
  next => rfl

theorem Sound.follow_synced (sound : Sound state)
    (heard : state.request = state.panel.requestedWord ∨ state.panel.activeSlider = none) :
    (follow state).request = (follow state).panel.requestedWord := by
  rw [follow_eq sound.request]
  split
  next =>
    simp only [loadSettings, Panel.loadSettings, if_pos sound.request]
    rfl
  next unchanged =>
    rcases heard with same | released
    · exact same
    · exact by_contra fun different => unchanged ⟨different, released⟩

/-- What `update_values` does, by the backend's presence before and now. -/
theorem updateValues_eq (sound : Sound state) : updateValues state =
    match available state, state.panel.backend with
    | true, false => attach state
    | true, true => follow state
    | false, true => { state with panel := state.panel.detach }
    | false, false => state := by
  rw [updateValues]
  cases free : available state <;> cases backend : state.panel.backend <;> dsimp only
  · simp only [Bool.false_and, Bool.and_false, Bool.false_eq_true, if_false, backend]
  · rfl
  · have after := sound.afterAttach backend
    have still : follow (attach state) = attach state := by
      rw [follow_eq after.request, if_neg fun changed => changed.1 sound.attach_synced]
    simp only [Bool.not_false, Bool.and_self, if_true, sound.attach_backend, still]
  · simp only [Bool.not_true, Bool.and_false, Bool.false_and, Bool.false_eq_true, if_false, backend,
      if_true]

theorem Sound.afterUpdate (sound : Sound state) : Sound (updateValues state) := by
  rw [updateValues_eq sound]
  split
  next absent => exact sound.afterAttach absent
  next backend => exact sound.afterFollow backend
  next => exact sound.afterDetach
  next => exact sound

/-- A poll shows what the mailbox holds, unless a slider is held and the word is not the
panel's own. -/
theorem Sound.updateValues_synced (sound : Sound state)
    (heard : Synced state ∨ state.panel.activeSlider = none) : Synced (updateValues state) := by
  intro backend
  rw [updateValues_eq sound] at backend ⊢
  split at backend
  next => exact sound.attach_synced
  next present =>
    exact sound.follow_synced (heard.imp_left fun synced => synced present)
  next => exact absurd backend Bool.false_ne_true
  next absent => exact absurd backend (absent ▸ Bool.false_ne_true)

theorem Sound.updateValues_backend (sound : Sound state) (free : available state = true) :
    (updateValues state).panel.backend = true := by
  rw [updateValues_eq sound, free]
  split
  next => exact sound.attach_backend
  next present => exact sound.follow_backend.trans present
  next impossible _ => exact absurd impossible (by decide)
  next impossible _ => exact absurd impossible (by decide)

end Update

section Gestures

variable {cls : Class} {slider : Slider} {address : Gadget} {code : UInt16}

/-- An event leaves the panel sound, and does not lose the mailbox by itself. -/
def Kept (before after : State) : Prop := Sound after ∧ (Synced before → Synced after)

theorem Kept.afterUpdate {before : State} (kept : Kept before state) :
    Kept before (updateValues state) :=
  ⟨kept.1.afterUpdate, fun synced => kept.1.updateValues_synced (.inl (kept.2 synced))⟩

theorem Ready.kept {before : State} (ready : Ready field state) :
    Kept before (sendSettings field state) := ⟨ready.sound, fun _ => ready.synced⟩

theorem Sound.kept (sound : Sound state) : Kept state state := ⟨sound, id⟩

theorem Sound.afterClose (sound : Sound state) :
    Kept state { state with panel := { state.panel with running := false } } := by
  refine ⟨?_, id⟩
  refine ⟨sound.request, sound.master, sound.stereo, sound.remoteDefaults, ?_, sound.active,
    sound.written⟩
  exact fun backend =>
    let attached := sound.attached backend
    ⟨attached.initialized, attached.requested, attached.last⟩

theorem level_le (low : code ≤ 100) : code.toUInt32 ≤ 100 := by
  rw [UInt16.le_iff_toNat_le] at low
  rw [UInt32.le_iff_toNat_le, UInt16.toNat_toUInt32]
  exact low

theorem grab_eq (panel : Panel) : panel.grab cls slider =
    { panel with
      activeSlider :=
        if cls = .gadgetDown then some slider
        else if cls = .gadgetUp then none
        else panel.activeSlider } := by
  unfold Panel.grab
  split_ifs <;> rfl

/-- A slider that is followed is held. -/
theorem gesture_slider (sound : Sound state) (low : code ≤ 100) {held : Slider → Bool}
    (pressed : cls = .gadgetDown → held slider = true)
    (same : cls ≠ .gadgetDown → cls ≠ .gadgetUp → held = state.held) :
    Kept state (gesture cls (.slider slider) code { state with held := held }) := by
  rw [gesture]
  dsimp only
  split
  next there =>
    have attached := sound.attached there.1
    have level := level_le low
    apply Ready.kept
    rw [grab_eq]
    constructor <;> dsimp only
    · cases slider with
      | master => exact level
      | stereo => exact sound.master
    · cases slider with
      | master => exact sound.stereo
      | stereo => exact level
    · cases slider <;> exact sound.remoteDefaults
    · cases slider <;> exact there.1
    · cases slider <;> exact attached.initialized
    · intro other active
      split_ifs at active with down up
      · rw [← Option.some.inj active]
        exact pressed down
      · rw [same down up]
        have before : state.panel.activeSlider = some other := by cases slider <;> exact active
        exact (sound.active other before).2
    · rw [attached.last]
      exact (settingsWord_setSlider slider code).symm
    · exact sound.written
  next absent =>
    have lost : ¬state.panel.backend = true := fun backend => absent ⟨backend, low⟩
    refine ⟨⟨sound.request, sound.master, sound.stereo, sound.remoteDefaults, ?_, ?_, sound.written⟩,
      id⟩
    · exact fun backend => absurd backend lost
    · exact fun other active => absurd (sound.active other active).1 lost

theorem gesture_interp (sound : Sound state) : Kept state (gesture cls .interp code state) := by
  rw [gesture]
  dsimp only
  split
  next there =>
    have attached := sound.attached there.1
    refine Ready.kept ⟨sound.master, sound.stereo, sound.remoteDefaults, there.1,
      attached.initialized, fun slider active => (sound.active slider active).2, ?_, sound.written⟩
    rw [attached.last]
    exact (settingsWord_interp code.toUInt32).symm
  next => exact sound.kept

theorem gesture_mute (sound : Sound state) (ch : Fin 4) :
    Kept state (gesture cls (.mute ch) code state) := by
  rw [gesture]
  dsimp only
  split
  next there =>
    have attached := sound.attached there
    refine Ready.kept ⟨sound.master, sound.stereo, sound.remoteDefaults, there,
      attached.initialized, fun slider active => (sound.active slider active).2, ?_, sound.written⟩
    rw [attached.last]
    exact (settingsWord_mute ch _).symm
  next => exact sound.kept

theorem defaults_kept (sound : Sound state) : Kept state (defaults state) := by
  rw [defaults]
  split
  next => exact sound.kept
  next there =>
    have backend : state.panel.backend = true := by
      rwa [Bool.not_eq_true', Bool.not_eq_false] at there
    obtain ⟨_, _, master, stereo⟩ := @loadSettings_valid state _ sound.remoteDefaults
    obtain ⟨_, written, held, present, initialized, active, remoteDefaults⟩ :=
      @loadSettings_frame state state.panel.remoteDefaults
    have ready : Ready .all (loadSettings state.panel.remoteDefaults state) := by
      refine ⟨master, stereo, ?_, present.trans backend,
        initialized.trans (sound.attached backend).initialized, ?_, ?_, written ▸ sound.written⟩
      · rw [remoteDefaults]
        exact sound.remoteDefaults
      · rw [active, held]
        exact fun slider followed => (sound.active slider followed).2
      · have nothing : ~~~Field.all.mask = 0 := by decide
        rw [nothing, UInt32.and_zero, UInt32.and_zero]
    exact ready.kept.afterUpdate

theorem hold_eq (quiet : (cls ≠ .gadgetDown ∧ cls ≠ .gadgetUp) ∨ address.isSlider = false) :
    state.hold cls address = state := by
  unfold State.hold
  split
  next =>
    rcases quiet with ⟨down, up⟩ | absurdity
    · rw [if_neg down, if_neg up]
    · cases absurdity
  next => rfl

theorem hold_slider : state.hold cls (.slider slider) =
    { state with
      held :=
        if cls = .gadgetDown then Function.update state.held slider true
        else if cls = .gadgetUp then Function.update state.held slider false
        else state.held } := by
  unfold State.hold
  dsimp only
  split_ifs <;> rfl

/-- A gadget is pressed or released. -/
theorem gesture_kept (sound : Sound state) (low : address.isSlider = true → code ≤ 100) :
    Kept state (gesture cls address code (state.hold cls address)) := by
  cases address with
  | slider slider =>
      rw [hold_slider]
      refine gesture_slider sound (low rfl) ?_ ?_
      · intro down
        rw [if_pos down, Function.update_self]
      · intro down up
        rw [if_neg down, if_neg up]
  | text => rw [hold_eq (.inr rfl)]; exact sound.kept
  | interp => rw [hold_eq (.inr rfl)]; exact gesture_interp sound
  | mute ch => rw [hold_eq (.inr rfl)]; exact gesture_mute sound ch
  | defaults =>
      rw [hold_eq (.inr rfl), gesture]
      split
      next => exact defaults_kept sound
      next => exact sound.kept
  | close =>
      rw [hold_eq (.inr rfl), gesture]
      split
      next => exact sound.afterClose
      next => exact sound.kept

/-- The pointer moves while a slider is followed. -/
theorem move_kept (sound : Sound state) (low : code ≤ 100) :
    Kept state (gesture .mouseMove ((state.panel.activeSlider.map Gadget.slider).getD .text) code
      state) := by
  cases state.panel.activeSlider with
  | none => exact sound.kept
  | some slider =>
      exact gesture_slider sound low (fun impossible => absurd impossible (by decide))
        (fun _ _ => rfl)

theorem message_kept (sound : Sound state) (fits : inRange (.message cls address code)) :
    Kept state (message cls address code (state.hold cls address)) := by
  cases cls with
  | closeWindow =>
      rw [hold_eq (.inl (by decide))]
      exact sound.afterClose
  | vanillaKey =>
      rw [hold_eq (.inl (by decide)), message]
      dsimp only
      split
      next => exact sound.afterClose
      next => exact sound.kept
  | refreshWindow =>
      rw [hold_eq (.inl (by decide))]
      exact sound.kept.afterUpdate
  | gadgetDown => exact (gesture_kept sound fun slider => fits (.inr ⟨.inl rfl, slider⟩)).afterUpdate
  | gadgetUp => exact (gesture_kept sound fun slider => fits (.inr ⟨.inr rfl, slider⟩)).afterUpdate
  | mouseMove =>
      have moved := (move_kept sound (fits (.inl rfl))).afterUpdate
      cases followed : state.panel.activeSlider with
      | none =>
          have ignored : message .mouseMove address code state = state := by
            simp [message, followed]
          rw [hold_eq (.inl (by decide)), ignored]
          exact sound.kept
      | some slider =>
          have handled : message .mouseMove address code state =
              updateValues (gesture .mouseMove (.slider slider) code state) := by
            simp [message, followed]
          rw [hold_eq (.inl (by decide)), handled]
          rw [followed] at moved
          exact moved

end Gestures

section Runs

variable {metrics : Metrics} {events : List Event} {event : Event}

/-- The bank changes, and `PM_REQUEST` stays valid. -/
theorem Sound.afterProbe (sound : Sound state)
    (valid : mixerValid (get metrics pmRequest) = true) :
    Sound { state with metrics := metrics } := by
  refine ⟨valid, sound.master, sound.stereo, sound.remoteDefaults, ?_, sound.active, sound.written⟩
  exact fun backend =>
    let attached := sound.attached backend
    ⟨attached.initialized, attached.requested, attached.last⟩

theorem Sound.kept_of_request (sound : Sound state)
    (same : get metrics pmRequest = get state.metrics pmRequest) :
    Kept state { state with metrics := metrics } := by
  have valid : mixerValid (get metrics pmRequest) = true := same ▸ sound.request
  exact ⟨sound.afterProbe valid, fun synced backend => same.trans (synced backend)⟩

/-- A guest's write leaves a valid word. -/
theorem busWrite_valid (valid : mixerValid (get metrics pmRequest) = true) (value : UInt64)
    (size : Nat) (address : UInt64) :
    mixerValid (get (busWrite metrics value size address).2 pmRequest) = true := by
  rw [busWrite]
  split
  next => exact valid
  next =>
    split
    next accepted =>
      have stored : (Function.update metrics pmRequest value.toUInt32) pmRequest = value.toUInt32 :=
        Function.update_self pmRequest _ metrics
      rw [← stored] at accepted
      exact accepted.2.2
    next => exact valid

theorem handle_kept (sound : Sound state) (fits : inRange event) (inside : event.external = false) :
    Kept state (handle event state) := by
  cases event with
  | message cls address code => exact message_kept sound fits
  | timer => exact sound.kept.afterUpdate
  | guestWrite value size address => cases inside
  | report index value =>
      apply sound.kept_of_request
      by_cases own : pmRequest = index
      · rw [← own]
        rfl
      · exact get_set_of_ne own
  | flag mask enabled => exact sound.kept_of_request (get_flag_of_ne (by decide))

theorem handle_sound (sound : Sound state) (fits : inRange event) : Sound (handle event state) := by
  cases outside : event.external with
  | false => exact (handle_kept sound fits outside).1
  | true =>
      cases event with
      | guestWrite value size address =>
          exact sound.afterProbe (busWrite_valid sound.request value size address)
      | message | timer | report | flag => cases outside

theorem opened_kept (valid : mixerValid (get metrics pmRequest) = true) :
    Sound (opened metrics) ∧ Synced (opened metrics) := by
  have initial : Sound { panel := {}, metrics } := by
    have full : (100 : UInt32) ≤ 100 := by decide
    have defaults : mixerValid pmDefault = true := by decide
    refine ⟨valid, full, full, defaults, ?_, ?_, ?_⟩
    · exact fun backend => absurd backend Bool.false_ne_true
    · exact fun slider active => absurd active (Option.some_ne_none slider).symm
    · exact fun sent member => absurd member List.not_mem_nil
  have alone : Synced { panel := {}, metrics } := fun backend => absurd backend Bool.false_ne_true
  exact ⟨initial.afterUpdate, initial.updateValues_synced (.inl alone)⟩

/-- What holds between any two events of a run. -/
theorem runs_sound (valid : mixerValid (get metrics pmRequest) = true)
    (run : machine.Runs described (opened metrics) events state) : Sound state := by
  refine run.invariant (motive := Sound) ?_ (opened_kept valid).1
  intro event before after fits taken sound
  cases taken
  exact handle_sound sound fits

/-- What holds in addition while the panel is the only writer. -/
theorem runs_synced (valid : mixerValid (get metrics pmRequest) = true)
    (run : machine.Runs described (opened metrics) events state)
    (alone : ∀ event ∈ events, event.external = false) : Synced state := by
  have both : Sound state ∧ Synced state := by
    refine (run.restrict alone).invariant (motive := fun state => Sound state ∧ Synced state) ?_
      (opened_kept valid)
    intro event before after fits taken kept
    cases taken
    have after := handle_kept kept.1 fits.1 fits.2
    exact ⟨after.1, after.2 kept.2⟩
  exact both.2

/-- In every run in which the user's sliders stay in range: the panel is initialized and has
read a valid word while the backend is there; every word it writes is valid and changes its
gesture's field only; it shows what the mailbox holds if nobody else writes, and otherwise
after the first poll with no slider held, which finds every backend that is available. -/
theorem mixer_follows_mailbox (valid : mixerValid (get metrics pmRequest) = true)
    (run : machine.Runs described (opened metrics) events state) :
    (state.panel.backend = true →
      state.panel.initialized = true ∧ mixerValid state.panel.requestedWord = true) ∧
    (∀ sent ∈ state.written, sent.Sound) ∧
    ((∀ event ∈ events, event.external = false) → state.panel.backend = true →
      state.panel.settingsWord = state.request) ∧
    ((∀ slider, state.held slider = false) →
      let next := updateValues state
      (available state = true → next.panel.backend = true) ∧
        (next.panel.backend = true → next.panel.settingsWord = next.request)) := by
  have sound := runs_sound valid run
  refine ⟨?_, sound.written, ?_, ?_⟩
  · intro backend
    have attached := sound.attached backend
    rw [attached.requested]
    exact ⟨attached.initialized, settingsWord_valid sound.master sound.stereo⟩
  · intro alone backend
    rw [runs_synced valid run alone backend, (sound.attached backend).requested]
  · intro free
    have released : state.panel.activeSlider = none := by
      cases followed : state.panel.activeSlider with
      | none => rfl
      | some slider =>
          have held := (sound.active slider followed).2
          rw [free slider] at held
          cases held
    refine ⟨sound.updateValues_backend, fun backend => ?_⟩
    rw [sound.updateValues_synced (.inr released) backend,
      (sound.afterUpdate.attached backend).requested]

/-- The master slider is dragged from 100 to 40 while the guest posts a command: the word that
is posted after the release is shown by the next poll. -/
theorem mixer_follows_mailbox_after_drag :
    let events : List Event := [.flag 6 true, .timer, .message .gadgetDown (.slider .master) 100,
      .guestWrite 0x80000a14 4 0xdeadb188, .timer, .message .mouseMove .text 40,
      .message .gadgetUp (.slider .master) 40, .guestWrite 0x80000a14 4 0xdeadb188]
    let state := events.foldl (fun state event => handle event state) (opened Probe.init)
    state.request = 0x80000a14 ∧ state.panel.settingsWord = 0x80003228 ∧
      (updateValues state).panel.settingsWord = (updateValues state).request := by
  intro events state
  have run : machine.Runs described (opened Probe.init) events state := by
    iterate 8 refine .step (by decide) rfl ?_
    exact .refl _
  have free : ∀ slider, state.held slider = false := by
    intro slider
    cases slider <;> decide +kernel
  have follows := mixer_follows_mailbox (by decide) run
  exact ⟨by decide +kernel, by decide +kernel, (follows.2.2.2 free).2 (by decide +kernel)⟩

end Runs

end Paulastorm.PaulaMixer
