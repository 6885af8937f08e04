import Paulastorm.Library.Transition
import Paulastorm.Live.Settings
import Paulastorm.Mirror.Calls
import Paulastorm.Mirror.PageCache.Service
import Paulastorm.Mixer

namespace Paulastorm.Live.Mailbox

/-! The mixer mailbox, over every interleaving.

The guest posts command words from one processor, the renderer adopts them on the
other.  Any number of guest accesses and metric updates may fall before each call
that the renderer makes.
-/

open Paulastorm.Core Library Mirror Probe

/-- What either processor does between two calls of the renderer: a guest access to
the bank, an update of a metric, or anything that leaves the bank alone. -/
inductive Act where
  | guestWrite (value : UInt64) (size : Nat) (address : UInt64)
  | guestRead (size : Nat) (address : UInt64)
  | set (index : Nat) (value : UInt32) (other : index ≠ pmApplied)
  | add (index : Nat) (value : UInt32)
  | flag (mask : UInt32) (enabled : Bool)
  | cache (cache : Cache)

def Act.effect (cache : Cache) : Act → Cache
  | .guestWrite value size address =>
      { cache with metrics := (busWrite cache.metrics value size address).2 }
  | .guestRead _ _ => cache
  | .set index value _ => { cache with metrics := Probe.set cache.metrics index value }
  | .add index value => { cache with metrics := Probe.add cache.metrics index value }
  | .flag mask enabled => { cache with metrics := Probe.flag cache.metrics mask enabled }
  | .cache other => { other with metrics := cache.metrics }

/-- The cache with the bank, and what happens before each of the next calls.
The code does not read the rest: the words that `PM_REQUEST` has held, and whether it
has stayed the same since it was last loaded. -/
structure Host where
  cache : Cache
  upcoming : List (List Act)
  requests : List UInt32
  seen : Bool

def Host.request (host : Host) : UInt32 := get host.cache.metrics pmRequest

def Host.applied (host : Host) : UInt32 := get host.cache.metrics pmApplied

def Host.act (act : Act) (host : Host) : Host :=
  let after := { host with cache := act.effect host.cache }
  { after with
    requests := after.request :: host.requests
    seen := host.seen && after.request == host.request }

/-- What is to happen before the next call happens. -/
def Host.turn (host : Host) : Host :=
  match host.upcoming with
  | [] => host
  | acts :: rest => acts.foldl (fun host act => host.act act) { host with upcoming := rest }

/-- The sample cache and the bank as the renderer calls them. -/
def mailPort : Port Host where
  readByte address host :=
    let host := host.turn
    let (byte, cache) := host.cache.readByte address
    (byte, { host with cache := cache })
  prefetch address length host :=
    let host := host.turn
    { host with cache := host.cache.prefetch address length }
  renderBegin host :=
    let host := host.turn
    { host with cache := host.cache.renderBegin }
  renderMissed host := host.cache.renderMiss
  metrics host := host.cache.metrics
  probe change host :=
    let host := host.turn
    { host with cache.metrics := change host.cache.metrics }

/-- The live mirror and its host. -/
structure State (F D : Type) where
  live : Live F D
  host : Host

/-- An act of its own, or a call of CPU1 with what happens during it. -/
inductive Label where
  | act (act : Act)
  | apply (during : List (List Act))
  | render (frames : Nat) (during : List (List Act))
  | write (address : UInt32) (value : UInt16) (during : List (List Act))
  | reset (during : List (List Act))

/-- A call begins. -/
def Host.before (during : List (List Act)) (host : Host) : Host := { host with upcoming := during }

/-- A call begins that loads `PM_REQUEST` first. -/
def Host.load (during : List (List Act)) (host : Host) : Host :=
  { host with upcoming := during, seen := true }

section Machine

variable {F D : Type} [Floating F] [Floating D] [Arith F D]

def step : Label → State F D → Option (State F D)
  | .act act, state => some { state with host := state.host.act act }
  | .apply during, state =>
      let (live, host) := state.live.mixerApply mailPort (state.host.load during)
      some ⟨live, host⟩
  | .render frames during, state =>
      let (_, live, host) := state.live.render mailPort frames (state.host.load during)
      some ⟨live, host⟩
  | .write address value during, state =>
      let (live, host) := state.live.write mailPort address value (state.host.before during)
      some ⟨live, host⟩
  | .reset during, state =>
      let (live, host) := state.live.reset mailPort (state.host.before during)
      some ⟨live, host⟩

def machine : Machine (State F D) Label := ⟨step⟩

/-- Just after `paula_probe_init` and `paula_live_init`. -/
def start (cache : Cache) : State F D :=
  let (live, host) := Live.init mailPort
    ⟨{ cache with metrics := Probe.init }, [], [pmDefault], false⟩
  ⟨live, host⟩

end Machine

section Words

theorem requestPage_request (cache : Cache) (page : Nat) :
    get (cache.requestPage page).metrics pmRequest = get cache.metrics pmRequest := by
  unfold Cache.requestPage
  split_ifs
  · rfl
  · rfl
  · simp [Cache.gaugeRequests, Cache.publishRequest, Cache.fillRequest, Cache.markRequested]

theorem prefetch_request (cache : Cache) (address length : UInt32) :
    get (cache.prefetch address length).metrics pmRequest = get cache.metrics pmRequest := by
  have pages : ∀ (pages : List Nat) (cache : Cache),
      get (pages.foldl Cache.prefetchPage cache).metrics pmRequest =
        get cache.metrics pmRequest := by
    intro pages
    induction pages with
    | nil => exact fun _ => rfl
    | cons page rest ih =>
        intro cache
        refine (ih _).trans ?_
        simp only [Cache.prefetchPage]
        split_ifs
        · refine (requestPage_request _ _).trans ?_
          exact get_add_of_ne (show pmRequest ≠ ppCachePrefetchPages by decide)
        · exact requestPage_request _ _
  unfold Cache.prefetch
  split
  · rfl
  · exact pages _ _

theorem readByte_request (cache : Cache) (address : UInt32) :
    get (cache.readByte address).2.metrics pmRequest = get cache.metrics pmRequest := by
  simp only [Cache.readByte]
  split_ifs <;> simp [Cache.refuseAddress, Cache.countRead, Cache.countMiss, Cache.noteMiss,
    requestPage_request]

/-- Metric updates stay below the mailbox. -/
theorem get_set_mailbox {metrics : Metrics} {index word : Nat} (value : UInt32)
    (mailbox : word = pmRequest ∨ word = pmApplied) (other : index ≠ pmApplied) :
    get (Probe.set metrics index value) word = get metrics word := by
  by_cases same : word = index
  · subst same
    have request : word = pmRequest := mailbox.resolve_right other
    subst request
    rw [Probe.set, if_neg (by decide)]
  · exact get_set_of_ne same

theorem get_add_mailbox {metrics : Metrics} {index word : Nat} (value : UInt32)
    (mailbox : word = pmRequest ∨ word = pmApplied) :
    get (Probe.add metrics index value) word = get metrics word := by
  by_cases same : word = index
  · subst same
    rw [Probe.add, if_neg]
    rcases mailbox with rfl | rfl <;> decide
  · exact get_add_of_ne same

theorem get_clearShadow_mailbox {metrics : Metrics} {word : Nat}
    (mailbox : word = pmRequest ∨ word = pmApplied) :
    get (clearShadow metrics) word = get metrics word := by
  have kept : ∀ (metrics : Metrics) (index : Nat) (value : UInt32), index < pmMagic →
      get (Probe.set metrics index value) word = get metrics word :=
    fun metrics index value below => get_set_mailbox value mailbox (by
      rintro rfl
      exact absurd below (by decide))
  have cell : ∀ (ch : Fin 4) (cell : Nat), cell < 8 → channelCell ch cell < pmMagic := by
    intro ch cell small
    have inside := ch.isLt
    simp only [channelCell, pmMagic]
    omega
  have channels : List.finRange 4 = [0, 1, 2, 3] := rfl
  simp only [clearShadow, clearChannel, channels, List.foldl_cons, List.foldl_nil]
  simp only [kept _ _ _ (cell _ ppChLoc (by decide)), kept _ _ _ (cell _ ppChLen (by decide)),
    kept _ _ _ (cell _ ppChPer (by decide)), kept _ _ _ (cell _ ppChVol (by decide)),
    kept _ _ _ (cell _ ppChDat (by decide)), kept _ _ _ (cell _ ppChFlags (by decide)),
    kept _ ppDmacon _ (by decide), kept _ ppIntena _ (by decide), kept _ ppIntreq _ (by decide),
    kept _ ppAdkcon _ (by decide)]

end Words

/-- The mixer settings of the renderer. -/
@[ext] structure Settings (F : Type) where
  masterTarget : F
  stereoSep : F
  interp : Interp
  muted : Fin 4 → Bool

/-- The settings a command word asks for. -/
def Settings.ofWord {F : Type} [Floating F] (word : UInt32) : Settings F where
  masterTarget := ofRat (mixerFields word).master.toNat * ofRat (1 / 100)
  stereoSep := wordStereo word
  interp := wordInterp word
  muted := wordMuted word

def settings {F D : Type} (live : Live F D) : Settings F where
  masterTarget := live.masterTarget
  stereoSep := live.core.stereoSep
  interp := live.core.interp
  muted := live.core.channelMuted

/-- The word in force, the default while none has been adopted. -/
def inForceWord (applied : UInt32) : UInt32 := if applied = 0 then pmDefault else applied

section Settings

variable {F D : Type}

theorem settings_adopt [Floating F] (live : Live F D) (word : UInt32) :
    settings (live.adopt word) = Settings.ofWord word := by
  have core : (live.adopt word).core = adoptCore word live.core := rfl
  simp only [settings, core, adoptCore_eq]
  rfl

theorem settings_of_core {before after : Live F D} (target : after.masterTarget = before.masterTarget)
    (core : after.core.settings = before.core.settings) : settings after = settings before := by
  simp only [Paula.settings, Prod.mk.injEq] at core
  exact Settings.ext target core.1 core.2.1 core.2.2.1

/-- Writing a register adopts no setting. -/
theorem writeRegister16_settings [Floating D] (core : Paula F D) (address : UInt32)
    (value : UInt16) : (core.writeRegister16 address value).settings = core.settings := by
  rw [Paula.writeRegister16_eq]
  cases decode (address &&& 0xfff).toNat with
  | none => rfl
  | some reg =>
      cases reg with
      | channel ch reg => cases reg <;> rfl
      | _ => rfl

end Settings

section Invariant

/-- What a call or an act does to the mailbox. -/
structure Kept (before after : Host) : Prop where
  valid : mixerValid before.request = true → mixerValid after.request = true
  posted : before.request ∈ before.requests → after.request ∈ after.requests
  applied : after.applied = before.applied
  requests : ∀ word ∈ before.requests, word ∈ after.requests
  seen : after.seen = true → before.seen = true ∧ after.request = before.request

theorem Kept.refl (host : Host) : Kept host host := ⟨id, id, rfl, fun _ => id, fun seen => ⟨seen, rfl⟩⟩

theorem Kept.trans {first second third : Host} (left : Kept first second)
    (right : Kept second third) : Kept first third where
  valid := right.valid ∘ left.valid
  posted := right.posted ∘ left.posted
  applied := right.applied.trans left.applied
  requests word member := right.requests word (left.requests word member)
  seen seen := by
    obtain ⟨seen, right⟩ := right.seen seen
    obtain ⟨seen, left⟩ := left.seen seen
    exact ⟨seen, right.trans left⟩

theorem Kept.before (during : List (List Act)) (host : Host) : Kept host (host.before during) :=
  ⟨id, id, rfl, fun _ => id, fun seen => ⟨seen, rfl⟩⟩

/-- The renderer's own accesses leave both words alone. -/
theorem Kept.of_cache {host : Host} {cache : Cache}
    (request : get cache.metrics pmRequest = host.request)
    (applied : get cache.metrics pmApplied = host.applied) :
    Kept host { host with cache := cache } where
  valid valid := (congrArg mixerValid request).trans valid
  posted posted := by
    change get cache.metrics pmRequest ∈ host.requests
    exact request.symm ▸ posted
  applied := applied
  requests _ := id
  seen seen := ⟨seen, request⟩

/-- A guest access only changes `PM_REQUEST`, and only to the valid word it stores there. -/
theorem busWrite_cell {metrics : Metrics} {value : UInt64} {size word : Nat} {address : UInt64}
    (changed : (busWrite metrics value size address).2 word ≠ metrics word) :
    word = pmRequest ∧ size = 4 ∧ address = probeBase + 4 * UInt64.ofNat pmRequest ∧
      mixerValid value.toUInt32 = true ∧
      (busWrite metrics value size address).2 word = value.toUInt32 := by
  simp only [busWrite] at changed ⊢
  split_ifs at changed ⊢ with outside accepted
  · exact absurd rfl changed
  · have here : word = pmRequest := by
      by_contra other
      exact changed (Function.update_of_ne other _ _)
    subst here
    exact ⟨rfl, accepted.1, accepted.2.1, accepted.2.2,
      Function.update_self pmRequest value.toUInt32 metrics⟩
  · exact absurd rfl changed

theorem busWrite_get {metrics : Metrics} {value : UInt64} {size word : Nat} {address : UInt64}
    (changed : get (busWrite metrics value size address).2 word ≠ get metrics word) :
    word = pmRequest := by
  by_contra other
  have cell : (busWrite metrics value size address).2 word = metrics word :=
    by_contra fun stored => other (busWrite_cell stored).1
  exact changed (by simp only [Probe.get, cell])

theorem effect_applied (act : Act) (cache : Cache) :
    get (act.effect cache).metrics pmApplied = get cache.metrics pmApplied := by
  have applied : pmApplied = pmRequest ∨ pmApplied = pmApplied := .inr rfl
  cases act with
  | guestWrite value size address =>
      by_contra changed
      exact absurd (busWrite_get changed) (by decide)
  | guestRead size address => rfl
  | set index value other => exact get_set_mailbox value applied other
  | add index value => exact get_add_mailbox value applied
  | flag mask enabled => exact get_flag_of_ne (by decide)
  | cache cache => rfl

theorem effect_request (act : Act) (cache : Cache) :
    get (act.effect cache).metrics pmRequest = get cache.metrics pmRequest ∨
      mixerValid (get (act.effect cache).metrics pmRequest) = true := by
  have request : pmRequest = pmRequest ∨ pmRequest = pmApplied := .inl rfl
  cases act with
  | guestWrite value size address =>
      by_cases changed : get (busWrite cache.metrics value size address).2 pmRequest =
          get cache.metrics pmRequest
      · exact .inl changed
      · obtain ⟨_, _, _, valid, stored⟩ := busWrite_cell changed
        exact .inr ((congrArg mixerValid stored).trans valid)
  | guestRead size address => exact .inl rfl
  | set index value other => exact .inl (get_set_mailbox value request other)
  | add index value => exact .inl (get_add_mailbox value request)
  | flag mask enabled => exact .inl (get_flag_of_ne (by decide))
  | cache cache => exact .inl rfl

theorem act_kept (act : Act) (host : Host) : Kept host (host.act act) where
  valid valid := by
    rcases effect_request act host.cache with same | stored
    · exact (congrArg mixerValid same).trans valid
    · exact stored
  posted _ := List.mem_cons_self
  applied := effect_applied act host.cache
  requests word member := List.mem_cons_of_mem _ member
  seen seen := by
    obtain ⟨seen, same⟩ := Bool.and_eq_true_iff.mp seen
    exact ⟨seen, beq_iff_eq.mp same⟩

theorem turn_kept (host : Host) : Kept host host.turn := by
  have acts : ∀ (acts : List Act) (start : Host), Kept host start →
      Kept host (acts.foldl (fun host act => host.act act) start) := by
    intro acts
    induction acts with
    | nil => exact fun _ => id
    | cons act rest ih => exact fun start kept => ih _ (kept.trans (act_kept act start))
  unfold Host.turn
  split
  · exact .refl _
  · exact acts _ _ (.before _ host)

/-- Rendering leaves the mailbox to the guest. -/
theorem mailPort_upholds (before : Host) : mailPort.Upholds (Kept before) where
  readByte address host kept := by
    refine (kept.trans (turn_kept host)).trans (Kept.of_cache ?_ ?_)
    · exact readByte_request host.turn.cache address
    · exact (readByte_requested host.turn.cache address).metrics pmApplied (by decide)
  prefetch address length host kept := by
    refine (kept.trans (turn_kept host)).trans (Kept.of_cache ?_ ?_)
    · exact prefetch_request host.turn.cache address length
    · exact (prefetch_requested host.turn.cache address length).metrics pmApplied (by decide)
  renderBegin host kept := (kept.trans (turn_kept host)).trans (Kept.of_cache rfl rfl)
  add index value host kept := by
    refine (kept.trans (turn_kept host)).trans (Kept.of_cache ?_ ?_)
    · exact get_add_mailbox value (.inl rfl)
    · exact get_add_mailbox value (.inr rfl)

/-- So do the updates of the bank that follow a register write or a reset. -/
theorem probe_kept (host : Host) {change : Metrics → Metrics}
    (mailbox : ∀ metrics word, word = pmRequest ∨ word = pmApplied →
      get (change metrics) word = get metrics word) :
    Kept host (mailPort.probe change host) :=
  (turn_kept host).trans (Kept.of_cache (mailbox _ _ (.inl rfl)) (mailbox _ _ (.inr rfl)))

variable {F D : Type} [Floating F]

/-- The mailbox invariant. -/
structure Sound (live : Live F D) (host : Host) : Prop where
  valid : mixerValid host.request = true
  posted : host.request ∈ host.requests
  applied : host.applied = live.lastMixer
  earlier : live.lastMixer = 0 ∨ live.lastMixer ∈ host.requests
  settings : settings live = .ofWord (inForceWord live.lastMixer)
  acknowledged : host.seen = true → host.applied = host.request

variable {live after : Live F D} {host next : Host}

/-- Everything but an adoption preserves the invariant: the mailbox is left to the
guest and the settings stay. -/
theorem Sound.kept (sound : Sound live host) (kept : Kept host next)
    (lastMixer : after.lastMixer = live.lastMixer)
    (same : Mailbox.settings after = Mailbox.settings live) : Sound after next where
  valid := kept.valid sound.valid
  posted := kept.posted sound.posted
  applied := kept.applied.trans (sound.applied.trans lastMixer.symm)
  earlier := lastMixer ▸ sound.earlier.imp_right (kept.requests _)
  settings := by rw [same, sound.settings, lastMixer]
  acknowledged seen := by
    obtain ⟨seen, request⟩ := kept.seen seen
    exact kept.applied.trans ((sound.acknowledged seen).trans request.symm)

/-- `paula_live_mixer_apply` adopts the whole of a posted word, or nothing. -/
theorem Sound.mixerApply (sound : Sound live host) (during : List (List Act)) :
    Sound (live.mixerApply mailPort (host.load during)).1
      (live.mixerApply mailPort (host.load during)).2 := by
  obtain ⟨valid, posted, applied, earlier, settings, _⟩ := sound
  have word : get (mailPort.metrics (host.load during)) pmRequest = host.request := rfl
  simp only [Live.mixerApply, word]
  by_cases skipped : host.request = live.lastMixer ∨ mixerValid host.request = false
  · rw [if_pos skipped]
    refine ⟨valid, posted, applied, earlier, settings, fun _ => ?_⟩
    refine applied.trans (Eq.symm ?_)
    exact skipped.resolve_right fun invalid => absurd (valid.symm.trans invalid) (by decide)
  · rw [if_neg skipped]
    have kept : Kept (host.load during) (host.load during).turn := turn_kept _
    have stored : get (Probe.set (host.load during).turn.cache.metrics pmApplied host.request)
        pmApplied = host.request := by
      have cell : ∀ metrics, get metrics pmApplied = metrics pmApplied := fun _ => rfl
      rw [Probe.set, if_pos (.inr rfl), cell]
      exact Function.update_self _ _ _
    have request : get (Probe.set (host.load during).turn.cache.metrics pmApplied host.request)
        pmRequest = (host.load during).turn.request := get_set_of_ne (by decide)
    have nonzero : host.request ≠ 0 := fun zero => by
      rw [zero] at valid
      exact absurd valid (by decide)
    refine ⟨?_, ?_, stored, ?_, ?_, ?_⟩
    · exact (congrArg mixerValid request).trans (kept.valid valid)
    · exact (show _ = _ from request) ▸ kept.posted posted
    · exact .inr (kept.requests _ posted)
    · refine (settings_adopt live host.request).trans ?_
      change Settings.ofWord host.request = Settings.ofWord (inForceWord host.request)
      rw [inForceWord, if_neg nonzero]
    · intro seen
      exact stored.trans ((kept.seen seen).2.symm.trans request.symm)

variable [Floating D]

/-- The mixer starts with the default word in force, if the conversion factor of the
source rounds to a unit gain. -/
theorem start_sound (unit : (ofRat 100 * ofRat (1 / 100) : F) = ofRat 1) (cache : Cache) :
    Sound (start cache : State F D).live (start cache : State F D).host := by
  have channels : List.finRange 4 = [0, 1, 2, 3] := rfl
  have kept : ∀ word, word = pmRequest ∨ word = pmApplied →
      get (start cache : State F D).host.cache.metrics word = get Probe.init word := by
    intro word mailbox
    have cell : ∀ (metrics : Metrics) (ch : Fin 4),
        get (Probe.set metrics (channelCell ch ppChPer) 1) word = get metrics word := by
      intro metrics ch
      refine get_set_mailbox 1 mailbox fun same => ?_
      have inside := ch.isLt
      simp only [channelCell, ppChPer, pmApplied] at same
      omega
    change get ((List.finRange 4).foldl
      (fun metrics ch => Probe.set metrics (channelCell ch ppChPer) 1) Probe.init) word = _
    simp only [channels, List.foldl_cons, List.foldl_nil, cell]
  have request : (start cache : State F D).host.request = pmDefault := kept pmRequest (.inl rfl)
  have applied : (start cache : State F D).host.applied = 0 := kept pmApplied (.inr rfl)
  refine ⟨?_, ?_, applied, .inl rfl, ?_, fun seen => by cases seen⟩
  · rw [request]
    decide
  · rw [request]
    exact List.mem_singleton_self _
  · have stereo : (wordStereo pmDefault : F) =
        if Floating.lt (ofRat 1 : F) (ofRat 0) then ofRat 0
        else if Floating.lt (ofRat 1 : F) (ofRat 1) then ofRat 1 else ofRat 1 :=
      congrArg (fun s : F => if Floating.lt s (ofRat 0) then ofRat 0
        else if Floating.lt (ofRat 1) s then ofRat 1 else s) unit
    change settings (start cache : State F D).live = Settings.ofWord (inForceWord 0)
    rw [show inForceWord 0 = pmDefault from if_pos rfl]
    refine Settings.ext (show _ = _ from unit.symm) stereo.symm ?_ ?_
    · rfl
    · funext ch
      fin_cases ch <;> rfl

variable [Arith F D]

theorem Sound.renderFrame (sound : Sound live host) :
    Sound (live.renderFrame mailPort host).2.1 (live.renderFrame mailPort host).2.2 := by
  obtain ⟨target, lastMixer⟩ := renderFrame_settings live host mailPort
  refine sound.kept ?_ lastMixer (settings_of_core target
    (renderFrame_keeps live host mailPort).settings)
  exact renderFrame_upholds live (mailPort_upholds host) (.refl host)

theorem Sound.renderFrames (frames : Nat) (sound : Sound live host) :
    Sound (live.renderFrames mailPort frames host).2.1
      (live.renderFrames mailPort frames host).2.2 := by
  induction frames generalizing live host with
  | zero => exact sound
  | succ frames ih => exact ih sound.renderFrame

theorem step_sound {label : Label} {state next : State F D} (sound : Sound state.live state.host)
    (stepped : step label state = some next) : Sound next.live next.host := by
  cases label with
  | act act =>
      cases stepped
      exact sound.kept (act_kept act state.host) rfl rfl
  | apply during =>
      cases stepped
      exact sound.mixerApply during
  | render frames during =>
      cases stepped
      refine ((sound.mixerApply during).renderFrames frames).kept ?_ rfl rfl
      exact (mailPort_upholds _).add _ _ _ (.refl _)
  | write address value during =>
      cases stepped
      refine sound.kept ((Kept.before during state.host).trans (probe_kept _ ?_)) rfl
        (settings_of_core rfl (writeRegister16_settings _ _ _))
      rintro metrics word (rfl | rfl)
      · exact get_writeShadow_outside (.inr (by decide)) (by decide) _ _ _
      · exact get_writeShadow_outside (.inr (by decide)) (by decide) _ _ _
  | reset during =>
      cases stepped
      exact sound.kept ((Kept.before during state.host).trans
        (probe_kept _ fun _ _ mailbox => get_clearShadow_mailbox mailbox)) rfl
        (settings_of_core rfl rfl)

end Invariant

section Protocol

variable {F D : Type} [Floating F]

/-- The mailbox as both parties see it between two operations. -/
structure Protocol (state : State F D) : Prop where
  request : mixerValid state.host.request = true
  applied : state.host.applied = 0 ∨ state.host.applied ∈ state.host.requests
  settings : settings state.live = .ofWord (inForceWord state.host.applied)
  acknowledged : state.host.seen = true → state.host.applied = state.host.request

/-- What a guest access may do to the bank. -/
def GuestConfined (metrics : Metrics) : Prop :=
  ∀ (value : UInt64) (size : Nat) (address : UInt64) (word : Nat),
    (busWrite metrics value size address).2 word ≠ metrics word →
      word = pmRequest ∧ size = 4 ∧ address = probeBase + 4 * UInt64.ofNat pmRequest ∧
        mixerValid value.toUInt32 = true ∧
        (busWrite metrics value size address).2 word = value.toUInt32

variable [Floating D] [Arith F D]

/-- The mailbox protocol: in every state of every run the posted word is valid, the
acknowledged word was posted, the renderer shows the settings of that one word, and an
apply with no later request acknowledges the posted word.  Guest accesses are confined
to the posted word, and packing and decoding are mutually inverse on valid words. -/
theorem mailbox_protocol (unit : (ofRat 100 * ofRat (1 / 100) : F) = ofRat 1) {cache : Cache}
    {labels : List Label} {state : State F D}
    (run : machine.Runs Machine.anyStep (start cache) labels state) :
    Protocol state ∧ GuestConfined state.host.cache.metrics ∧
      (∀ word, mixerValid word = true → (mixerFields word).Valid ∧ (mixerFields word).pack = word) ∧
      ∀ fields : MixerFields, fields.Valid →
        mixerValid fields.pack = true ∧ mixerFields fields.pack = fields := by
  have sound : Sound state.live state.host :=
    run.invariant (motive := fun state => Sound state.live state.host)
      (fun _ _ _ _ stepped sound => step_sound sound stepped) (start_sound unit cache)
  refine ⟨⟨sound.valid, ?_, ?_, sound.acknowledged⟩, fun _ _ _ _ => busWrite_cell,
    fun word valid => ⟨mixerFields_valid valid, pack_mixerFields valid⟩,
    fun fields valid => valid.pack⟩
  · exact sound.applied ▸ sound.earlier
  · exact sound.applied ▸ sound.settings

/-- A word is posted, refused, posted again and adopted after a refused one. -/
def postedTwice : List Label :=
  [.act (.guestWrite 0x80000a32 4 0xdeadb188), .act (.guestWrite 0x80000a33 2 0xdeadb188),
    .act (.set ppPending 3 (by decide)), .write 0xdff096 0x8201 [], .apply [],
    .act (.guestWrite 0x8000007f 4 0xdeadb188), .reset []]

set_option maxRecDepth 20000 in
theorem mailbox_protocol_of_postedTwice :
    ∃ state : State ℚ ℚ, machine.Runs Machine.anyStep (start PageCache.sampleCache) postedTwice state ∧
      Protocol state ∧ (state.host.applied, state.host.request) = (0x80000a32, 0x80000a32) := by
  obtain ⟨state, run, words⟩ := Machine.runs_of_observed
    (show (machine.run Machine.anyStep postedTwice (start PageCache.sampleCache : State ℚ ℚ)).map
      (fun state => (state.host.applied, state.host.request)) = some (0x80000a32, 0x80000a32)
      by rfl)
  exact ⟨state, run, (mailbox_protocol (by norm_num [ofRat]) run).1, words⟩

end Protocol

end Paulastorm.Live.Mailbox
