import Paulastorm.Live.Host
import Paulastorm.Live.Settings
import Paulastorm.Mirror.PageCache.Service

namespace Paulastorm.Live

/-! Rendering with a cache that misses refines rendering with one that never does.

A failed attempt is a stutter: it changes nothing that a later frame depends on,
and the complete frames are those of a run on an always-ready cache.
-/

open Paulastorm.Core Mirror Probe

/-- A cache in which every byte is at hand. -/
def idealPort (chip : Nat → UInt8) : Port Metrics where
  readByte address metrics := (if address < chipLimit then chip address.toNat else 0, metrics)
  prefetch _ _ metrics := metrics
  renderBegin metrics := metrics
  renderMissed _ := false
  metrics metrics := metrics
  probe change metrics := change metrics

theorem idealPort_owns (chip : Nat → UInt8) : (idealPort chip).Owns fun _ => True :=
  ⟨fun _ _ => rfl, fun _ _ => rfl, fun _ _ _ _ => rfl, fun _ _ _ _ _ => rfl, fun _ _ _ => rfl⟩

/-- What can be seen of a complete frame: the core, the sample before the output
gate, the master gain and the committed interrupts. -/
@[ext] structure Observation (F D : Type) where
  core : Paula F D
  left : F
  right : F
  masterGain : F
  irqs : UInt32

/-- What happens to the mirror, on either processor. -/
inductive Op (chip : Nat → UInt8) where
  | write (address : UInt32) (value : UInt16)
  | cpu0 (interference : Interference chip)
  | mixerApply
  | render (frames : Nat)

/-- What happens to the mirror in a run without misses. -/
inductive IdealOp where
  | write (address : UInt32) (value : UInt16)
  | frame (word : UInt32)

variable {F D σ : Type}

def observe (port : Port σ) (live : Live F D) (host : σ) : Observation F D where
  core := live.core
  left := live.lastLeft
  right := live.lastRight
  masterGain := live.masterGain
  irqs := get (port.metrics host) ppVirtualIrqs

section Settings

variable [Floating F]

/-- The core in which a word has been adopted, if there is one. -/
def inForce (word : UInt32) (core : Paula F D) : Paula F D :=
  if word = 0 then core else adoptCore word core

/-- The master target of a word, if there is one. -/
def targetOf (word : UInt32) (target : F) : F :=
  if word = 0 then target else ofRat (word &&& (127 : UInt32)).toNat * ofRat (1 / 100)

/-- The settings of the last adopted word, if any, are in force. -/
structure Settled (live : Live F D) : Prop where
  word : live.lastMixer = 0 ∨ mixerValid live.lastMixer = true
  core : inForce live.lastMixer live.core = live.core
  target : targetOf live.lastMixer live.masterTarget = live.masterTarget

theorem inForce_inForce (word : UInt32) (core : Paula F D) :
    inForce word (inForce word core) = inForce word core := by
  unfold inForce
  split
  · rfl
  · exact adoptCore_adoptCore word word core

theorem adoptCore_inForce (first second : UInt32) (core : Paula F D) :
    adoptCore second (inForce first core) = adoptCore second core := by
  unfold inForce
  split
  · rfl
  · exact adoptCore_adoptCore first second core

theorem writeRegister16_inForce [Floating D] (word : UInt32) (core : Paula F D) (address : UInt32)
    (value : UInt16) : (inForce word core).writeRegister16 address value =
      inForce word (core.writeRegister16 address value) := by
  unfold inForce
  split
  · rfl
  · exact writeRegister16_adoptCore word core address value

theorem inForce_self {word : UInt32} (before : Paula F D) {after : Paula F D}
    (same : after.settings = (inForce word before).settings) : inForce word after = after := by
  unfold inForce at same ⊢
  split at same
  next none => rw [if_pos none]
  next some => rw [if_neg some, adoptCore_self same]

end Settings

variable [Floating F]

/-- The ideal state has the real one's audible state, but for the settings. -/
structure Twin (chip : Nat → UInt8) (live : Live F D) (host : Host chip) (ideal : Live F D)
    (metrics : Metrics) : Prop where
  truthful : Truthful chip host.cache
  word : live.lastMixer = 0 ∨ mixerValid live.lastMixer = true
  core : live.core = inForce live.lastMixer ideal.core
  target : live.masterTarget = targetOf live.lastMixer ideal.masterTarget
  masterGain : live.masterGain = ideal.masterGain
  irqs : get host.cache.metrics ppVirtualIrqs = get metrics ppVirtualIrqs
  settled : ideal.Settled

variable {chip : Nat → UInt8} {live ideal : Live F D} {host : Host chip} {metrics : Metrics}

theorem Settled.write [Floating D] (settled : ideal.Settled) (port : Port σ) (address : UInt32) (value : UInt16)
    (host : σ) : (ideal.write port address value host).1.Settled where
  word := settled.word
  core := (writeRegister16_inForce _ _ _ _).symm.trans
    (congrArg (Paula.writeRegister16 · address value) settled.core)
  target := settled.target

theorem Twin.write [Floating D] (twin : Twin chip live host ideal metrics) (address : UInt32) (value : UInt16) :
    Twin chip (live.write (livePort chip) address value host).1
      (live.write (livePort chip) address value host).2
      (ideal.write (idealPort chip) address value metrics).1
      (ideal.write (idealPort chip) address value metrics).2 where
  truthful := twin.truthful
  word := twin.word
  core := (congrArg (Paula.writeRegister16 · address value) twin.core).trans
    (writeRegister16_inForce _ _ _ _)
  target := twin.target
  masterGain := twin.masterGain
  irqs := by
    change get (writeShadow _ _ _) _ = get (writeShadow _ _ _) _
    rw [get_writeShadow (by decide) (by decide), get_writeShadow (by decide) (by decide), twin.irqs]
  settled := twin.settled.write (idealPort chip) address value metrics

/-- The acknowledgement word is not the interrupt counter. -/
theorem get_applied (metrics : Metrics) (word : UInt32) :
    get (set metrics pmApplied word) ppVirtualIrqs = get metrics ppVirtualIrqs :=
  get_set_of_ne (by decide)

theorem Twin.cpu0 (twin : Twin chip live host ideal metrics) (interference : Interference chip) :
    Twin chip live { host with cache := interference.act host.cache } ideal metrics :=
  { twin with
    truthful := interference.truthful _ twin.truthful
    irqs := (interference.metrics _ _ (by decide)).trans twin.irqs }

theorem Twin.mixerApply (twin : Twin chip live host ideal metrics) :
    Twin chip (live.mixerApply (livePort chip) host).1 (live.mixerApply (livePort chip) host).2
      ideal metrics := by
  have some : ∀ word, mixerValid word = true → word ≠ 0 := by
    rintro word valid rfl
    exact absurd valid (by decide)
  simp only [Live.mixerApply]
  generalize get ((livePort chip).metrics host) pmRequest = word
  split
  · exact twin
  next fresh =>
    simp only [not_or, Bool.not_eq_false] at fresh
    exact { twin with
      word := .inr fresh.2
      core := by
        have core : (live.adopt word).core = adoptCore word live.core := rfl
        rw [core, twin.core, adoptCore_inForce]
        exact (if_neg (some word fresh.2)).symm
      target := (if_neg (some word fresh.2)).symm
      irqs := (get_applied _ _).trans twin.irqs }

/-- The guest's mailbox holds the word, and the ideal run adopts it. -/
def idealApply (chip : Nat → UInt8) (word : UInt32) (ideal : Live F D) (metrics : Metrics) :
    Live F D × Metrics :=
  ideal.mixerApply (idealPort chip) (Function.update metrics pmRequest word)

/-- Once the word in force is adopted, the twins only differ in what no frame shows. -/
theorem Twin.apply (twin : Twin chip live host ideal metrics) :
    (idealApply chip live.lastMixer ideal metrics).1.core = live.core ∧
      (idealApply chip live.lastMixer ideal metrics).1.masterTarget = live.masterTarget ∧
      (idealApply chip live.lastMixer ideal metrics).1.masterGain = live.masterGain ∧
      get (idealApply chip live.lastMixer ideal metrics).2 ppVirtualIrqs =
        get host.cache.metrics ppVirtualIrqs ∧
      (idealApply chip live.lastMixer ideal metrics).1.Settled := by
  have posted : get (Function.update metrics pmRequest live.lastMixer) pmRequest =
      live.lastMixer := by
    simp [Probe.get, show ¬ probeWords ≤ pmRequest by decide]
  have kept : get (Function.update metrics pmRequest live.lastMixer) ppVirtualIrqs =
      get metrics ppVirtualIrqs := by
    simp only [Probe.get, Function.update_of_ne (show ppVirtualIrqs ≠ pmRequest by decide)]
  have core := twin.core
  have target := twin.target
  simp only [idealApply, Live.mixerApply]
  rw [show (idealPort chip).metrics (Function.update metrics pmRequest live.lastMixer) =
    Function.update metrics pmRequest live.lastMixer from rfl, posted]
  split
  next same =>
    have settled : ideal.core = live.core ∧ ideal.masterTarget = live.masterTarget := by
      rcases same with same | invalid
      · rw [same] at core target
        exact ⟨twin.settled.core.symm.trans core.symm, twin.settled.target.symm.trans target.symm⟩
      · have none : live.lastMixer = 0 :=
          twin.word.resolve_right fun valid => absurd (valid.symm.trans invalid) (by decide)
        rw [none] at core target
        exact ⟨core.symm, target.symm⟩
    exact ⟨settled.1, settled.2, twin.masterGain.symm, kept.trans twin.irqs.symm, twin.settled⟩
  next fresh =>
    simp only [not_or, Bool.not_eq_false] at fresh
    have some : live.lastMixer ≠ 0 := fun none => absurd (none ▸ fresh.2) (by decide)
    have adopted : (ideal.adopt live.lastMixer).core = live.core := core.trans (if_neg some) |>.symm
    refine ⟨adopted, (target.trans (if_neg some)).symm, twin.masterGain.symm,
      (get_applied _ _).trans (kept.trans twin.irqs.symm), .inr fresh.2, ?_, if_neg some⟩
    change inForce live.lastMixer (adoptCore live.lastMixer ideal.core) = _
    rw [inForce, if_neg some, adoptCore_adoptCore]
    rfl

variable [Floating D] [Arith F D]

/-- Where the core is told apart by no setting, an attempt that does not miss is
an attempt on the ideal cache. -/
theorem attempt_ideal (core : Paula F D) (metrics : Metrics) (truthful : Truthful chip host.cache)
    (complete : (attempt (livePort chip) core host).2.host.cache.renderMiss = false) :
    (attempt (livePort chip) core host).1 = (attempt (idealPort chip) core metrics).1 ∧
      (attempt (livePort chip) core host).2.speculativeIrqs =
        (attempt (idealPort chip) core metrics).2.speculativeIrqs := by
  have follows : Follows (callbacks (livePort chip)) (callbacks (idealPort chip))
      (fun state => state.host.cache.renderMiss = true)
      (fun state ideal => Truthful chip state.host.cache ∧ state.renderAttempt = true ∧
        ideal.renderAttempt = true ∧ state.speculativeIrqs = ideal.speculativeIrqs) := by
    refine ⟨?_, ?_, ?_, ?_⟩
    · intro address state missed
      refine (readByte_requested state.host.turn.cache address).missed ?_
      rw [Host.turn_renderMiss, missed]
    · intro bits state missed
      simp only [callbacks]
      split <;> exact missed
    · rintro address state ideal ⟨truthful, real, other, counted⟩
      rcases livePort_readByte truthful address with missed | byte
      · exact .inl missed
      · exact .inr ⟨byte, (livePort_preserves chip).readByte address state.host truthful, real,
          other, counted⟩
    · rintro bits state ideal ⟨truthful, real, other, counted⟩
      simp only [callbacks, if_pos real, if_pos other]
      exact ⟨truthful, real, other, congrArg (· + 1) counted⟩
  have agrees : Agrees _ _ (attempt (livePort chip) core host)
      (attempt (idealPort chip) core metrics) := Paula.render_agrees follows core
    ⟨(livePort_preserves chip).renderBegin host truthful, rfl, rfl, rfl⟩
  rcases agrees with missed | ⟨same, related⟩
  · exact absurd (complete.symm.trans missed) (by decide)
  · exact ⟨same, related.2.2.2⟩

/-- A failed frame is a stutter. -/
theorem Twin.frame_failed (twin : Twin chip live host ideal metrics)
    (missed : live.frameMissed host (livePort chip) = true) :
    Twin chip (live.renderFrame (livePort chip) host).2.1 (live.renderFrame (livePort chip) host).2.2
      ideal metrics := by
  obtain ⟨core, masterGain, irqs⟩ :=
    renderFrame_failed live host (livePort_owns chip) (by decide) missed
  obtain ⟨target, word⟩ := renderFrame_settings live host (livePort chip)
  exact {
    truthful := renderFrame_preserves live (livePort_preserves chip) twin.truthful
    word := word ▸ twin.word
    core := by rw [core, word, twin.core]
    target := by rw [target, word, twin.target]
    masterGain := masterGain.trans twin.masterGain
    irqs := irqs.trans twin.irqs
    settled := twin.settled }

/-- A complete frame is a frame of the ideal run under the word in force. -/
theorem Twin.frame_complete (twin : Twin chip live host ideal metrics)
    (complete : live.frameMissed host (livePort chip) = false) :
    let real := live.renderFrame (livePort chip) host
    let before := idealApply chip live.lastMixer ideal metrics
    let after := before.1.renderFrame (idealPort chip) before.2
    observe (livePort chip) real.2.1 real.2.2 = observe (idealPort chip) after.2.1 after.2.2 ∧
      Twin chip real.2.1 real.2.2 after.2.1 after.2.2 := by
  intro real before after
  obtain ⟨core, target, masterGain, irqs, settled⟩ := twin.apply
  have committed := renderFrame_committed live host (livePort_owns chip) (by decide) complete
  have idealCommitted := renderFrame_committed before.1 before.2 (idealPort_owns chip) trivial rfl
  have looked := lookAhead_preserves (livePort_preserves chip) live twin.truthful
  have spoken : (speculation live host (livePort chip)).1 =
      (speculation before.1 before.2 (idealPort chip)).1 ∧
      (speculation live host (livePort chip)).2.speculativeIrqs =
        (speculation before.1 before.2 (idealPort chip)).2.speculativeIrqs := by
    simp only [speculation, before, core]
    exact attempt_ideal live.core _ looked complete
  obtain ⟨same, raised⟩ := spoken
  have sameCore : real.2.1.core = after.2.1.core :=
    committed.core.trans ((congrArg Prod.snd same).trans idealCommitted.core.symm)
  have sameGain : real.2.1.masterGain = after.2.1.masterGain := by
    rw [committed.masterGain, idealCommitted.masterGain, target, masterGain]
  have sameIrqs : get real.2.2.cache.metrics ppVirtualIrqs = get after.2.2 ppVirtualIrqs := by
    refine committed.irqs.trans (Eq.trans ?_ idealCommitted.irqs.symm)
    rw [raised]
    exact congrArg (· + _) irqs.symm
  have known := renderFrame_settings live host (livePort chip)
  have idealKnown := renderFrame_settings before.1 before.2 (idealPort chip)
  have kept := (renderFrame_keeps before.1 before.2 (idealPort chip)).settings
  refine ⟨Observation.ext sameCore ?_ ?_ sameGain sameIrqs, ?_⟩
  · refine committed.left.trans (Eq.trans ?_ idealCommitted.left.symm)
    rw [same, sameGain]
  · refine committed.right.trans (Eq.trans ?_ idealCommitted.right.symm)
    rw [same, sameGain]
  · exact {
      truthful := renderFrame_preserves live (livePort_preserves chip) twin.truthful
      word := known.2 ▸ twin.word
      core := by
        rw [sameCore, known.2]
        refine (inForce_self live.core ?_).symm
        rw [kept, core, twin.core, inForce_inForce]
      target := by
        rw [known.1, known.2, idealKnown.1, target, twin.target]
        unfold targetOf
        split <;> rfl
      masterGain := sameGain
      irqs := sameIrqs
      settled := {
        word := idealKnown.2 ▸ settled.word
        core := by
          rw [idealKnown.2]
          refine inForce_self before.1.core ?_
          rw [kept, settled.core]
        target := by
          rw [idealKnown.1, idealKnown.2]
          exact settled.target } }

/-- What a run shows: its register writes, and its complete frames with the mixer
word in force. -/
inductive Event (F D : Type) where
  | write (address : UInt32) (value : UInt16)
  | frame (word : UInt32) (seen : Observation F D)

def Event.toIdeal : Event F D → IdealOp
  | .write address value => .write address value
  | .frame word _ => .frame word

def Event.seen? : Event F D → Option (Observation F D)
  | .write _ _ => none
  | .frame _ seen => some seen

/-- The complete frames of a call's frame loop. -/
def frameEvents (port : Port σ) : Nat → Live F D → σ → List (Event F D)
  | 0, _, _ => []
  | frames + 1, live, host =>
      let (_, live, host) := live.renderFrame port host
      let rest := frameEvents port frames live host
      if port.renderMissed host then rest else .frame live.lastMixer (observe port live host) :: rest

/-- Perform one operation on the live mirror. -/
def perform (op : Op chip) (live : Live F D) (host : Host chip) : Live F D × Host chip :=
  match op with
  | .write address value => live.write (livePort chip) address value host
  | .cpu0 interference => (live, { host with cache := interference.act host.cache })
  | .mixerApply => live.mixerApply (livePort chip) host
  | .render frames => (live.render (livePort chip) frames host).2

/-- The events of one operation. -/
def eventsOf (op : Op chip) (live : Live F D) (host : Host chip) : List (Event F D) :=
  match op with
  | .write address value => [.write address value]
  | .render frames =>
      let (live, host) := live.mixerApply (livePort chip) host
      frameEvents (livePort chip) frames live host
  | _ => []

/-- The events of a run. -/
def events : List (Op chip) → Live F D → Host chip → List (Event F D)
  | [], _, _ => []
  | op :: rest, live, host =>
      let (next, host') := perform op live host
      eventsOf op live host ++ events rest next host'

/-- The complete frames of a run on the ideal cache. -/
def idealRun (chip : Nat → UInt8) : List IdealOp → Live F D → Metrics → List (Observation F D)
  | [], _, _ => []
  | .write address value :: rest, live, metrics =>
      let (live, metrics) := live.write (idealPort chip) address value metrics
      idealRun chip rest live metrics
  | .frame word :: rest, live, metrics =>
      let (live, metrics) := idealApply chip word live metrics
      let (_, live, metrics) := live.renderFrame (idealPort chip) metrics
      observe (idealPort chip) live metrics :: idealRun chip rest live metrics

/-- The events are those of the ideal run, and leave the twins alike. -/
def Simulates (chip : Nat → UInt8) (ideal : Live F D) (metrics : Metrics)
    (events : List (Event F D)) (live : Live F D) (host : Host chip) : Prop :=
  ∃ ideal' metrics', Twin chip live host ideal' metrics' ∧ ∀ rest,
    idealRun chip (events.map Event.toIdeal ++ rest) ideal metrics =
      events.filterMap Event.seen? ++ idealRun chip rest ideal' metrics'

theorem Twin.frames (frames : Nat) {live : Live F D} {host : Host chip}
    (twin : Twin chip live host ideal metrics) :
    Simulates chip ideal metrics (frameEvents (livePort chip) frames live host)
      (renderFrames (livePort chip) frames live host).2.1
      (renderFrames (livePort chip) frames live host).2.2 := by
  induction frames generalizing live host ideal metrics with
  | zero => exact ⟨ideal, metrics, twin, fun _ => rfl⟩
  | succ frames ih =>
      have missed := renderFrame_missed live host (livePort_owns chip)
      simp only [frameEvents, renderFrames]
      cases complete : live.frameMissed host (livePort chip) with
      | true =>
          rw [if_pos (missed.trans complete)]
          exact ih (twin.frame_failed complete)
      | false =>
          rw [if_neg (by rw [missed, complete]; decide)]
          obtain ⟨same, after⟩ := twin.frame_complete complete
          obtain ⟨ideal', metrics', twin', run⟩ := ih after
          have known := (renderFrame_settings live host (livePort chip)).2
          refine ⟨ideal', metrics', twin', fun rest => ?_⟩
          rw [List.map_cons, List.filterMap_cons, List.cons_append, Event.toIdeal, idealRun, known]
          simp only [Event.seen?, List.cons_append, same]
          exact congrArg (_ :: ·) (run rest)

theorem Twin.perform (twin : Twin chip live host ideal metrics) (op : Op chip) :
    Simulates chip ideal metrics (eventsOf op live host) (perform op live host).1
      (perform op live host).2 := by
  cases op with
  | write address value =>
      exact ⟨_, _, twin.write address value, fun _ => rfl⟩
  | cpu0 interference => exact ⟨ideal, metrics, twin.cpu0 interference, fun _ => rfl⟩
  | mixerApply => exact ⟨ideal, metrics, twin.mixerApply, fun _ => rfl⟩
  | render frames =>
      obtain ⟨ideal', metrics', after, run⟩ := twin.mixerApply.frames frames
      refine ⟨ideal', metrics', { after with irqs := ?_ }, run⟩
      exact (get_add_of_ne (show ppVirtualIrqs ≠ ppRenderFrames by decide)).trans after.irqs

theorem Twin.events {ops : List (Op chip)} {live : Live F D} {host : Host chip}
    (twin : Twin chip live host ideal metrics) :
    (Live.events ops live host).filterMap Event.seen? =
      idealRun chip ((Live.events ops live host).map Event.toIdeal) ideal metrics := by
  induction ops generalizing live host ideal metrics with
  | nil => rfl
  | cons op rest ih =>
      obtain ⟨ideal', metrics', after, run⟩ := twin.perform op
      simp only [Live.events, List.filterMap_append, List.map_append]
      rw [run, ih after]

/-- Rendering through the cache refines rendering with every byte at hand: the
complete frames of any run show the core, the samples, the master gain and the
interrupt count of an ideal run under the same register writes and the same
mixer words in force.  A failed frame changes none of them. -/
theorem committed_frames_ideal (settled : live.Settled) (truthful : Truthful chip host.cache)
    (ops : List (Op chip)) :
    (events ops live host).filterMap Event.seen? =
        idealRun chip ((events ops live host).map Event.toIdeal) live host.cache.metrics ∧
      ∀ (live' : Live F D) (host' : Host chip), live'.frameMissed host' (livePort chip) = true →
        (live'.renderFrame (livePort chip) host').2.1.core = live'.core ∧
        (live'.renderFrame (livePort chip) host').2.1.masterGain = live'.masterGain ∧
        get (live'.renderFrame (livePort chip) host').2.2.cache.metrics ppVirtualIrqs =
          get host'.cache.metrics ppVirtualIrqs := by
  have twin : Twin chip live host live host.cache.metrics :=
    ⟨truthful, settled.word, settled.core.symm, settled.target.symm, rfl, rfl, settled⟩
  exact ⟨twin.events, fun live' host' missed =>
    renderFrame_failed live' host' (livePort_owns chip) (by decide) missed⟩

omit [Arith F D] in
/-- The state of `paula_live_init` has adopted no word. -/
theorem init_settled (port : Port σ) (host : σ) : (init port host : Live F D × σ).1.Settled :=
  ⟨.inl rfl, if_pos rfl, if_pos rfl⟩

/-- The chip of the sample run. -/
def ramp (address : Nat) : UInt8 := UInt8.ofNat address

/-- A one-word sample is started, missed, loaded and rendered; a write to its page withdraws it,
and it is missed and loaded once more. -/
def oneMiss : List (Op ramp) :=
  [.write 0xdff0a4 1, .write 0xdff0a8 64, .write 0xdff096 0x8201, .cpu0 (.post ramp pmDefault),
    .mixerApply, .render 1, .cpu0 (.service ramp), .render 2, .cpu0 (.invalidate ramp 0 2), .render 1,
    .cpu0 (.service ramp), .render 1]

theorem committed_frames_ideal_of_oneMiss :
    let host : Host ramp := ⟨PageCache.sampleCache.enable, []⟩
    let live : Live ℚ ℚ := (init (livePort ramp) host).1
    (events oneMiss live host).filterMap Event.seen? =
      idealRun ramp ((events oneMiss live host).map Event.toIdeal) live host.cache.metrics := by
  intro host live
  have truthful : Truthful ramp host.cache :=
    fun _ _ present => absurd (show tag 0 = ready from present) (by decide)
  exact (committed_frames_ideal (init_settled _ _) truthful oneMiss).1

end Paulastorm.Live
