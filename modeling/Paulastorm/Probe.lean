import Mathlib.Logic.Function.Basic
import Mathlib.Tactic.SplitIfs

namespace Paulastorm.Probe

/-! The scalar diagnostic bank shared by both processors, and the mixer mailbox
that lives in the same array (`paula_probe.c`, `paula_probe.h`). -/

/-- The metric words.  Only indices below `probeWords` exist. -/
abbrev Metrics := Nat → UInt32

abbrev probeBase : UInt64 := 0xdeadb000
abbrev probeMagic : UInt32 := 0x5041554c
abbrev probeVersion : UInt32 := 1
abbrev probeWords : Nat := 128

abbrev ppMagic : Nat := 0
abbrev ppVersion : Nat := 1
abbrev ppWords : Nat := 2
abbrev ppFlags : Nat := 3
abbrev ppPcmFrames : Nat := 4
abbrev ppCaptured : Nat := 5
abbrev ppDropped : Nat := 6
abbrev ppConsumed : Nat := 7
abbrev ppPending : Nat := 8
abbrev ppLastAddr : Nat := 9
abbrev ppLastValue : Nat := 10
abbrev ppLastTicksLo : Nat := 11
abbrev ppLastTicksHi : Nat := 12
abbrev ppCacheMisses : Nat := 13
abbrev ppCacheReady : Nat := 14
abbrev ppCachePending : Nat := 15
abbrev ppCacheFetches : Nat := 16
abbrev ppCacheInvalidations : Nat := 17
abbrev ppCacheInvalidAddr : Nat := 18
abbrev ppApplied : Nat := 19
abbrev ppIgnored : Nat := 20
abbrev ppAuddatWrites : Nat := 21
abbrev ppDmacon : Nat := 22
abbrev ppIntena : Nat := 23
abbrev ppIntreq : Nat := 24
abbrev ppAdkcon : Nat := 25
abbrev ppNonzeroFrames : Nat := 26
abbrev ppPeakLeft : Nat := 27
abbrev ppPeakRight : Nat := 28
abbrev ppMaiCtl : Nat := 29
abbrev ppMaiError : Nat := 30
abbrev ppSampleRate : Nat := 31
abbrev ppCounterFreq : Nat := 32
abbrev ppRenderFrames : Nat := 33
abbrev ppSampleReads : Nat := 34
abbrev ppVirtualIrqs : Nat := 35
abbrev ppCacheRequests : Nat := 36
abbrev ppCaptureLockDrops : Nat := 37
abbrev ppCaptureFullDrops : Nat := 38
abbrev ppCacheStale : Nat := 39
abbrev ppResyncs : Nat := 40
abbrev ppResyncSkipped : Nat := 41
abbrev ppReplayLagUs : Nat := 42
abbrev ppReplaySilentFrames : Nat := 43
abbrev ppSnapshotRetries : Nat := 44
abbrev ppCacheZeroReturns : Nat := 45
abbrev ppCacheMissReady : Nat := 46
abbrev ppCacheWaitFrames : Nat := 47
abbrev ppCacheWaitRecoveries : Nat := 48
abbrev ppCachePrefetchPages : Nat := 49

abbrev mixerMagic : UInt32 := 0x504d4958
abbrev mixerVersion : UInt32 := 2
abbrev pmMagic : Nat := 96
abbrev pmVersion : Nat := 97
abbrev pmRequest : Nat := 98
abbrev pmApplied : Nat := 99
abbrev pmDefaults : Nat := 100
abbrev pmValid : UInt32 := 0x80000000
abbrev pmAllowed : UInt32 := 0x8007ffff
abbrev pmDefault : UInt32 := pmValid ||| (100 : UInt32) ||| ((100 : UInt32) <<< 7)

abbrev ppChLoc : Nat := 0
abbrev ppChLen : Nat := 1
abbrev ppChPer : Nat := 2
abbrev ppChVol : Nat := 3
abbrev ppChDat : Nat := 4
abbrev ppChFlags : Nat := 5
abbrev ppChWrites : Nat := 6

/-- `PP_CHANNEL_BASE + ch * PP_CHANNEL_STRIDE + cell`. -/
abbrev channelCell (ch : Fin 4) (cell : Nat) : Nat := 64 + ch.val * 8 + cell

abbrev ppFlagArmed : UInt32 := 1
abbrev ppFlagHdmiReady : UInt32 := 2
abbrev ppFlagRendering : UInt32 := 4
abbrev ppFlagCaptureFailed : UInt32 := 8
abbrev ppFlagMaiFailed : UInt32 := 16
abbrev ppFlagCacheWorker : UInt32 := 32

/-- `paula_mixer_pack`. -/
def mixerPack (master stereo linear mute : UInt32) : UInt32 :=
  pmValid ||| (master &&& (127 : UInt32)) ||| ((stereo &&& (127 : UInt32)) <<< 7) |||
    ((linear &&& (1 : UInt32)) <<< 14) ||| ((mute &&& (15 : UInt32)) <<< 15)

/-- `paula_mixer_valid`. -/
def mixerValid (word : UInt32) : Bool :=
  (word &&& ~~~pmAllowed) == 0 && (word &&& pmValid) != 0 &&
    decide (word &&& (127 : UInt32) ≤ 100) && decide ((word >>> 7) &&& (127 : UInt32) ≤ 100)

/-- `paula_probe_init`. -/
def init : Metrics :=
  Function.update (Function.update (fun _ => 0) pmRequest pmDefault) pmApplied 0

/-- `paula_probe_set`: the identity words and the guest's mailbox are not writable. -/
def set (metrics : Metrics) (index : Nat) (value : UInt32) : Metrics :=
  if (3 ≤ index ∧ index < pmMagic) ∨ index = pmApplied then Function.update metrics index value
  else metrics

/-- `paula_probe_add`. -/
def add (metrics : Metrics) (index : Nat) (value : UInt32) : Metrics :=
  if 3 ≤ index ∧ index < pmMagic then Function.update metrics index (metrics index + value)
  else metrics

/-- `paula_probe_flag`. -/
def flag (metrics : Metrics) (mask : UInt32) (enabled : Bool) : Metrics :=
  if enabled then Function.update metrics ppFlags (metrics ppFlags ||| mask)
  else Function.update metrics ppFlags (metrics ppFlags &&& ~~~mask)

/-- `paula_probe_get`. -/
def get (metrics : Metrics) (index : Nat) : UInt32 :=
  if index = pmMagic then mixerMagic
  else if index = pmVersion then mixerVersion
  else if index = pmDefaults then pmDefault
  else if index = ppMagic then probeMagic
  else if index = ppVersion then probeVersion
  else if index = ppWords then probeWords.toUInt32
  else if probeWords ≤ index then 0
  else metrics index

/-- `paula_probe_bus_write`: whether the access was consumed, and the bank after it. -/
def busWrite (metrics : Metrics) (value : UInt64) (size : Nat) (address : UInt64) :
    Bool × Metrics :=
  if address < probeBase ∨ address ≥ probeBase + 512 then (false, metrics)
  else if size = 4 ∧ address = probeBase + 392 ∧ mixerValid value.toUInt32 then
    (true, Function.update metrics pmRequest value.toUInt32)
  else (true, metrics)

/-- `paula_probe_bus_read`: the word read, if the access was consumed. -/
def busRead (metrics : Metrics) (size : Nat) (address : UInt64) : Option UInt64 :=
  if address < probeBase ∨ address ≥ probeBase + 512 then none
  else
    let offset := (address - probeBase).toUInt32
    if size ≠ 4 ∨ offset &&& 3 ≠ 0 then some 0
    else some (get metrics (offset >>> 2).toNat).toUInt64

variable {metrics : Metrics} {index other : Nat} {value : UInt32}

@[simp] theorem get_set_of_ne (different : other ≠ index) :
    get (set metrics index value) other = get metrics other := by
  unfold set
  split
  · simp only [get, Function.update_of_ne different]
  · rfl

@[simp] theorem get_add_of_ne (different : other ≠ index) :
    get (add metrics index value) other = get metrics other := by
  unfold add
  split
  · simp only [get, Function.update_of_ne different]
  · rfl

@[simp] theorem get_flag_of_ne {mask : UInt32} {enabled : Bool} (different : other ≠ ppFlags) :
    get (flag metrics mask enabled) other = get metrics other := by
  cases enabled <;> simp [flag, get, Function.update_of_ne different]

/-- Every word between the identity words and the mailbox reads back what is stored. -/
theorem get_of_metric (lower : 3 ≤ index) (upper : index < pmMagic) :
    get metrics index = metrics index := by
  simp only [pmMagic] at upper
  simp only [get, pmMagic, pmVersion, pmDefaults, ppMagic, ppVersion, ppWords, probeWords]
  split_ifs <;> first | rfl | omega

theorem get_set_self (lower : 3 ≤ index) (upper : index < pmMagic) :
    get (set metrics index value) index = value := by
  rw [get_of_metric lower upper, set, if_pos (Or.inl ⟨lower, upper⟩), Function.update_self]

theorem get_add_self (lower : 3 ≤ index) (upper : index < pmMagic) :
    get (add metrics index value) index = get metrics index + value := by
  rw [get_of_metric lower upper, get_of_metric lower upper, add, if_pos ⟨lower, upper⟩,
    Function.update_self]

end Paulastorm.Probe
