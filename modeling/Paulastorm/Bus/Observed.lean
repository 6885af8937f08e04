import Mathlib.Tactic.IntervalCases
import Paulastorm.Bus

namespace Paulastorm.Bus

/-! Every write reaches the bus as the big-endian bytes of its value, and the mirror
is told of each write cycle once.  The only other cycles are the polls of a running blit. -/

open Library

/-- A write cycle and the value handed to `paula_mirror_capture` for it. -/
structure Observation where
  transaction : Transaction
  value : UInt32
deriving Repr, DecidableEq

def Observation.address (observation : Observation) : UInt32 := observation.transaction.address

def Observation.width (observation : Observation) : Nat :=
  if observation.transaction.byte then 1 else 2

/-- The byte writes that a captured event stands for. -/
def captureBytes (address value : UInt32) (width : Nat) : List (UInt32 × UInt8) :=
  if width = 1 then [(address, value.toUInt8)]
  else [(address, (value >>> 8).toUInt8), (address + 1, value.toUInt8)]

/-- The addresses that an invalidation covers. -/
def invalidateAddresses (address : UInt32) (width : Nat) : List UInt32 :=
  if width = 1 then [address] else [address, address + 1]

/-- A cycle on the bus with the calls that follow it. -/
def Observation.perform {State : Type u} (wires : Wires State) (state : State)
    (observation : Observation) : State :=
  wires.invalidate observation.address observation.width
    (wires.capture observation.address observation.value observation.width
      (wires.write observation.transaction state))

/-- The cycle is aligned and within the bus, and its event and its invalidation tell
of the bytes it stored. -/
structure Observation.Sound (observation : Observation) : Prop where
  masked : observation.address.toNat < 2 ^ 24
  aligned : observation.width = 2 → observation.address &&& 1 = 0
  captured : captureBytes observation.address observation.value observation.width =
    observation.transaction.bytes
  invalidated : invalidateAddresses observation.address observation.width =
    observation.transaction.bytes.map Prod.fst

/-- One thing that a driver call does: a read cycle of `check_blit_active`, or a write cycle
with the calls that follow it. -/
inductive Step where
  | poll (address : UInt32)
  | observed (observation : Observation)
deriving Repr, DecidableEq

def Step.perform {State : Type u} (wires : Wires State) (state : State) : Step → State
  | .poll address => (wires.read address false state).2
  | .observed observation => observation.perform wires state

def Step.observation? : Step → Option Observation
  | .poll _ => none
  | .observed observation => some observation

/-- The addresses of the cycles with which the driver waits for the blitter. -/
def polled (address : UInt32) : Prop := address = 0xdff002 ∨ address = 0xf00000

/-- A driver call that performs sound cycles, storing these bytes in order, and else polls the
blitter, provided that it may (`waits`) and that the wires ask for it. -/
def Writes (waits : Prop) (call : (State : Type u) → Wires State → State → State)
    (stored : List (UInt32 × UInt8)) : Prop :=
  ∃ observations : List Observation,
    (∀ observation ∈ observations, observation.Sound) ∧
    observations.flatMap (fun observation => observation.transaction.bytes) = stored ∧
    ∀ (State : Type u) (wires : Wires State) (state : State), ∃ steps : List Step,
      call State wires state = steps.foldl (Step.perform wires) state ∧
      steps.filterMap Step.observation? = observations ∧
      ∀ address, .poll address ∈ steps →
        polled address ∧ waits ∧ ∃ state, wires.blitWait state = true

/-- The reads of the wires change nothing. -/
def Steady {State : Type u} (wires : Wires State) : Prop :=
  ∀ address byte state, (wires.read address byte state).2 = state

section Compose

variable {first second : (State : Type u) → Wires State → State → State}
  {early late : List (UInt32 × UInt8)} {waits more : Prop}

theorem Writes.andThen (one : Writes waits first early) (two : Writes waits second late) :
    Writes waits (fun State wires state => second State wires (first State wires state))
      (early ++ late) := by
  obtain ⟨front, frontSound, frontBytes, frontCall⟩ := one
  obtain ⟨back, backSound, backBytes, backCall⟩ := two
  refine ⟨front ++ back, ?_, ?_, ?_⟩
  · intro observation member
    rcases List.mem_append.mp member with member | member
    · exact frontSound observation member
    · exact backSound observation member
  · rw [List.flatMap_append, frontBytes, backBytes]
  · intro State wires state
    obtain ⟨before, frontDone, frontSteps, frontPolls⟩ := frontCall State wires state
    obtain ⟨after, backDone, backSteps, backPolls⟩ := backCall State wires (first State wires state)
    refine ⟨before ++ after, ?_, ?_, ?_⟩
    · change second State wires (first State wires state) = _
      rw [backDone, frontDone, List.foldl_append]
    · rw [List.filterMap_append, frontSteps, backSteps]
    · intro address member
      exact (List.mem_append.mp member).elim (frontPolls address) (backPolls address)

theorem Writes.congr (written : Writes waits first early)
    (same : ∀ (State : Type u) (wires : Wires State) (state : State),
      second State wires state = first State wires state) : Writes waits second early := by
  obtain ⟨observations, sound, bytes, call⟩ := written
  refine ⟨observations, sound, bytes, fun State wires state => ?_⟩
  rw [same]
  exact call State wires state

theorem Writes.mono (written : Writes waits first early) (wider : waits → more) :
    Writes more first early := by
  obtain ⟨observations, sound, bytes, call⟩ := written
  refine ⟨observations, sound, bytes, fun State wires state => ?_⟩
  obtain ⟨steps, done, cycles, polls⟩ := call State wires state
  refine ⟨steps, done, cycles, fun address member => ?_⟩
  obtain ⟨place, may, asks⟩ := polls address member
  exact ⟨place, wider may, asks⟩

theorem Observation.Sound.writes {observation : Observation} (sound : observation.Sound)
    (call : ∀ (State : Type u) (wires : Wires State) (state : State),
      first State wires state = observation.perform wires state) :
    Writes waits first observation.transaction.bytes := by
  refine ⟨[observation], ?_, ?_, fun State wires state =>
    ⟨[.observed observation], call State wires state, rfl, fun _ member => ?_⟩⟩
  · intro other member
    rwa [List.mem_singleton.mp member]
  · rw [List.flatMap_cons, List.flatMap_nil, List.append_nil]
  · cases List.mem_singleton.mp member

/-- On steady wires the polls do not show. -/
theorem Writes.steady (written : Writes waits first early) :
    ∃ observations : List Observation,
      (∀ observation ∈ observations, observation.Sound) ∧
      observations.flatMap (fun observation => observation.transaction.bytes) = early ∧
      ∀ (State : Type u) (wires : Wires State), Steady wires → ∀ state : State,
        first State wires state = observations.foldl (Observation.perform wires) state := by
  obtain ⟨observations, sound, bytes, call⟩ := written
  refine ⟨observations, sound, bytes, fun State wires steady state => ?_⟩
  obtain ⟨steps, done, cycles, -⟩ := call State wires state
  rw [done, ← cycles]
  clear done cycles
  induction steps generalizing state with
  | nil => rfl
  | cons step rest ih =>
      cases step with
      | poll address =>
          rw [List.foldl_cons, Step.perform, steady]
          exact ih state
      | observed observation => exact ih _

end Compose

section Blitter

variable {State : Type u} (wires : Wires State)

theorem psRead16_even {address : UInt32} (even : address &&& 0xffffff &&& 1 = 0) (state : State) :
    psRead16 wires address state =
      ((wires.read (address &&& 0xffffff) false state).1.toUInt32,
        (wires.read (address &&& 0xffffff) false state).2) := by
  simp only [psRead16, if_neg (not_not.mpr even)]

/-- A turn of the loop of `check_blit_active` is a row of read cycles. -/
theorem pollOnce_steps (state : State) : ∃ addresses : List UInt32,
    (∀ address ∈ addresses, polled address) ∧
    (pollOnce wires state).2 = (addresses.map Step.poll).foldl (Step.perform wires) state := by
  have status := psRead16_even wires (by decide : (0xdff002 : UInt32) &&& 0xffffff &&& 1 = 0) state
  have dummy : ∀ state, psRead16 wires 0xf00000 state =
      ((wires.read 0xf00000 false state).1.toUInt32, (wires.read 0xf00000 false state).2) :=
    psRead16_even wires (by decide)
  rw [pollOnce, status]
  dsimp only
  split
  next =>
    refine ⟨[0xdff002, 0xf00000, 0xf00000], ?_, ?_⟩
    · intro address member
      simp only [List.mem_cons, List.not_mem_nil, or_false] at member
      rcases member with rfl | rfl | rfl
      · exact .inl rfl
      · exact .inr rfl
      · exact .inr rfl
    · simp only [dummy]
      rfl
  next =>
    refine ⟨[0xdff002], fun address member => .inl (List.mem_singleton.mp member), rfl⟩

theorem pollBlitter_steps (polls : Nat) (state : State) : ∃ addresses : List UInt32,
    (∀ address ∈ addresses, polled address) ∧
    pollBlitter wires polls state = (addresses.map Step.poll).foldl (Step.perform wires) state := by
  induction polls generalizing state with
  | zero => exact pollOnce_steps wires state
  | succ polls ih =>
      obtain ⟨first, firstPlaces, firstDone⟩ := pollOnce_steps wires state
      rw [pollBlitter]
      dsimp only
      split
      next =>
        obtain ⟨addresses, places, done⟩ := ih (pollOnce wires state).2
        refine ⟨first ++ addresses, ?_, ?_⟩
        · intro address member
          exact (List.mem_append.mp member).elim (firstPlaces address) (places address)
        · rw [List.map_append, List.foldl_append, ← firstDone, done]
      next => exact ⟨first, firstPlaces, firstDone⟩

/-- `check_blit_active` polls, or does nothing. -/
theorem checkBlitActive_writes (address size : UInt32) :
    Writes (Blits address size) (fun _ wires => checkBlitActive wires address size) [] := by
  refine ⟨[], nofun, rfl, fun State wires state => ?_⟩
  have quiet : ∃ steps : List Step, state = steps.foldl (Step.perform wires) state ∧
      steps.filterMap Step.observation? = [] ∧
      ∀ address', .poll address' ∈ steps →
        polled address' ∧ Blits address size ∧ ∃ state, wires.blitWait state = true :=
    ⟨[], rfl, rfl, nofun⟩
  dsimp only [checkBlitActive]
  split
  next => exact quiet
  next asks =>
    split
    next => exact quiet
    next blits =>
      obtain ⟨addresses, places, done⟩ := pollBlitter_steps wires (wires.blitPolls state) state
      refine ⟨addresses.map .poll, done, ?_, ?_⟩
      · rw [List.filterMap_map]
        exact List.filterMap_eq_nil_iff.mpr fun _ _ => rfl
      · intro address' member
        obtain ⟨_, listed, same⟩ := List.mem_map.mp member
        cases same
        exact ⟨places _ listed, not_not.mp blits, state, not_not.mp asks⟩

/-- On wires whose reads change nothing the wait does not show. -/
theorem checkBlitActive_steady {wires : Wires State} (steady : Steady wires)
    (address size : UInt32) (state : State) :
    checkBlitActive wires address size state = state := by
  obtain ⟨observations, -, bytes, done⟩ := (checkBlitActive_writes address size).steady
  rw [done State wires steady]
  cases observations with
  | nil => rfl
  | cons observation rest =>
      obtain ⟨⟨place, data, byte⟩, value⟩ := observation
      cases byte <;> simp [Transaction.bytes] at bytes

end Blitter

section Lanes

variable (address data : UInt32)

theorem odd_iff : address &&& 1 ≠ 0 ↔ address.toNat % 2 = 1 := by
  have bit : (address &&& 1).toNat = address.toNat % 2 := by
    rw [UInt32.toNat_and]
    exact Nat.and_one_is_mod _
  rw [ne_eq, ← UInt32.toNat_inj, bit]
  change ¬ address.toNat % 2 = 0 ↔ _
  omega

theorem mask_and_one : address &&& 0xffffff &&& 1 = address &&& 1 := by
  rw [UInt32.and_assoc]
  rfl

theorem mask_lt : (address &&& 0xffffff).toNat < 2 ^ 24 := by
  rw [mask_toNat]
  exact Nat.mod_lt _ (by decide)

variable {address}

/-- The successor of an even bus address does not wrap. -/
theorem mask_succ_of_even (even : address &&& 1 = 0) :
    (address &&& 0xffffff) + 1 = address + 1 &&& 0xffffff := by
  have parity : ¬ address.toNat % 2 = 1 := (odd_iff address).not.mp (not_not.mpr even)
  rw [← UInt32.toNat_inj, mask_toNat, UInt32.toNat_add, UInt32.toNat_add, mask_toNat]
  change (address.toNat % 2 ^ 24 + 1) % 2 ^ 32 = (address.toNat + 1) % 2 ^ 32 % 2 ^ 24
  omega

theorem odd_succ (even : address &&& 1 = 0) : address + 1 &&& 1 ≠ 0 := by
  have parity : ¬ address.toNat % 2 = 1 := (odd_iff address).not.mp (not_not.mpr even)
  rw [odd_iff, UInt32.toNat_add]
  change (address.toNat + 1) % 2 ^ 32 % 2 = 1
  omega

/-- Both halves of the bus carry a replicated byte. -/
theorem lane_replicated (address data : UInt32) :
    lane address (((data &&& (0xff : UInt32)) ||| (data <<< (8 : UInt32))) &&&
      (0xffff : UInt32)).toUInt16 = data.toUInt8 := by
  unfold lane
  split
  all_goals
    rw [← UInt8.toBitVec_inj]
    apply BitVec.eq_of_getLsbD_eq
    intro index inside
    interval_cases index <;> simp

theorem upper_lane (even : address &&& 1 = 0) :
    lane address (data &&& (0xffff : UInt32)).toUInt16 = (data >>> 8).toUInt8 := by
  rw [lane, if_pos even, ← UInt8.toBitVec_inj]
  apply BitVec.eq_of_getLsbD_eq
  intro index inside
  interval_cases index <;> simp

theorem lower_lane (odd : address &&& 1 ≠ 0) :
    lane address (data &&& (0xffff : UInt32)).toUInt16 = data.toUInt8 := by
  rw [lane, if_neg odd, ← UInt8.toBitVec_inj]
  apply BitVec.eq_of_getLsbD_eq
  intro index inside
  interval_cases index <;> simp

theorem low_byte : (data &&& (0xff : UInt32)).toUInt8 = data.toUInt8 := by
  rw [← UInt8.toBitVec_inj]
  apply BitVec.eq_of_getLsbD_eq
  intro index inside
  interval_cases index <;> simp

end Lanes

section Strings

variable (address data : UInt32)

theorem bigEndian_one : bigEndian 1 data.toNat = [data.toUInt8] := by
  rw [bigEndian, bigEndian, Nat.pow_zero, Nat.div_one]
  rfl

theorem shift_toNat (count : UInt32) (small : count.toNat < 32) :
    (data >>> count).toNat = data.toNat / 2 ^ count.toNat := by
  rw [UInt32.toNat_shiftRight, Nat.mod_eq_of_lt small, Nat.shiftRight_eq_div_pow]

theorem bigEndian_two :
    bigEndian 2 data.toNat = [(data >>> 8).toUInt8, data.toUInt8] := by
  have upper : data.toNat / 256 ^ 1 = (data >>> 8).toNat := (shift_toNat data 8 (by decide)).symm
  rw [bigEndian_add 1 1, upper, bigEndian_one, bigEndian_one]
  rfl

end Strings

theorem psWrite8Int_writes (address data : UInt32) :
    Writes False (fun _ wires => psWrite8Int wires address data)
      (located address (bigEndian 1 data.toNat)) := by
  let observation : Observation :=
    ⟨⟨address &&& 0xffffff, (((data &&& (0xff : UInt32)) ||| (data <<< (8 : UInt32))) &&&
      (0xffff : UInt32)).toUInt16, true⟩, data &&& 0xff⟩
  have bytes : observation.transaction.bytes = [(address &&& 0xffffff, data.toUInt8)] := by
    change [(address &&& 0xffffff, lane _ _)] = _
    rw [lane_replicated]
  have sound : observation.Sound := by
    refine ⟨mask_lt address, fun word => absurd word (show 1 ≠ 2 by decide), ?_, ?_⟩
    · rw [bytes]
      change [(address &&& 0xffffff, (data &&& 0xff).toUInt8)] = _
      rw [low_byte]
    · rw [bytes]
      rfl
  have written : Writes False (fun _ wires => psWrite8Int wires address data) _ :=
    sound.writes fun _ _ _ => rfl
  rw [bigEndian_one]
  rwa [bytes] at written

/-- A word at an even address is one cycle. -/
theorem psWrite16Int_cycle {State : Type u} (wires : Wires State) {address : UInt32}
    (even : address &&& 1 = 0) (data : UInt32) (state : State) :
    psWrite16Int wires address data state =
      wires.invalidate (address &&& 0xffffff) 2 (wires.capture (address &&& 0xffffff) data 2
        (wires.write ⟨address &&& 0xffffff, (data &&& 0xffff).toUInt16, false⟩ state)) := by
  have maskedEven : address &&& 0xffffff &&& 1 = 0 := (mask_and_one address).trans even
  simp only [psWrite16Int, if_pos maskedEven, if_neg (not_not.mpr maskedEven)]

theorem psWrite16Int_even {address : UInt32} (data : UInt32)
    (even : address &&& 1 = 0) :
    Writes False (fun _ wires => psWrite16Int wires address data)
      (located address (bigEndian 2 data.toNat)) := by
  have maskedEven : address &&& 0xffffff &&& 1 = 0 := (mask_and_one address).trans even
  let observation : Observation :=
    ⟨⟨address &&& 0xffffff, (data &&& (0xffff : UInt32)).toUInt16, false⟩, data⟩
  have bytes : observation.transaction.bytes =
      [(address &&& 0xffffff, (data >>> 8).toUInt8), ((address &&& 0xffffff) + 1, data.toUInt8)] := by
    change [(address &&& 0xffffff, lane _ _), ((address &&& 0xffffff) + 1, lane _ _)] = _
    rw [upper_lane data maskedEven, lower_lane data (odd_succ maskedEven)]
  have sound : observation.Sound := by
    refine ⟨mask_lt address, fun _ => maskedEven, ?_, ?_⟩
    · rw [bytes]
      rfl
    · rw [bytes]
      rfl
  have written : Writes False (fun _ wires => psWrite16Int wires address data)
      observation.transaction.bytes := by
    apply sound.writes
    intro State wires state
    exact psWrite16Int_cycle wires even data state
  rw [bytes, mask_succ_of_even even] at written
  rwa [bigEndian_two]

theorem psWrite16Int_writes (address data : UInt32) :
    Writes False (fun _ wires => psWrite16Int wires address data)
      (located address (bigEndian 2 data.toNat)) := by
  by_cases even : address &&& 1 = 0
  · exact psWrite16Int_even data even
  · have maskedOdd : ¬ address &&& 0xffffff &&& 1 = 0 := (mask_and_one address).trans_ne even
    have pieces := (psWrite8Int_writes (address &&& 0xffffff) (data >>> 8)).andThen
      (psWrite8Int_writes ((address &&& 0xffffff) + 1) (data &&& 0xff))
    have joined : located (address &&& 0xffffff) (bigEndian 1 (data >>> 8).toNat) ++
        located ((address &&& 0xffffff) + 1) (bigEndian 1 (data &&& 0xff).toNat) =
        located address (bigEndian 2 data.toNat) := by
      rw [bigEndian_one, bigEndian_one, low_byte, bigEndian_two,
        located_congr _ (mask_succ address 1), located_congr _ (mask_mask address)]
      rfl
    rw [joined] at pieces
    apply pieces.congr
    intro State wires state
    simp only [psWrite16Int, ne_eq, if_pos maskedOdd, if_neg maskedOdd]

/-- A string written in two pieces is the string. -/
theorem located_bigEndian (address : UInt32) (high low value : Nat) :
    located address (bigEndian high (value / 256 ^ low)) ++
        located (address + UInt32.ofNat high) (bigEndian low value) =
      located address (bigEndian (high + low) value) := by
  rw [bigEndian_add, located_append, bigEndian_length]

theorem psWrite32Int_writes (address value : UInt32) :
    Writes False (fun _ wires => psWrite32Int wires address value)
      (located address (bigEndian 4 value.toNat)) := by
  by_cases even : address &&& 1 = 0
  · have pieces := (psWrite16Int_writes address (value >>> 16)).andThen
      (psWrite16Int_writes (address + 2) value)
    have upper : (value >>> 16).toNat = value.toNat / 256 ^ 2 := shift_toNat value 16 (by decide)
    have joined := located_bigEndian address 2 2 value.toNat
    rw [← upper] at joined
    rw [← joined]
    apply pieces.congr
    intro State wires state
    simp only [psWrite32Int, ne_eq, if_neg (not_not.mpr even)]
  · have pieces := ((psWrite8Int_writes address (value >>> 24)).andThen
      (psWrite16Int_writes (address + 1) (value >>> 8))).andThen
      (psWrite8Int_writes (address + 3) (value &&& 0xff))
    have upper : (value >>> 24).toNat = value.toNat / 256 ^ 1 / 256 ^ 2 := by
      rw [Nat.div_div_eq_div_mul]
      exact shift_toNat value 24 (by decide)
    have middle : (value >>> 8).toNat = value.toNat / 256 ^ 1 := shift_toNat value 8 (by decide)
    have joined : located address (bigEndian 1 (value >>> 24).toNat) ++
        located (address + 1) (bigEndian 2 (value >>> 8).toNat) ++
        located (address + 3) (bigEndian 1 (value &&& 0xff).toNat) =
        located address (bigEndian 4 value.toNat) := by
      rw [bigEndian_one (value &&& 0xff), low_byte, ← bigEndian_one value, upper, middle]
      rw [← located_bigEndian address 3 1, ← located_bigEndian address 1 2]
      rfl
    rw [← joined]
    apply pieces.congr
    intro State wires state
    simp only [psWrite32Int, ne_eq, if_pos even]

/-- `ps_write_8` does not look at the blitter. -/
theorem psWrite8_writes (address data : UInt32) :
    Writes False (fun _ wires => psWrite8 wires address data)
      (located address (bigEndian 1 data.toNat)) := psWrite8Int_writes address data

theorem psWrite16_writes (address data : UInt32) :
    Writes (Blits address 2) (fun _ wires => psWrite16 wires address data)
      (located address (bigEndian 2 data.toNat)) :=
  (checkBlitActive_writes address 2).andThen ((psWrite16Int_writes address data).mono False.elim)

theorem psWrite32_writes (address data : UInt32) :
    Writes (Blits address 4) (fun _ wires => psWrite32 wires address data)
      (located address (bigEndian 4 data.toNat)) :=
  (checkBlitActive_writes address 4).andThen ((psWrite32Int_writes address data).mono False.elim)

section Wide

theorem high_word_toNat (data : UInt64) : (data >>> 32).toUInt32.toNat = data.toNat / 256 ^ 4 := by
  have bounded := data.toNat_lt
  rw [UInt64.toNat_toUInt32, UInt64.toNat_shiftRight, Nat.shiftRight_eq_div_pow]
  change data.toNat / 2 ^ 32 % 2 ^ 32 = data.toNat / 2 ^ 32
  omega

theorem low_word_toNat (data : UInt64) :
    (data &&& 0xffffffff).toUInt32.toNat = data.toNat % 256 ^ 4 := by
  have masked : (data &&& 0xffffffff).toNat = data.toNat % 2 ^ 32 := by
    rw [UInt64.toNat_and]
    exact Nat.and_two_pow_sub_one_eq_mod _ 32
  rw [UInt64.toNat_toUInt32, masked]
  exact Nat.mod_mod _ _

/-- The longs of a write of eight bytes, one of which touches the blitter. -/
def BlitsQuad (address : UInt32) : Prop := Blits address 4 ∨ Blits (address + 4) 4

theorem psWrite64_writes (address : UInt32) (data : UInt64) :
    Writes (BlitsQuad address) (fun _ wires => psWrite64 wires address data)
      (located address (bigEndian 8 data.toNat)) := by
  have pieces := ((psWrite32_writes address (data >>> 32).toUInt32).mono
      (Or.inl : _ → BlitsQuad address)).andThen
    ((psWrite32_writes (address + 4) (data &&& 0xffffffff).toUInt32).mono .inr)
  rw [high_word_toNat, low_word_toNat, bigEndian_mod 4 _ (dvd_refl _)] at pieces
  have joined := located_bigEndian address 4 4 data.toNat
  rw [← joined]
  exact pieces

theorem psWrite128_writes (address : UInt32) (hi lo : UInt64) :
    Writes (BlitsQuad address ∨ BlitsQuad (address + 8))
      (fun _ wires => psWrite128 wires address hi lo)
      (located address (bigEndian 16 (hi.toNat * 2 ^ 64 + lo.toNat))) := by
  have pieces := ((psWrite64_writes address hi).mono
      (Or.inl : _ → BlitsQuad address ∨ BlitsQuad (address + 8))).andThen
    ((psWrite64_writes (address + 8) lo).mono .inr)
  have bounded := lo.toNat_lt
  have upper : (hi.toNat * 2 ^ 64 + lo.toNat) / 256 ^ 8 = hi.toNat := by omega
  have lower : bigEndian 8 (hi.toNat * 2 ^ 64 + lo.toNat) = bigEndian 8 lo.toNat := by
    rw [← bigEndian_mod 8 _ (dvd_refl _)]
    congr 1
    omega
  have joined := located_bigEndian address 8 8 (hi.toNat * 2 ^ 64 + lo.toNat)
  rw [upper, lower] at joined
  rw [← joined]
  apply pieces.congr
  intro State wires state
  simp only [psWrite128, psWrite64, UInt32.add_assoc]
  rfl

end Wide

/-- What a driver call does, in order. -/
inductive Entry where
  | cycle (transaction : Transaction)
  | read (address : UInt32) (byte : Bool)
  | capture (address value : UInt32) (width : Nat)
  | invalidate (address : UInt32) (width : Nat)
deriving Repr, DecidableEq

/-- What a device answers after what has happened so far, and whether the context asks for a
wait. -/
structure Device where
  answer : List Entry → UInt32 → UInt16
  blitWait : List Entry → Bool
  blitPolls : List Entry → Nat

/-- A bus that writes down everything that happens on it. -/
def recorder (device : Device) : Wires (List Entry) where
  write transaction trace := trace ++ [.cycle transaction]
  read address byte trace := (device.answer trace address, trace ++ [.read address byte])
  capture address value width trace := trace ++ [.capture address value width]
  invalidate address width trace := trace ++ [.invalidate address width]
  blitWait := device.blitWait
  blitPolls := device.blitPolls

def Observation.entries (observation : Observation) : List Entry :=
  [.cycle observation.transaction,
    .capture observation.address observation.value observation.width,
    .invalidate observation.address observation.width]

def Step.entries : Step → List Entry
  | .poll address => [.read address false]
  | .observed observation => observation.entries

/-- The bytes stored on the bus. -/
def storedBytes (trace : List Entry) : List (UInt32 × UInt8) :=
  trace.flatMap fun
    | .cycle transaction => transaction.bytes
    | _ => []

/-- The captured events as byte writes. -/
def capturedBytes (trace : List Entry) : List (UInt32 × UInt8) :=
  trace.flatMap fun
    | .capture address value width => captureBytes address value width
    | _ => []

/-- The addresses invalidated. -/
def invalidated (trace : List Entry) : List UInt32 :=
  trace.flatMap fun
    | .invalidate address width => invalidateAddresses address width
    | _ => []

/-- A trace that stores these bytes in order, one capture and one invalidation after
each write cycle, with the address and the width of the cycle.  Between these the bus is read
only to poll the blitter, and only if the call `waits` for it. -/
structure Observed (waits : Prop) (trace : List Entry) (bytes : List (UInt32 × UInt8)) : Prop where
  paced : ∃ steps : List Step, trace = steps.flatMap Step.entries ∧
    (∀ observation, .observed observation ∈ steps → observation.address.toNat < 2 ^ 24 ∧
      (observation.width = 2 → observation.address &&& 1 = 0)) ∧
    ∀ address, .poll address ∈ steps → polled address ∧ waits
  stores : storedBytes trace = bytes
  captures : capturedBytes trace = bytes
  invalidates : invalidated trace = bytes.map Prod.fst

theorem recorder_fold (device : Device) (steps : List Step) (trace : List Entry) :
    steps.foldl (Step.perform (recorder device)) trace = trace ++ steps.flatMap Step.entries := by
  induction steps generalizing trace with
  | nil => rw [List.foldl_nil, List.flatMap_nil, List.append_nil]
  | cons step rest ih =>
      rw [List.foldl_cons, ih, List.flatMap_cons, ← List.append_assoc]
      congr 1
      cases step with
      | poll address => rfl
      | observed observation =>
          simp only [Step.perform, Observation.perform, Step.entries, Observation.entries, recorder,
            List.append_assoc, List.cons_append, List.nil_append]

/-- The three readings of a trace of sound cycles agree. -/
theorem entries_read {steps : List Step}
    (sound : ∀ observation ∈ steps.filterMap Step.observation?, observation.Sound) :
    let bytes := (steps.filterMap Step.observation?).flatMap
      fun observation => observation.transaction.bytes
    storedBytes (steps.flatMap Step.entries) = bytes ∧
      capturedBytes (steps.flatMap Step.entries) = bytes ∧
      invalidated (steps.flatMap Step.entries) = bytes.map Prod.fst := by
  induction steps with
  | nil => exact ⟨rfl, rfl, rfl⟩
  | cons step rest ih =>
      cases step with
      | poll address => exact ih sound
      | observed observation =>
          obtain ⟨stored, captured, covered⟩ := ih fun other member =>
            sound other (List.mem_cons_of_mem _ member)
          have head := sound observation List.mem_cons_self
          simp only [storedBytes, capturedBytes, invalidated] at stored captured covered ⊢
          simp only [List.flatMap_cons, List.flatMap_append, List.map_append, stored, captured,
            covered, Step.entries, Observation.entries, List.flatMap_nil, List.nil_append,
            List.append_nil, head.captured, head.invalidated, Step.observation?,
            List.filterMap_cons, and_self]

/-- The context may ask for a wait. -/
def Device.waits (device : Device) : Prop := ∃ trace, device.blitWait trace = true

theorem Writes.observed {waits : Prop} {call : (State : Type) → Wires State → State → State}
    {stored : List (UInt32 × UInt8)} (written : Writes waits call stored) (device : Device) :
    Observed (waits ∧ device.waits) (call _ (recorder device) []) stored := by
  obtain ⟨observations, sound, bytes, call⟩ := written
  obtain ⟨steps, done, cycles, polls⟩ := call _ (recorder device) []
  subst cycles
  obtain ⟨storedRead, capturedRead, invalidatedRead⟩ := entries_read sound
  rw [done, recorder_fold, List.nil_append]
  rw [bytes] at storedRead capturedRead invalidatedRead
  refine ⟨⟨steps, rfl, fun observation member => ?_, polls⟩, storedRead, capturedRead,
    invalidatedRead⟩
  have listed := sound observation (List.mem_filterMap.mpr ⟨_, member, rfl⟩)
  exact ⟨listed.masked, listed.aligned⟩

/-- Every write of every width, at every address and of every value, stores the
big-endian bytes of the value at consecutive addresses of the bus, and the mirror is
told of exactly these bytes.  A write of one byte does nothing else; the others poll the
blitter where they touch its registers and the context asks for it. -/
theorem bus_writes_observed (device : Device) (address data : UInt32) (wide hi lo : UInt64) :
    Observed False (psWrite8 (recorder device) address data [])
      (located address (bigEndian 1 data.toNat)) ∧
    Observed (Blits address 2 ∧ device.waits) (psWrite16 (recorder device) address data [])
      (located address (bigEndian 2 data.toNat)) ∧
    Observed (Blits address 4 ∧ device.waits) (psWrite32 (recorder device) address data [])
      (located address (bigEndian 4 data.toNat)) ∧
    Observed (BlitsQuad address ∧ device.waits) (psWrite64 (recorder device) address wide [])
      (located address (bigEndian 8 wide.toNat)) ∧
    Observed ((BlitsQuad address ∨ BlitsQuad (address + 8)) ∧ device.waits)
      (psWrite128 (recorder device) address hi lo [])
      (located address (bigEndian 16 (hi.toNat * 2 ^ 64 + lo.toNat))) := by
  refine ⟨?_, (psWrite16_writes address data).observed device,
    (psWrite32_writes address data).observed device, (psWrite64_writes address wide).observed device,
    (psWrite128_writes address hi lo).observed device⟩
  have narrow := (psWrite8_writes address data).observed device
  rwa [false_and] at narrow

/-- A device that is never busy. -/
def resting (blitWait : Bool) : Device := ⟨fun _ _ => 0, fun _ => blitWait, fun _ => 0⟩

/-- With `blitwait` a word for `BLTSIZE` begins with a read cycle that nothing captures. -/
theorem blitter_polled_uncaptured :
    psWrite16 (recorder (resting true)) 0xdff058 0x0041 [] =
        [.read 0xdff002 false, .cycle ⟨0xdff058, 0x41, false⟩, .capture 0xdff058 0x41 2,
          .invalidate 0xdff058 2] ∧
      ¬∃ observations : List Observation,
        psWrite16 (recorder (resting true)) 0xdff058 0x0041 [] =
          observations.flatMap Observation.entries := by
  have trace : psWrite16 (recorder (resting true)) 0xdff058 0x0041 [] =
      [.read 0xdff002 false, .cycle ⟨0xdff058, 0x41, false⟩, .capture 0xdff058 0x41 2,
        .invalidate 0xdff058 2] := by decide
  refine ⟨trace, ?_⟩
  rintro ⟨observations, same⟩
  rw [trace] at same
  cases observations with
  | nil => cases same
  | cons observation rest => cases same

/-- A long at an odd address next to the end of the bus. -/
example : storedBytes (psWrite32 (recorder (resting false)) 0x00ffffff 0x11223344 []) =
    [(0xffffff, 0x11), (0, 0x22), (1, 0x33), (2, 0x44)] := by
  decide

end Paulastorm.Bus
