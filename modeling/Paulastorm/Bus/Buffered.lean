import Paulastorm.Bus
import Paulastorm.Bus.WriteBuffer

namespace Paulastorm.WriteBuffer

/-! The bus driver with the write buffer (`PISTORM_WRITE_BUFFER`), as CPU0 uses it.

`ps_write_8`, `ps_write_16` and `ps_write_32` push, and wait for an empty buffer from
0xa00000 on; a read cycle waits for an empty buffer first.  CPU0 does one call after the
other, and `wb_task` waits for the blitter and performs the writes on its own core.  The 68k
context asks for the wait (`JC2F_BLITWAIT`), and CPU0 changes it between two calls.
-/

open Bus Library

/-- A call of CPU0 that ends in cycles of the bus: a write, with what the context says about the
wait for the blitter, or one read cycle. -/
inductive Call where
  | write (write : BusWrite) (waits : Bool)
  | read (address : UInt32) (byte : Bool)
deriving Repr, DecidableEq

namespace BusWrite

def address : BusWrite → UInt32
  | .write8 address _ | .write16 address _ | .write32 address _ => address

/-- What the call hands to `wb_push`. -/
def request : BusWrite → WriteRequest
  | .write8 address value => ⟨address, value, 1⟩
  | .write16 address value => ⟨address, value, 2⟩
  | .write32 address value => ⟨address, value, 4⟩

/-- The write goes to the registers of the blitter. -/
def Blits (write : BusWrite) : Prop :=
  Bus.Blits write.request.wrAddr write.request.wrSize.toUInt32

instance (write : BusWrite) : Decidable write.Blits := inferInstanceAs (Decidable (Bus.Blits _ _))

/-- The call returns after the write has been on the bus. -/
def settles (write : BusWrite) : Bool := decide (0xa00000 ≤ write.address)

theorem write?_request (write : BusWrite) : write.request.write? = some write := by
  cases write <;> rfl

variable {Device : Type} (wires : Wires Device)

/-- The cycles of a write. -/
def perform (write : BusWrite) (device : Device) : Device :=
  match write with
  | .write8 address value => psWrite8Int wires address value device
  | .write16 address value => psWrite16Int wires address value device
  | .write32 address value => psWrite32Int wires address value device

/-- The call of the driver without the buffer. -/
def call (write : BusWrite) (device : Device) : Device :=
  match write with
  | .write8 address value => psWrite8 wires address value device
  | .write16 address value => psWrite16 wires address value device
  | .write32 address value => psWrite32 wires address value device

/-- Only `wb_task` waits for the blitter before the write of a byte: such a write to the registers
of the blitter is the same in both drivers only if nobody waits. -/
def Uniform (waits : Bool) : BusWrite → Prop
  | .write8 address _ => Bus.Blits address 1 → waits = false
  | .write16 _ _ | .write32 _ _ => True

end BusWrite

/-- What is on the bus, and what CPU0 has read from it. -/
@[ext] structure Seen (Device : Type) where
  device : Device
  answers : List UInt16

section Driver

variable {Device : Type} (wires : Wires Device)

/-- The driver while the context asks for the wait, or does not. -/
def waiting (waits : Bool) : Wires Device := { wires with blitWait := fun _ => waits }

def Call.perform (seen : Seen Device) : Call → Seen Device
  | .write sent waits => { seen with device := sent.call (waiting wires waits) seen.device }
  | .read address byte =>
      let (value, device) := wires.read address byte seen.device
      ⟨device, seen.answers ++ [value]⟩

/-- The driver without the buffer. -/
def direct (calls : List Call) (device : Device) : Seen Device :=
  calls.foldl (Call.perform wires) ⟨device, []⟩

/-- Where CPU0 is in a call. -/
inductive Cpu where
  | idle
  | pushing (write : BusWrite)
  | settling
  | awaiting (address : UInt32) (byte : Bool)
  | reading (address : UInt32) (byte : Bool)

structure Buffered (Device : Type) where
  buffer : State
  cpu : Cpu
  /-- The context asks for the wait. -/
  waits : Bool
  seen : Seen Device
  issued : List Call

def Buffered.start (buffer : Nat → WriteRequest) (device : Device) : Buffered Device :=
  ⟨WriteBuffer.start buffer, .idle, false, ⟨device, []⟩, []⟩

inductive Turn where
  | write (sent : BusWrite)
  | read (address : UInt32) (byte : Bool)
  | context (waits : Bool)
  | cpu
  | task
  | other

variable (capacity : Capacity)

/-- A call of CPU0 that writes begins. -/
def Buffered.write (sent : BusWrite) (state : Buffered Device) : Option (Buffered Device) :=
  match state.cpu with
  | .idle => (push sent.request state.buffer).map fun buffer =>
      { state with buffer, cpu := .pushing sent, issued := state.issued ++ [.write sent state.waits] }
  | _ => none

/-- A read cycle of CPU0 begins. -/
def Buffered.read (address : UInt32) (byte : Bool) (state : Buffered Device) :
    Option (Buffered Device) :=
  match state.cpu with
  | .idle => (waitfree state.buffer).map fun buffer =>
      { state with buffer, cpu := .awaiting address byte, issued := state.issued ++ [.read address byte] }
  | _ => none

/-- The guest writes `JIT_CONTROL2`. -/
def Buffered.context (waits : Bool) (state : Buffered Device) : Option (Buffered Device) :=
  match state.cpu with
  | .idle => some { state with waits }
  | _ => none

/-- CPU0 after the helper that it waits for has returned. -/
def Buffered.returned (state : Buffered Device) : Option (Buffered Device) :=
  match state.cpu with
  | .pushing write =>
      if write.settles then (waitfree state.buffer).map fun buffer =>
        { state with buffer, cpu := .settling }
      else some { state with cpu := .idle }
  | .settling => some { state with cpu := .idle }
  | .awaiting address byte => some { state with cpu := .reading address byte }
  | .reading address byte =>
      some { state with cpu := .idle, seen := (Call.read address byte).perform wires state.seen }
  | .idle => none

def Buffered.advance (state : Buffered Device) : Option (Buffered Device) :=
  match state.buffer.producer with
  | .idle => state.returned wires
  | _ => (produce capacity state.buffer).map fun buffer => { state with buffer }

/-- What `wb_task` is told by the context or by a poll. -/
def Consumer.answer (waits : Bool) (consumer : Consumer) (device : Device) : Bool :=
  match consumer with
  | .check _ => waits
  | .poll _ => (pollOnce wires device).1
  | _ => false

/-- What `wb_task` does to the device. -/
def Consumer.drive (consumer : Consumer) (device : Device) : Device :=
  match consumer with
  | .poll _ => (pollOnce wires device).2
  | .execute data => data.write?.toList.foldl (fun device sent => sent.perform wires device) device
  | _ => device

/-- A step of `wb_task`. -/
def Buffered.task (state : Buffered Device) : Option (Buffered Device) :=
  let consumer := state.buffer.consumer
  let device := state.seen.device
  (consume capacity (consumer.answer wires state.waits device) state.buffer).map fun buffer =>
    { state with buffer, seen.device := consumer.drive wires device }

def Buffered.step (turn : Turn) (state : Buffered Device) : Option (Buffered Device) :=
  match turn with
  | .write sent => state.write sent
  | .read address byte => state.read address byte
  | .context waits => state.context waits
  | .cpu => state.advance wires capacity
  | .task => state.task wires capacity
  | .other => (other state.buffer).map fun buffer => { state with buffer }

def buffered : Machine (Buffered Device) Turn := ⟨Buffered.step wires capacity⟩

end Driver

section Buffer

variable {capacity : Capacity} {state next : State}

/-- The writes in the buffer that have not been on the bus yet. -/
def State.unexecuted (state : State) : List BusWrite :=
  (state.history.pushed.drop state.history.executed).filterMap WriteRequest.write?

/-- An empty buffer has been on the bus, and `wb_task` waits. -/
theorem Invariant.drained (inv : Invariant capacity state) (empty : state.outstanding = []) :
    state.unexecuted = [] ∧ state.consumer = .peek := by
  constructor
  · have short := List.drop_eq_nil_iff.mp empty
    rw [State.unexecuted, List.drop_eq_nil_of_le (short.trans inv.once.1)]
    rfl
  · have place := inv.consumer
    cases consumer : state.consumer with
    | peek => rfl
    | copy =>
        rw [consumer] at place
        obtain ⟨_, front, first, _⟩ := place
        rw [empty] at first
        cases first
    | acquire | check | poll | execute =>
        rw [consumer] at place
        obtain ⟨_, first⟩ := place
        rw [empty] at first
        cases first
    | release | pop | advance =>
        rw [consumer] at place
        exact absurd empty place.2

/-- What the helpers that CPU0 runs do to the buffer. -/
theorem produce_turn (inv : Invariant capacity state)
    (moved : produce capacity state = some next) :
    (∃ request, state.producer = .wait request ∧ next.history = state.history ∧
      (next.producer = .wait request ∨ next.producer = .fill request 0)) ∨
    (∃ request field, state.producer = .fill request field ∧
      ((next.history = state.history ∧ next.producer = .fill request (field + 1)) ∨
        (next.history = { state.history with pushed := state.history.pushed ++ [request] } ∧
          next.producer = .idle))) ∨
    (state.producer = .drain ∧ next.history = state.history ∧
      (next.producer = .drain ∨ (next.producer = .idle ∧ next.outstanding = []))) := by
  cases producer : state.producer <;> simp only [produce, producer, reduceCtorEq] at moved
  case wait request =>
    refine .inl ⟨request, rfl, ?_⟩
    split at moved <;> cases moved
    · exact ⟨rfl, .inl producer⟩
    · exact ⟨rfl, .inr rfl⟩
  case fill request field =>
    refine .inr (.inl ⟨request, field, rfl, ?_⟩)
    split at moved <;> cases moved
    · exact .inl ⟨rfl, rfl⟩
    · exact .inr ⟨rfl, rfl⟩
  case drain =>
    refine .inr (.inr ⟨rfl, ?_⟩)
    split at moved
    · cases moved
      exact ⟨rfl, .inl producer⟩
    next same =>
      cases moved
      refine ⟨rfl, .inr ⟨rfl, ?_⟩⟩
      exact inv.ring.head_eq_tail_iff.mp (not_not.mp same).symm

/-- CPU0 leaves `wb_task` where it is. -/
theorem produce_consumer (moved : produce capacity state = some next) :
    next.consumer = state.consumer := by
  cases producer : state.producer <;> simp only [produce, producer, reduceCtorEq] at moved
  all_goals split at moved <;> cases moved <;> rfl

/-- What `wb_task` does to the buffer. -/
theorem consume_turn {answer : Bool} (inv : Invariant capacity state)
    (moved : consume capacity answer state = some next) :
    next.producer = state.producer ∧ (state.outstanding = [] → next.outstanding = []) ∧
    next.history.pushed = state.history.pushed ∧
    state.unexecuted =
      (match state.consumer with
        | .execute data => data.write?.toList
        | _ => []) ++ next.unexecuted := by
  cases consumer : state.consumer <;> simp only [consume, consumer] at moved
  case execute data =>
    cases moved
    refine ⟨rfl, id, rfl, ?_⟩
    have place := inv.consumer
    rw [consumer] at place
    obtain ⟨same, first⟩ := place
    have split : state.history.pushed.drop state.history.executed =
        data :: state.history.pushed.drop (state.history.executed + 1) := by
      rw [State.outstanding, ← same] at first
      obtain ⟨rest, whole⟩ := List.head?_eq_some_iff.mp first
      rw [whole, ← List.drop_drop, whole]
      rfl
    simp only [State.unexecuted, split, List.filterMap_cons]
    cases data.write? <;> rfl
  case advance =>
    cases moved
    refine ⟨rfl, fun empty => ?_, rfl, rfl⟩
    have short := List.drop_eq_nil_iff.mp empty
    exact List.drop_eq_nil_of_le (Nat.le_succ_of_le short)
  case release =>
    cases moved
    exact ⟨rfl, id, rfl, rfl⟩
  all_goals split at moved <;> cases moved <;> exact ⟨rfl, id, rfl, rfl⟩

theorem other_turn (moved : other state = some next) :
    next.producer = state.producer ∧ next.consumer = state.consumer ∧
      next.history = state.history := by
  simp only [other] at moved
  split at moved
  · cases moved
    exact ⟨rfl, rfl, rfl⟩
  · split at moved <;> cases moved
    exact ⟨rfl, rfl, rfl⟩

/-- The request that `wb_task` holds is the first that has not been on the bus. -/
theorem Invariant.front (inv : Invariant capacity state) {data : WriteRequest}
    (holds : state.consumer = .poll data ∨ state.consumer = .execute data) :
    data ∈ state.history.pushed.drop state.history.executed := by
  have place := inv.consumer
  have first : state.history.executed = state.history.popped ∧
      state.outstanding.head? = some data := by
    rcases holds with here | here
    · rwa [here] at place
    · rwa [here] at place
  rw [first.1]
  exact List.mem_of_head? first.2

end Buffer

section Blitter

variable {Device : Type} (wires : Wires Device)

/-- What one turn of the loop of `check_blit_active` does to the device. -/
def pollTurn (device : Device) : Device := (pollOnce wires device).2

/-- Every blit ends within `blitPolls` busy polls. -/
def BlitsEnd : Prop :=
  ∀ device, ∃ polls ≤ wires.blitPolls device,
    (pollOnce wires ((pollTurn wires)^[polls] device)).1 = false

variable {wires} {device : Device} {address size : UInt32} {polls : Nat} {waits : Bool}

theorem checkBlitActive_of_quiet (quiet : waits = false) :
    checkBlitActive (waiting wires waits) address size device = device :=
  if_pos (by rw [quiet]; exact Bool.false_ne_true)

theorem checkBlitActive_of_not_blits (outside : ¬Bus.Blits address size) :
    checkBlitActive wires address size device = device := by
  rw [checkBlitActive, if_pos outside, ite_self]

/-- A loop that polls long enough ends with the first poll that finds the blitter at rest. -/
theorem pollBlitter_of_busy {fuel : Nat}
    (busy : ∀ earlier < polls, (pollOnce wires ((pollTurn wires)^[earlier] device)).1 = true)
    (rest : (pollOnce wires ((pollTurn wires)^[polls] device)).1 = false) (enough : polls ≤ fuel) :
    pollBlitter wires fuel device = pollTurn wires ((pollTurn wires)^[polls] device) := by
  induction polls generalizing device fuel with
  | zero =>
      have rest : (pollOnce wires device).1 = false := rest
      cases fuel with
      | zero => rfl
      | succ fuel => simp only [pollBlitter, rest, Bool.false_eq_true, if_false]; rfl
  | succ polls ih =>
      obtain ⟨fuel, rfl⟩ : ∃ more, fuel = more + 1 := ⟨fuel - 1, by omega⟩
      have first : (pollOnce wires device).1 = true := busy 0 (Nat.succ_pos _)
      have later := @ih (pollTurn wires device) fuel
        (fun earlier before => busy (earlier + 1) (Nat.succ_lt_succ before)) rest (by omega)
      simp only [pollBlitter, first, if_true]
      exact later

/-- The polls do not look at the context. -/
theorem pollBlitter_waiting (fuel : Nat) (device : Device) :
    pollBlitter (waiting wires waits) fuel device = pollBlitter wires fuel device := by
  induction fuel generalizing device with
  | zero => rfl
  | succ fuel ih =>
      simp only [pollBlitter, ih]
      rfl

theorem checkBlitActive_of_busy (ends : BlitsEnd wires) (asked : waits = true)
    (blits : Bus.Blits address size)
    (busy : ∀ earlier < polls, (pollOnce wires ((pollTurn wires)^[earlier] device)).1 = true)
    (rest : (pollOnce wires ((pollTurn wires)^[polls] device)).1 = false) :
    checkBlitActive (waiting wires waits) address size device =
      pollTurn wires ((pollTurn wires)^[polls] device) := by
  obtain ⟨last, within, ended⟩ := ends device
  have enough : polls ≤ last := by
    by_contra before
    have still := busy last (Nat.lt_of_not_le before)
    rw [ended] at still
    cases still
  have waits : ¬¬(waiting wires waits).blitWait device = true := not_not.mpr asked
  rw [checkBlitActive, if_neg waits, if_neg (not_not.mpr blits), pollBlitter_waiting]
  exact pollBlitter_of_busy busy rest (enough.trans within)

/-- Before a write that goes elsewhere nobody waits. -/
theorem BusWrite.call_outside {sent : BusWrite} (outside : ¬sent.Blits) (device : Device) :
    sent.call (waiting wires waits) device = sent.perform wires device := by
  have still := @checkBlitActive_of_not_blits Device (waiting wires waits) device _ _ outside
  cases sent with
  | write8 => rfl
  | write16 address value => exact congrArg (psWrite16Int wires address value) still
  | write32 address value => exact congrArg (psWrite32Int wires address value) still

/-- The driver without the buffer waits, and then writes what `wb_task` writes. -/
theorem BusWrite.call_send (sent : BusWrite) (uniform : sent.Uniform waits) (device : Device) :
    sent.call (waiting wires (waits && decide sent.Blits)) device = sent.perform wires
      (checkBlitActive (waiting wires waits) sent.request.wrAddr sent.request.wrSize.toUInt32
        device) := by
  by_cases blits : sent.Blits
  · rw [decide_eq_true blits, Bool.and_true]
    cases sent with
    | write8 address value =>
        have still : checkBlitActive (waiting wires waits) address 1 device = device :=
          checkBlitActive_of_quiet (uniform blits)
        exact (congrArg (psWrite8Int wires address value) still).symm
    | write16 | write32 => rfl
  · rw [sent.call_outside blits, checkBlitActive_of_not_blits blits]

end Blitter

section Direct

variable {Device : Type} (wires : Wires Device)

theorem direct_append (first second : List Call) (device : Device) :
    direct wires (first ++ second) device =
      second.foldl (Call.perform wires) (direct wires first device) := List.foldl_append

/-- A write that may be in the buffer after its call has returned. -/
def Call.Deferred : Call → Prop
  | .write sent _ => sent.settles = false
  | .read _ _ => False

/-- Writes answer nothing. -/
theorem answers_deferred {calls : List Call} (deferred : ∀ call ∈ calls, call.Deferred)
    (seen : Seen Device) : (calls.foldl (Call.perform wires) seen).answers = seen.answers := by
  induction calls generalizing seen with
  | nil => rfl
  | cons call rest ih =>
      have later := ih (fun other member => deferred other (List.mem_cons_of_mem _ member))
      have first := deferred call List.mem_cons_self
      cases call with
      | write sent => exact later _
      | read => exact first.elim

/-- The registers of the blitter are above every deferred write. -/
theorem BusWrite.not_blits {sent : BusWrite} (deferred : sent.settles = false) : ¬sent.Blits := by
  have low : sent.request.wrAddr.toNat < 0xa00000 := by
    have below := UInt32.not_le.mp (of_decide_eq_false deferred)
    have limit : (0xa00000 : UInt32).toNat = 0xa00000 := rfl
    rw [UInt32.lt_iff_toNat_lt, limit] at below
    cases sent <;> exact below
  have small : sent.request.wrSize.toUInt32.toNat ≤ 4 := by
    cases sent with
    | write8 => exact (by decide : (1 : UInt8).toUInt32.toNat ≤ 4)
    | write16 => exact (by decide : (2 : UInt8).toUInt32.toNat ≤ 4)
    | write32 => exact (by decide : (4 : UInt8).toUInt32.toNat ≤ 4)
  have bottom : (0xDFF040 : UInt32).toNat = 0xDFF040 := rfl
  rw [BusWrite.Blits, Bus.Blits, not_not]
  refine .inr ?_
  rw [UInt32.le_iff_toNat_le, UInt32.toNat_add, mask_toNat, bottom]
  omega

/-- What the context says only matters to a write that goes to the blitter. -/
def Call.send (waits : Bool) (sent : BusWrite) : Call := .write sent (waits && decide sent.Blits)

def Call.normal : Call → Call
  | .write sent waits => .send waits sent
  | .read address byte => .read address byte

theorem Call.deferred_normal (call : Call) : call.normal.Deferred ↔ call.Deferred := by
  cases call <;> rfl

theorem perform_normal (seen : Seen Device) (call : Call) :
    call.normal.perform wires seen = call.perform wires seen := by
  cases call with
  | write sent waits =>
      by_cases blits : sent.Blits
      · simp only [Call.normal, Call.send, decide_eq_true blits, Bool.and_true]
      · simp only [Call.normal, Call.send, Call.perform, sent.call_outside blits]
  | read => rfl

theorem direct_normal (calls : List Call) (device : Device) :
    direct wires (calls.map Call.normal) device = direct wires calls device := by
  simp only [direct, List.foldl_map, perform_normal]

theorem send_deferred {sent : BusWrite} (deferred : sent.settles = false) (waits : Bool) :
    Call.send waits sent = .write sent false := by
  rw [Call.send, decide_eq_false (sent.not_blits deferred), Bool.and_false]

theorem BusWrite.uniform_send {sent : BusWrite} {waits : Bool} :
    sent.Uniform (waits && decide sent.Blits) ↔ sent.Uniform waits := by
  cases sent with
  | write8 address value =>
      refine forall_congr' fun blits => ?_
      have flag : decide (BusWrite.write8 address value).Blits = true := decide_eq_true blits
      rw [flag, Bool.and_true]
  | write16 | write32 => rfl

end Direct

section Orderly

variable {Device : Type} (wires : Wires Device) (capacity : Capacity) (device : Device)

/-- The call that CPU0 is in, if it is neither in the buffer nor on the bus. -/
def Cpu.current (waits : Bool) : Cpu → Producer → List Call
  | .pushing _, .idle => []
  | .pushing sent, _ => [.send waits sent]
  | .awaiting address byte, _ | .reading address byte, _ => [.read address byte]
  | .idle, _ | .settling, _ => []

/-- Every write that has not been on the bus may be in the buffer between two calls. -/
def Late (buffer : State) : Prop := ∀ sent ∈ buffer.unexecuted, sent.settles = false

/-- What CPU0's place says about the buffer. -/
def Stage (buffer : State) : Cpu → Prop
  | .idle => buffer.producer = .idle ∧ Late buffer
  | .pushing sent =>
      (buffer.producer = .wait sent.request ∨ ∃ field, buffer.producer = .fill sent.request field) ∧
        Late buffer ∨
      buffer.producer = .idle ∧ ∀ other ∈ buffer.unexecuted, other.settles = false ∨ other = sent
  | .settling => buffer.producer = .drain ∨ buffer.producer = .idle ∧ buffer.outstanding = []
  | .awaiting _ _ =>
      (buffer.producer = .drain ∨ buffer.producer = .idle ∧ buffer.outstanding = []) ∧ Late buffer
  | .reading _ _ => buffer.producer = .idle ∧ buffer.outstanding = []

/-- How far `wb_task` has come with the wait for the blitter: `before` is the device as the last
write has left it. -/
def Underway (waits : Bool) (before now : Device) : Consumer → Prop
  | .poll data =>
      waits = true ∧ Blits data.wrAddr data.wrSize.toUInt32 ∧
        ∃ polls, now = (pollTurn wires)^[polls] before ∧
          ∀ earlier < polls, (pollOnce wires ((pollTurn wires)^[earlier] before)).1 = true
  | .execute data =>
      now = checkBlitActive (waiting wires waits) data.wrAddr data.wrSize.toUInt32 before
  | _ => now = before

structure Orderly (state : Buffered Device) : Prop where
  inv : Invariant capacity state.buffer
  stage : Stage state.buffer state.cpu
  requests : ∀ request ∈ state.buffer.history.pushed, ∃ sent : BusWrite, request = sent.request
  uniform : ∀ sent waits, .write sent waits ∈ state.issued → sent.Uniform waits
  /-- The calls performed are a prefix of those issued; the others are in the buffer. -/
  done : ∃ performed, (direct wires performed device).answers = state.seen.answers ∧
    Underway wires state.waits (direct wires performed device).device state.seen.device
      state.buffer.consumer ∧
    state.issued.map Call.normal = performed ++ state.buffer.unexecuted.map (.send state.waits) ++
      state.cpu.current state.waits state.buffer.producer

end Orderly

section Steps

variable {Device : Type} {wires : Wires Device} {capacity : Capacity} {device : Device}
variable {state next : Buffered Device}

theorem Stage.fewer {cpu : Cpu} {buffer later : State} (stage : Stage buffer cpu)
    (producer : later.producer = buffer.producer)
    (empty : buffer.outstanding = [] → later.outstanding = [])
    (fewer : ∀ sent ∈ later.unexecuted, sent ∈ buffer.unexecuted) : Stage later cpu := by
  cases cpu with
  | idle => exact ⟨producer.trans stage.1, fun sent member => stage.2 sent (fewer sent member)⟩
  | pushing =>
      rcases stage with ⟨place, late⟩ | ⟨place, late⟩
      · exact .inl ⟨by rwa [producer], fun sent member => late sent (fewer sent member)⟩
      · exact .inr ⟨producer.trans place, fun sent member => late sent (fewer sent member)⟩
  | settling => exact stage.imp producer.trans (.imp producer.trans empty)
  | awaiting =>
      exact ⟨stage.1.imp producer.trans (.imp producer.trans empty),
        fun sent member => stage.2 sent (fewer sent member)⟩
  | reading => exact ⟨producer.trans stage.1, empty stage.2⟩

/-- Every request that has not been on the bus is a write that CPU0 has issued. -/
theorem Orderly.waiting (orderly : Orderly wires capacity device state) {data : WriteRequest}
    (member : data ∈ state.buffer.history.pushed.drop state.buffer.history.executed) :
    ∃ sent : BusWrite, data = sent.request ∧ sent ∈ state.buffer.unexecuted ∧
      sent.Uniform state.waits := by
  obtain ⟨sent, rfl⟩ := orderly.requests data (List.mem_of_mem_drop member)
  have listed : sent ∈ state.buffer.unexecuted :=
    List.mem_filterMap.mpr ⟨_, member, sent.write?_request⟩
  obtain ⟨performed, -, -, split⟩ := orderly.done
  have issued : Call.send state.waits sent ∈ state.issued.map Call.normal := by
    rw [split]
    exact List.mem_append_left _ (List.mem_append_right _ (List.mem_map_of_mem listed))
  obtain ⟨call, found, normal⟩ := List.mem_map.mp issued
  cases call with
  | read => cases normal
  | write other waits =>
      obtain ⟨rfl, flags⟩ := Call.write.inj normal
      have uniform := BusWrite.uniform_send.mpr (orderly.uniform _ _ found)
      rw [flags] at uniform
      exact ⟨_, rfl, listed, BusWrite.uniform_send.mp uniform⟩

theorem Orderly.outside (orderly : Orderly wires capacity device state) (late : Late state.buffer)
    {data : WriteRequest}
    (holds : state.buffer.consumer = .poll data ∨ state.buffer.consumer = .execute data) :
    ¬Blits data.wrAddr data.wrSize.toUInt32 := by
  obtain ⟨sent, rfl, listed, -⟩ := orderly.waiting (orderly.inv.front holds)
  exact sent.not_blits (late _ listed)

/-- `wb_task` does not wait before a write that goes elsewhere, whatever the context says. -/
theorem Underway.outside {waits : Bool} {before now : Device} {consumer : Consumer}
    (underway : Underway wires waits before now consumer)
    (outside : ∀ {data}, consumer = .poll data ∨ consumer = .execute data →
      ¬Blits data.wrAddr data.wrSize.toUInt32) :
    now = before ∧ ∀ other, Underway wires other before now consumer := by
  cases consumer with
  | poll data => exact absurd underway.2.1 (outside (.inl rfl))
  | execute data =>
      have same : now = before := underway.trans (checkBlitActive_of_not_blits (outside (.inr rfl)))
      exact ⟨same, fun _ => same.trans (checkBlitActive_of_not_blits (outside (.inr rfl))).symm⟩
  | peek | copy | acquire | check | release | pop | advance => exact ⟨underway, fun _ => underway⟩

/-- While only deferred writes are in the buffer, `wb_task` does not wait for the blitter. -/
theorem Orderly.caughtUp (orderly : Orderly wires capacity device state)
    (late : Late state.buffer) :
    ∃ performed, state.seen = direct wires performed device ∧
      state.issued.map Call.normal = performed ++ state.buffer.unexecuted.map (.send state.waits) ++
        state.cpu.current state.waits state.buffer.producer := by
  obtain ⟨performed, answers, underway, split⟩ := orderly.done
  have same := (underway.outside (orderly.outside late)).1
  exact ⟨performed, Seen.ext same answers.symm, split⟩

theorem write_orderly {sent : BusWrite} (orderly : Orderly wires capacity device state)
    (permitted : sent.Uniform state.waits) (moved : state.write sent = some next) :
    Orderly wires capacity device next := by
  obtain ⟨buffer, cpu, waits, seen, issued⟩ := state
  obtain ⟨inv, stage, requests, uniform, performed, answers, underway, split⟩ := orderly
  cases cpu <;> simp only [Buffered.write, reduceCtorEq] at moved
  obtain ⟨idle, late⟩ := stage
  dsimp only at idle answers underway split inv permitted
  have pushed : push sent.request buffer = some { buffer with producer := .wait sent.request } := by
    simp only [push, idle]
  rw [pushed] at moved
  cases moved
  refine ⟨@step_invariant _ _ _ (.push sent.request) inv pushed, .inl ⟨.inl rfl, late⟩, requests,
    ?_, performed, answers, underway, ?_⟩
  · intro other flag member
    rcases List.mem_append.mp member with earlier | last
    · exact uniform other flag earlier
    · cases List.mem_singleton.mp last
      exact permitted
  · rw [List.map_append, split]
    simp [Cpu.current, Call.normal, State.unexecuted]

theorem read_orderly {address : UInt32} {byte : Bool}
    (orderly : Orderly wires capacity device state)
    (moved : state.read address byte = some next) : Orderly wires capacity device next := by
  obtain ⟨buffer, cpu, waits, seen, issued⟩ := state
  obtain ⟨inv, stage, requests, uniform, performed, answers, underway, split⟩ := orderly
  cases cpu <;> simp only [Buffered.read, reduceCtorEq] at moved
  obtain ⟨idle, late⟩ := stage
  dsimp only at idle answers underway split inv
  have waited : waitfree buffer = some { buffer with producer := .drain } := by
    simp only [waitfree, idle]
  rw [waited] at moved
  cases moved
  refine ⟨@step_invariant _ _ _ (.waitfree) inv waited, ⟨.inl rfl, late⟩, requests, ?_, performed,
    answers, underway, ?_⟩
  · intro other flag member
    rcases List.mem_append.mp member with earlier | last
    · exact uniform other flag earlier
    · cases List.mem_singleton.mp last
  · rw [List.map_append, split]
    simp [Cpu.current, Call.normal, State.unexecuted]

/-- The context changes between two calls, when only deferred writes are in the buffer. -/
theorem context_orderly {waits : Bool} (orderly : Orderly wires capacity device state)
    (moved : state.context waits = some next) : Orderly wires capacity device next := by
  have outside := fun late data => @Orderly.outside _ _ _ _ _ orderly late data
  obtain ⟨buffer, cpu, before, seen, issued⟩ := state
  obtain ⟨inv, stage, requests, uniform, performed, answers, underway, split⟩ := orderly
  cases cpu <;> simp only [Buffered.context, reduceCtorEq] at moved
  cases moved
  have late := stage.2
  have unsent : buffer.unexecuted.map (Call.send before) = buffer.unexecuted.map (.send waits) :=
    List.map_congr_left fun sent member =>
      (send_deferred (late sent member) before).trans (send_deferred (late sent member) waits).symm
  refine ⟨inv, stage, requests, uniform, performed, answers,
    (underway.outside (outside late _)).2 waits, ?_⟩
  dsimp only at split ⊢
  rw [split, unsent]
  rfl

/-- A step of `wb_task` that writes nothing goes on with the wait. -/
theorem underway_consumed (ends : BlitsEnd wires) {buffer later : State} {waits : Bool}
    {before now : Device} (underway : Underway wires waits before now buffer.consumer)
    (writes : ∀ data, buffer.consumer ≠ .execute data)
    (moved : consume capacity (buffer.consumer.answer wires waits now) buffer = some later) :
    Underway wires waits before (buffer.consumer.drive wires now) later.consumer := by
  cases consumer : buffer.consumer with
  | execute data => exact absurd consumer (writes data)
  | check data =>
      rw [consumer] at underway
      have same : now = before := underway
      simp only [consume, consumer, Consumer.answer] at moved
      split at moved <;> cases moved
      next polls =>
        exact ⟨polls.1, polls.2, 0, same, fun _ before => absurd before (Nat.not_lt_zero _)⟩
      next none =>
        change now = checkBlitActive (waiting wires waits) data.wrAddr data.wrSize.toUInt32 before
        rw [same]
        rcases not_and_or.mp none with quiet | outside
        · exact (checkBlitActive_of_quiet (Bool.eq_false_iff.mpr quiet)).symm
        · exact (checkBlitActive_of_not_blits outside).symm
  | poll data =>
      rw [consumer] at underway
      obtain ⟨asked, blits, polls, rfl, busy⟩ := underway
      simp only [consume, consumer, Consumer.answer] at moved
      split at moved <;> cases moved
      next still =>
        rw [consumer]
        refine ⟨asked, blits, polls + 1, (Function.iterate_succ_apply' _ _ _).symm, ?_⟩
        intro earlier inside
        rcases Nat.lt_succ_iff_lt_or_eq.mp inside with inside | rfl
        · exact busy earlier inside
        · exact still
      next rest =>
        exact (checkBlitActive_of_busy ends asked blits busy (Bool.eq_false_iff.mpr rest)).symm
  | release | advance =>
      rw [consumer] at underway
      simp only [consume, consumer] at moved
      cases moved
      exact underway
  | peek | copy | acquire | pop =>
      rw [consumer] at underway
      simp only [consume, consumer] at moved
      split at moved <;> cases moved <;> first | exact underway | (rw [consumer]; exact underway)

theorem task_orderly (ends : BlitsEnd wires) (orderly : Orderly wires capacity device state)
    (moved : state.task wires capacity = some next) : Orderly wires capacity device next := by
  have queued := fun data => @Orderly.waiting _ _ _ _ _ orderly data
  obtain ⟨buffer, consumed, rfl⟩ := Option.map_eq_some_iff.mp moved
  obtain ⟨inv, stage, requests, uniform, performed, answers, underway, split⟩ := orderly
  obtain ⟨producer, empty, pushed, unexecuted⟩ := consume_turn inv consumed
  have kept : Invariant capacity buffer := @step_invariant _ _ _ (.consume _) inv consumed
  rw [unexecuted] at split
  refine ⟨kept, stage.fewer producer empty ?_, by rwa [pushed], uniform, ?_⟩
  · intro sent member
    rw [unexecuted]
    exact List.mem_append_right _ member
  · dsimp only
    rw [producer]
    by_cases executes : ∃ data, state.buffer.consumer = .execute data
    · obtain ⟨data, place⟩ := executes
      obtain ⟨sent, rfl, -, even⟩ := queued data (inv.front (.inr place))
      rw [place] at underway consumed
      simp only [place, sent.write?_request, Option.toList_some, List.map_append, List.map_cons,
        List.map_nil] at split
      refine ⟨performed ++ [.send state.waits sent], ?_, ?_,
        by simpa only [List.append_assoc] using split⟩
      · rw [direct_append]
        exact answers
      · simp only [consume, place] at consumed
        cases consumed
        rw [direct_append, place]
        change sent.request.write?.toList.foldl _ _ =
          sent.call (waiting wires (state.waits && decide sent.Blits)) _
        rw [sent.write?_request, sent.call_send even, ← show _ = _ from underway]
        rfl
    · have writes : ∀ data, state.buffer.consumer ≠ .execute data :=
        fun data here => executes ⟨data, here⟩
      refine ⟨performed, answers, underway_consumed ends underway writes consumed, ?_⟩
      have nothing : (match state.buffer.consumer with
          | .execute data => data.write?.toList
          | _ => []) = [] := by
        cases place : state.buffer.consumer <;> first | rfl | exact absurd place (writes _)
      rwa [nothing, List.nil_append] at split

/-- A request that is published is the last to be executed. -/
theorem unexecuted_published {buffer later : State} {sent : BusWrite}
    (inv : Invariant capacity buffer)
    (published : later.history =
      { buffer.history with pushed := buffer.history.pushed ++ [sent.request] }) :
    later.unexecuted = buffer.unexecuted ++ [sent] := by
  simp only [State.unexecuted, published, List.drop_append_of_le_length inv.once.2.2,
    List.filterMap_append, List.filterMap_cons, sent.write?_request, List.filterMap_nil]

theorem unexecuted_same {buffer later : State} (same : later.history = buffer.history) :
    later.unexecuted = buffer.unexecuted := by
  simp only [State.unexecuted, same]

/-- A step that leaves `wb_task` and the requests as they are only has to answer for its stage. -/
theorem Orderly.moved (orderly : Orderly wires capacity device state) {buffer : State} {cpu : Cpu}
    (inv : Invariant capacity buffer) (consumer : buffer.consumer = state.buffer.consumer)
    (history : buffer.history = state.buffer.history) (stage : Stage buffer cpu)
    (current : cpu.current state.waits buffer.producer =
      state.cpu.current state.waits state.buffer.producer) :
    Orderly wires capacity device { state with buffer, cpu } := by
  obtain ⟨-, -, requests, uniform, performed, answers, underway, split⟩ := orderly
  refine ⟨inv, stage, by rwa [history], uniform, performed, answers, by rwa [consumer], ?_⟩
  dsimp only
  rw [unexecuted_same history, current]
  exact split

theorem other_orderly {buffer : State} (orderly : Orderly wires capacity device state)
    (moved : other state.buffer = some buffer) :
    Orderly wires capacity device { state with buffer } := by
  obtain ⟨producer, consumer, history⟩ := other_turn moved
  have stage : Stage buffer state.cpu := by
    refine orderly.stage.fewer producer ?_ ?_
    · intro empty
      rw [State.outstanding, history]
      exact empty
    · intro sent member
      rwa [unexecuted_same history] at member
  exact orderly.moved (@step_invariant _ _ _ (.other) orderly.inv moved) consumer history stage
    (by rw [producer])

/-- `waitfree` is called on an idle producer. -/
theorem waitfree_idle {buffer later : State} (idle : buffer.producer = .idle)
    (waited : waitfree buffer = some later) : later = { buffer with producer := .drain } := by
  simp only [waitfree, idle, Option.some.injEq] at waited
  exact waited.symm

theorem returned_orderly (orderly : Orderly wires capacity device state)
    (idle : state.buffer.producer = .idle) (moved : state.returned wires = some next) :
    Orderly wires capacity device next := by
  obtain ⟨inv, stage, requests, uniform, performed, answers, underway, split⟩ := id orderly
  obtain ⟨buffer, cpu, waits, seen, issued⟩ := state
  dsimp only at idle answers underway split inv stage
  cases cpu <;> simp only [Buffered.returned, reduceCtorEq] at moved
  case pushing sent =>
    have late : ∀ other ∈ buffer.unexecuted, other.settles = false ∨ other = sent := by
      rcases stage with ⟨place | ⟨field, place⟩, _⟩ | ⟨_, late⟩
      · rw [idle] at place
        cases place
      · rw [idle] at place
        cases place
      · exact late
    have pushed : (Cpu.pushing sent).current waits buffer.producer = [] := by rw [idle]; rfl
    split at moved
    next settles =>
      obtain ⟨later, waited, rfl⟩ := Option.map_eq_some_iff.mp moved
      have kept : Invariant capacity later := @step_invariant _ _ _ (.waitfree) inv waited
      cases waitfree_idle idle waited
      exact orderly.moved kept rfl rfl (.inl rfl) pushed.symm
    next returns =>
      cases moved
      refine orderly.moved inv rfl rfl ⟨idle, fun other member => ?_⟩ pushed.symm
      rcases late other member with early | rfl
      · exact early
      · exact Bool.eq_false_iff.mpr returns
  case settling =>
    cases moved
    obtain draining | ⟨_, empty⟩ := stage
    · rw [idle] at draining
      cases draining
    · have none := (inv.drained empty).1
      refine orderly.moved inv rfl rfl ⟨idle, fun sent member => ?_⟩ rfl
      rw [none] at member
      cases member
  case awaiting address byte =>
    cases moved
    obtain ⟨draining | ⟨_, empty⟩, _⟩ := stage
    · rw [idle] at draining
      cases draining
    · exact orderly.moved inv rfl rfl ⟨idle, empty⟩ rfl
  case reading address byte =>
    cases moved
    obtain ⟨_, empty⟩ := stage
    obtain ⟨none, waiting⟩ := inv.drained empty
    rw [waiting] at underway
    have caughtUp : seen = direct wires performed device := Seen.ext underway answers.symm
    have read : direct wires (performed ++ [.read address byte]) device =
        (Call.read address byte).perform wires seen := by
      rw [direct_append, caughtUp]
      rfl
    refine ⟨inv, ⟨idle, fun sent member => ?_⟩, requests, uniform, performed ++ [.read address byte],
      ?_, ?_, ?_⟩
    · rw [none] at member
      cases member
    · rw [read]
    · rw [read, waiting]
      rfl
    · simpa only [none, Cpu.current, List.map_nil, List.append_nil] using split

/-- The request of the call that CPU0 is in is published, with its last field. -/
theorem published_orderly {buffer : State} {sent : BusWrite}
    (orderly : Orderly wires capacity device state) (cpu : state.cpu = .pushing sent)
    (busy : state.buffer.producer ≠ .idle) (inv : Invariant capacity buffer)
    (consumer : buffer.consumer = state.buffer.consumer) (idle : buffer.producer = .idle)
    (published : buffer.history = { state.buffer.history with
      pushed := state.buffer.history.pushed ++ [sent.request] }) :
    Orderly wires capacity device { state with buffer, cpu := .pushing sent } := by
  obtain ⟨invariant, stage, requests, uniform, performed, answers, underway, split⟩ := orderly
  have whole := unexecuted_published invariant published
  have current : (Cpu.pushing sent).current state.waits state.buffer.producer =
      [.send state.waits sent] := by
    cases producer : state.buffer.producer <;> first | rfl | exact absurd producer busy
  rw [cpu] at stage split
  have late := (stage.resolve_right fun done => busy done.1).2
  refine ⟨inv, ?_, ?_, uniform, performed, answers, by rwa [consumer], ?_⟩
  · refine .inr ⟨idle, fun other member => ?_⟩
    dsimp only at member
    rw [whole, List.mem_append, List.mem_singleton] at member
    exact member.imp_left (late other)
  · intro request member
    dsimp only at member
    rw [published] at member
    rcases List.mem_append.mp member with earlier | last
    · exact requests request earlier
    · exact ⟨sent, List.mem_singleton.mp last⟩
  · dsimp only
    rw [idle, whole, split, current, List.map_append, List.append_assoc]
    exact (List.append_nil _).symm

theorem advance_orderly (orderly : Orderly wires capacity device state)
    (moved : state.advance wires capacity = some next) : Orderly wires capacity device next := by
  unfold Buffered.advance at moved
  split at moved
  next idle => exact returned_orderly orderly idle moved
  next busy =>
    obtain ⟨buffer, produced, rfl⟩ := Option.map_eq_some_iff.mp moved
    have kept : Invariant capacity buffer := @step_invariant _ _ _ (.produce) orderly.inv produced
    have turn := produce_turn orderly.inv produced
    have consumer := produce_consumer produced
    have stage := orderly.stage
    cases cpu : state.cpu with
    | idle =>
        rw [cpu] at stage
        exact absurd stage.1 busy
    | reading =>
        rw [cpu] at stage
        exact absurd stage.1 busy
    | pushing sent =>
        rw [cpu] at stage
        obtain ⟨place, late⟩ := stage.resolve_right fun done => busy done.1
        obtain ⟨request, before, history, after⟩ | ⟨request, field, before, after⟩ | ⟨before, _⟩ :=
          turn
        · obtain rfl : request = sent.request := by
            rcases place with place | ⟨_, place⟩ <;> rw [before] at place <;> cases place
            rfl
          rw [Late, ← unexecuted_same history] at late
          refine orderly.moved kept consumer history ?_ ?_
          · exact .inl ⟨after.imp_right fun filling => ⟨0, filling⟩, late⟩
          · rw [cpu, before]
            rcases after with after | after <;> simp only [after, Cpu.current]
        · obtain rfl : request = sent.request := by
            rcases place with place | ⟨_, place⟩ <;> rw [before] at place <;> cases place
            rfl
          rcases after with ⟨history, filling⟩ | ⟨published, idle⟩
          · rw [Late, ← unexecuted_same history] at late
            refine orderly.moved kept consumer history ?_ ?_
            · exact .inl ⟨.inr ⟨_, filling⟩, late⟩
            · rw [cpu, before, filling]
              rfl
          · exact published_orderly orderly cpu busy kept consumer idle published
        · rcases place with place | ⟨_, place⟩ <;> rw [before] at place <;> cases place
    | settling =>
        rw [cpu] at stage
        have draining := stage.resolve_right fun done => busy done.1
        obtain ⟨_, before, _⟩ | ⟨_, _, before, _⟩ | ⟨_, history, after⟩ := turn
        · cases draining.symm.trans before
        · cases draining.symm.trans before
        · refine orderly.moved kept consumer history after ?_
          rw [cpu]
          rfl
    | awaiting address byte =>
        rw [cpu] at stage
        have draining := stage.1.resolve_right fun done => busy done.1
        obtain ⟨_, before, _⟩ | ⟨_, _, before, _⟩ | ⟨_, history, after⟩ := turn
        · cases draining.symm.trans before
        · cases draining.symm.trans before
        · have late := stage.2
          rw [Late, ← unexecuted_same history] at late
          refine orderly.moved kept consumer history ⟨after, late⟩ ?_
          rw [cpu]
          rfl

/-- The turn begins no write that only one of the two drivers waits for. -/
def Turn.Uniform (turn : Turn) (state : Buffered Device) : Prop :=
  ∀ sent, turn = .write sent → sent.Uniform state.waits

theorem step_orderly {turn : Turn} (ends : BlitsEnd wires) (permitted : turn.Uniform state)
    (orderly : Orderly wires capacity device state)
    (moved : (buffered wires capacity).step turn state = some next) :
    Orderly wires capacity device next := by
  cases turn with
  | write sent => exact write_orderly orderly (permitted sent rfl) moved
  | read => exact read_orderly orderly moved
  | context => exact context_orderly orderly moved
  | cpu => exact advance_orderly orderly moved
  | task => exact task_orderly ends orderly moved
  | other =>
      obtain ⟨buffer, taken, rfl⟩ := Option.map_eq_some_iff.mp moved
      exact other_orderly orderly taken

theorem start_orderly (buffer : Nat → WriteRequest) :
    Orderly wires capacity device (Buffered.start buffer device) where
  inv := start_invariant buffer
  stage := ⟨rfl, fun _ member => absurd member List.not_mem_nil⟩
  requests := fun _ member => absurd member List.not_mem_nil
  uniform := fun _ _ member => absurd member List.not_mem_nil
  done := ⟨[], rfl, rfl, rfl⟩

end Steps

section Refinement

variable {Device : Type} {wires : Wires Device} {capacity : Capacity} {device : Device}

/-- What CPU0 can tell of the buffer. -/
structure Transparent (wires : Wires Device) (capacity : Capacity) (device : Device)
    (state : Buffered Device) : Prop where
  /-- Between two calls CPU0 has read what it reads without the buffer. -/
  answers : state.cpu = .idle → state.seen.answers = (direct wires state.issued device).answers
  /-- Between two calls the bus is behind by deferred writes, no more than the buffer holds. -/
  behind : state.cpu = .idle → ∃ performed deferred, state.issued = performed ++ deferred ∧
    state.seen = direct wires performed device ∧ deferred.length ≤ capacity.value.toNat ∧
    ∀ call ∈ deferred, call.Deferred
  /-- After a read, or a write from 0xa00000 on, the bus has caught up. -/
  caughtUp : state.cpu = .idle → ∀ call, state.issued.getLast? = some call → ¬call.Deferred →
    state.seen = direct wires state.issued device
  /-- A read cycle comes after every earlier write, while `wb_task` is off the bus. -/
  alone : ∀ address byte, state.cpu = .reading address byte →
    state.buffer.consumer = .peek ∧
    ∃ earlier, state.issued = earlier ++ [.read address byte] ∧
      state.seen = direct wires earlier device

theorem Orderly.transparent {state : Buffered Device}
    (orderly : Orderly wires capacity device state) :
    Transparent wires capacity device state := by
  have idle : state.cpu = .idle → ∃ performed deferred, state.issued = performed ++ deferred ∧
      state.seen = direct wires performed device ∧
      deferred.length = state.buffer.unexecuted.length ∧ ∀ call ∈ deferred, call.Deferred := by
    intro resting
    have stage := orderly.stage
    rw [resting] at stage
    obtain ⟨performed, same, split⟩ := orderly.caughtUp stage.2
    rw [resting] at split
    obtain ⟨early, deferred, issued, rfl, sent⟩ :=
      List.map_eq_append_iff.mp (split.trans (List.append_nil _))
    refine ⟨early, deferred, issued, same.trans (direct_normal wires early device), ?_, ?_⟩
    · have lengths := congrArg List.length sent
      rwa [List.length_map, List.length_map] at lengths
    · intro call member
      have listed := List.mem_map_of_mem (f := Call.normal) member
      rw [sent] at listed
      obtain ⟨write, unexecuted, normal⟩ := List.mem_map.mp listed
      rw [← call.deferred_normal, ← normal]
      exact stage.2 write unexecuted
  have inv := orderly.inv
  refine ⟨?_, ?_, ?_, ?_⟩
  · intro resting
    obtain ⟨performed, late, issued, same, -, deferred⟩ := idle resting
    rw [issued, direct_append, answers_deferred wires deferred, same]
  · intro resting
    obtain ⟨performed, late, issued, same, length, deferred⟩ := idle resting
    refine ⟨performed, late, issued, same, ?_, deferred⟩
    have bounded := inv.ring.bounded
    rw [state.buffer.outstanding_length] at bounded
    have once := inv.once.1
    calc late.length
        ≤ (state.buffer.history.pushed.drop state.buffer.history.executed).length := by
          rw [length, State.unexecuted]
          exact List.length_filterMap_le _ _
      _ ≤ capacity.value.toNat := by
          rw [List.length_drop]
          omega
  · intro resting call last settled
    obtain ⟨performed, late, issued, same, -, deferred⟩ := idle resting
    have none : late = [] := by
      by_contra some
      rw [issued, List.getLast?_append_of_ne_nil _ some] at last
      exact settled (deferred call (List.mem_of_getLast? last))
    rw [issued, none, List.append_nil, same]
  · intro address byte reading
    have stage := orderly.stage
    rw [reading] at stage
    obtain ⟨none, waiting⟩ := inv.drained stage.2
    obtain ⟨performed, same, split⟩ := orderly.caughtUp (by rw [Late, none]; exact nofun)
    rw [reading, none, List.map_nil, List.append_nil] at split
    obtain ⟨early, last, issued, rfl, read⟩ := List.map_eq_append_iff.mp split
    obtain ⟨call, rfl, normal⟩ := List.map_eq_singleton_iff.mp read
    have own : call = .read address byte := by
      cases call <;> cases normal
      rfl
    rw [own] at issued
    exact ⟨waiting, early, issued, same.trans (direct_normal wires early device)⟩

/-- The write buffer is transparent: in every state of every interleaving of CPU0 with
`wb_task`, CPU0 has read what the driver without the buffer would have read.  A wait for the
blitter is the same in both, but for the write of a byte to its registers. -/
theorem buffered_refines_direct (ends : BlitsEnd wires) {buffer : Nat → WriteRequest}
    {turns : List Turn} {state : Buffered Device}
    (run : (buffered wires capacity).Runs Turn.Uniform (Buffered.start buffer device) turns state) :
    Transparent wires capacity device state := by
  have orderly : Orderly wires capacity device state := run.invariant
    (fun _ _ _ permitted stepped orderly => step_orderly ends permitted orderly stepped)
    (start_orderly buffer)
  exact orderly.transparent

/-- A device of one word, with a blit that some more polls find under way. -/
structure Latch where
  word : UInt16
  blit : Nat

def latch : Wires Latch where
  write transaction chip := { chip with word := transaction.data }
  read address _ chip :=
    if address = 0xdff002 then
      (if chip.blit = 0 then 0 else 0x4240, { chip with blit := chip.blit - 1 })
    else (chip.word, chip)
  capture _ _ _ chip := chip
  invalidate _ _ chip := chip
  blitPolls chip := chip.blit

theorem pollOnce_latch (word : UInt16) (blit : Nat) :
    pollOnce latch ⟨word, blit⟩ = (decide (blit ≠ 0), ⟨word, blit - 1⟩) := by
  cases blit with
  | zero =>
      have status : psRead16 latch 0xdff002 ⟨word, 0⟩ = (0, ⟨word, 0⟩) := rfl
      simp [pollOnce, status, blitMask]
  | succ blit =>
      have status : psRead16 latch 0xdff002 ⟨word, blit + 1⟩ = (0x4240, ⟨word, blit⟩) := rfl
      have dummy : psRead16 latch 0xf00000 ⟨word, blit⟩ = (word.toUInt32, ⟨word, blit⟩) := rfl
      simp [pollOnce, status, dummy]

theorem latch_ends : BlitsEnd latch := by
  have polled : ∀ polls (chip : Latch), (pollTurn latch)^[polls] chip =
      ⟨chip.word, chip.blit - polls⟩ := by
    intro polls
    induction polls with
    | zero => exact fun _ => rfl
    | succ polls ih =>
        intro chip
        rw [Function.iterate_succ_apply', ih, pollTurn, pollOnce_latch, Nat.sub_sub]
  intro chip
  refine ⟨chip.blit, Nat.le_refl _, ?_⟩
  rw [polled, Nat.sub_self, pollOnce_latch]
  rfl

/-- A deferred write, then the context asks for the wait; a write to `BLTSIZE` that waits for a
blit of two polls, and a read that waits for both. -/
def writesThenRead : List Turn :=
  .write (.write16 0x200000 0x1234) :: List.replicate 6 .cpu ++
    .context true :: .write (.write16 0xdff058 0x0041) :: List.replicate 6 .cpu ++
    List.replicate 25 .task ++ List.replicate 2 .cpu ++
    .read 0x200000 false :: List.replicate 3 .cpu

set_option maxRecDepth 20000 in
theorem buffered_refines_direct_of_writesThenRead :
    ∃ state, (buffered latch sampleCapacity).Runs Machine.anyStep
        (Buffered.start (fun _ => blankRequest) ⟨0, 2⟩) writesThenRead state ∧
      (state.seen.answers, state.seen.device.blit) = ([0x0041], 0) ∧
      Transparent latch sampleCapacity ⟨0, 2⟩ state := by
  have executed : ((buffered latch sampleCapacity).run Machine.anyStep writesThenRead
      (Buffered.start (fun _ => blankRequest) ⟨0, 2⟩)).map
        (fun state => (state.seen.answers, state.seen.device.blit)) = some ([0x0041], 0) := rfl
  obtain ⟨state, run, seen⟩ := Machine.runs_of_observed executed
  have words : ∀ turn ∈ writesThenRead, ∀ sent, turn = .write sent → ∀ waits, sent.Uniform waits := by
    intro turn member sent same
    subst same
    cases sent with
    | write8 => simp [writesThenRead] at member
    | write16 | write32 => exact fun _ => trivial
  have uniform : (buffered latch sampleCapacity).Runs Turn.Uniform
      (Buffered.start (fun _ => blankRequest) ⟨0, 2⟩) writesThenRead state :=
    (run.restrict words).weaken fun _ state permitted sent same => permitted.2 sent same state.waits
  exact ⟨state, run, seen, buffered_refines_direct latch_ends uniform⟩

end Refinement

end Paulastorm.WriteBuffer
