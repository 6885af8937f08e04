import Paulastorm.Bus
import Paulastorm.Library.Ring
import Paulastorm.Library.Transition

namespace Paulastorm.WriteBuffer

/-! The write buffer of `ps_classic_protocol.c` as a machine of atomic steps.

The producer runs `wb_push` and `wb_waitfree`, one at a time; the consumer is
`wb_task`, which peeks, waits for the blitter, executes and pops for ever.  A turn of a
waiting loop is one step.  Requests are stored and copied one field at a time.  `held` says
that someone outside the buffer has the bus lock.

`History` is not read by the code.
-/

open Library

structure WriteRequest where
  wrAddr : UInt32
  wrValue : UInt32
  wrSize : UInt8
deriving Repr, DecidableEq

inductive BusWrite where
  | write8 (address value : UInt32)
  | write16 (address value : UInt32)
  | write32 (address value : UInt32)
deriving Repr, DecidableEq

/-- The switch of `wb_task`: any other size writes nothing. -/
def WriteRequest.write? (request : WriteRequest) : Option BusWrite :=
  if request.wrSize = 1 then some (.write8 request.wrAddr request.wrValue)
  else if request.wrSize = 2 then some (.write16 request.wrAddr request.wrValue)
  else if request.wrSize = 4 then some (.write32 request.wrAddr request.wrValue)
  else none

/-- Store one field of a request. -/
def storeField (field : Nat) (source target : WriteRequest) : WriteRequest :=
  match field with
  | 0 => { target with wrAddr := source.wrAddr }
  | 1 => { target with wrValue := source.wrValue }
  | _ => { target with wrSize := source.wrSize }

structure Shared where
  wrBuffer : Nat → WriteRequest
  wrHead : UInt32
  wrTail : UInt32
  busLock : Bool
  bus : List BusWrite

/-- Where the producer is: in the loop of `wb_push`, storing, or in `wb_waitfree`. -/
inductive Producer where
  | idle
  | wait (request : WriteRequest)
  | fill (request : WriteRequest) (field : Nat)
  | drain

/-- Where `wb_task` is; it enters `check_blit_active` for every request, and polls there. -/
inductive Consumer where
  | peek
  | copy (field : Nat) (data : WriteRequest)
  | acquire (data : WriteRequest)
  | check (data : WriteRequest)
  | poll (data : WriteRequest)
  | execute (data : WriteRequest)
  | release
  | pop
  | advance

/-- The requests published, and how many were executed and popped. -/
structure History where
  pushed : List WriteRequest
  executed : Nat
  popped : Nat

structure State where
  shared : Shared
  producer : Producer
  consumer : Consumer
  held : Bool
  history : History

/-- The requests published and not yet popped, oldest first. -/
def State.outstanding (state : State) : List WriteRequest :=
  state.history.pushed.drop state.history.popped

/-- After `wb_init`, with `wb_task` running. -/
def start (buffer : Nat → WriteRequest) : State where
  shared := ⟨buffer, 0, 0, false, []⟩
  producer := .idle
  consumer := .peek
  held := false
  history := ⟨[], 0, 0⟩

section Steps

variable (capacity : Capacity)

/-- `wb_push` is called. -/
def push (request : WriteRequest) (state : State) : Option State :=
  match state.producer with
  | .idle => some { state with producer := .wait request }
  | _ => none

/-- `wb_waitfree` is called. -/
def waitfree (state : State) : Option State :=
  match state.producer with
  | .idle => some { state with producer := .drain }
  | _ => none

def produce (state : State) : Option State :=
  match state.producer with
  | .idle => none
  | .wait request =>
      if state.shared.wrTail + capacity.value ≤ state.shared.wrHead then some state
      else some { state with producer := .fill request 0 }
  | .fill request field =>
      if field < 3 then
        let slot := Ring.slot capacity state.shared.wrHead
        some { state with
          shared.wrBuffer := Function.update state.shared.wrBuffer slot
            (storeField field request (state.shared.wrBuffer slot))
          producer := .fill request (field + 1) }
      else
        some { state with
          shared.wrHead := state.shared.wrHead + 1
          producer := .idle
          history.pushed := state.history.pushed ++ [request] }
  | .drain =>
      if state.shared.wrTail ≠ state.shared.wrHead then some state
      else some { state with producer := .idle }

/-- The next step of `wb_task`.  `answer` is what it is told from outside the buffer: whether
`JC2F_BLITWAIT` is set, or whether a poll finds the blitter busy. -/
def consume (answer : Bool) (state : State) : Option State :=
  match state.consumer with
  | .peek =>
      if state.shared.wrTail = state.shared.wrHead then some state
      else some { state with consumer := .copy 0 ⟨0, 0, 0⟩ }
  | .copy field data =>
      if field < 3 then
        let source := state.shared.wrBuffer (Ring.slot capacity state.shared.wrTail)
        some { state with consumer := .copy (field + 1) (storeField field source data) }
      else some { state with consumer := .acquire data }
  | .acquire data =>
      if state.shared.busLock then some state
      else some { state with shared.busLock := true, consumer := .check data }
  | .check data =>
      if answer = true ∧ Bus.Blits data.wrAddr data.wrSize.toUInt32 then
        some { state with consumer := .poll data }
      else some { state with consumer := .execute data }
  | .poll data => if answer then some state else some { state with consumer := .execute data }
  | .execute data =>
      some { state with
        shared.bus := state.shared.bus ++ data.write?.toList
        consumer := .release
        history.executed := state.history.executed + 1 }
  | .release => some { state with shared.busLock := false, consumer := .pop }
  | .pop =>
      if state.shared.wrTail = state.shared.wrHead then some state
      else some { state with consumer := .advance }
  | .advance =>
      some { state with
        shared.wrTail := state.shared.wrTail + 1
        consumer := .peek
        history.popped := state.history.popped + 1 }

/-- Someone else takes the bus lock, or clears it again. -/
def other (state : State) : Option State :=
  if state.held then some { state with shared.busLock := false, held := false }
  else if state.shared.busLock then none
  else some { state with shared.busLock := true, held := true }

inductive Label where
  | push (request : WriteRequest)
  | waitfree
  | produce
  | consume (answer : Bool)
  | other

def step : Label → State → Option State
  | .push request => push request
  | .waitfree => waitfree
  | .produce => produce capacity
  | .consume answer => consume capacity answer
  | .other => other

def machine : Machine State Label := ⟨step capacity⟩

end Steps

/-- Two requests agree on the fields below `count`. -/
def Agree (count : Nat) (first second : WriteRequest) : Prop :=
  (0 < count → first.wrAddr = second.wrAddr) ∧ (1 < count → first.wrValue = second.wrValue) ∧
  (2 < count → first.wrSize = second.wrSize)

theorem agree_zero (first second : WriteRequest) : Agree 0 first second := by
  simp [Agree]

theorem storeField_agree {field : Nat} {source target : WriteRequest}
    (agree : Agree field source target) :
    Agree (field + 1) source (storeField field source target) := by
  obtain ⟨address, value, size⟩ := agree
  rcases field with _ | _ | field
  · simp [Agree, storeField]
  · exact ⟨fun _ => address (by decide), fun _ => rfl, fun absurdity => by omega⟩
  · exact ⟨fun _ => address (by omega), fun _ => value (by omega), fun _ => rfl⟩

theorem Agree.eq {count : Nat} {first second : WriteRequest} (agree : Agree count first second)
    (complete : 3 ≤ count) : first = second := by
  obtain ⟨address, value, size⟩ := agree
  cases first
  cases second
  simp only [WriteRequest.mk.injEq]
  exact ⟨address (by omega), value (by omega), size (by omega)⟩

variable {capacity : Capacity}

/-- What the producer's place says about the buffer. -/
def ProducerHolds (capacity : Capacity) (state : State) : Producer → Prop
  | .fill request field => state.outstanding.length < capacity.value.toNat ∧
      state.history.pushed.length + 1 < 2 ^ 32 ∧
      Agree field request (state.shared.wrBuffer (Ring.slot capacity state.shared.wrHead))
  | _ => True

/-- What the consumer's place says about the front request. -/
def ConsumerHolds (state : State) : Consumer → Prop
  | .peek => state.history.executed = state.history.popped
  | .copy field data => state.history.executed = state.history.popped ∧
      ∃ front, state.outstanding.head? = some front ∧ Agree field front data
  | .acquire data | .check data | .poll data | .execute data =>
      state.history.executed = state.history.popped ∧ state.outstanding.head? = some data
  | .release | .pop | .advance =>
      state.history.executed = state.history.popped + 1 ∧ state.outstanding ≠ []

structure Invariant (capacity : Capacity) (state : State) : Prop where
  ring : Ring.Represents capacity state.shared.wrBuffer state.shared.wrHead state.shared.wrTail
    state.outstanding
  head : state.shared.wrHead.toNat = state.history.pushed.length
  tail : state.shared.wrTail.toNat = state.history.popped
  ordered : state.history.popped ≤ state.history.pushed.length
  producer : ProducerHolds capacity state state.producer
  consumer : ConsumerHolds state state.consumer
  bus : state.shared.bus =
    (state.history.pushed.take state.history.executed).filterMap WriteRequest.write?

theorem start_invariant (buffer : Nat → WriteRequest) : Invariant capacity (start buffer) where
  ring := Ring.Represents.empty buffer 0
  head := rfl
  tail := rfl
  ordered := Nat.le_refl 0
  producer := trivial
  consumer := rfl
  bus := rfl

variable {state next : State}

theorem State.outstanding_length (state : State) :
    state.outstanding.length = state.history.pushed.length - state.history.popped :=
  List.length_drop

/-- The loop of `wb_push` waits when the buffer is full, and wherever `tail + S` wraps. -/
theorem Invariant.blocked_iff (inv : Invariant capacity state) :
    state.shared.wrTail + capacity.value ≤ state.shared.wrHead ↔
      2 ^ 32 ≤ state.shared.wrTail.toNat + capacity.value.toNat ∨
        state.outstanding.length = capacity.value.toNat := by
  have head := state.shared.wrHead.toNat_lt
  have tail := state.shared.wrTail.toNat_lt
  have size := capacity.value.toNat_lt
  have bounded := inv.ring.bounded
  have ordered := inv.ordered
  rw [state.outstanding_length, ← inv.head, ← inv.tail] at bounded ⊢
  rw [← inv.head, ← inv.tail] at ordered
  rw [UInt32.le_iff_toNat_le, UInt32.toNat_add]
  rcases Nat.lt_or_ge (state.shared.wrTail.toNat + capacity.value.toNat) (2 ^ 32) with below | above
  · rw [Nat.mod_eq_of_lt below]
    omega
  · rw [Nat.mod_eq_sub_mod above, Nat.mod_eq_of_lt (by omega)]
    omega

theorem produce_invariant (inv : Invariant capacity state)
    (moved : produce capacity state = some next) : Invariant capacity next := by
  obtain ⟨shared, producer, consumer, held, history⟩ := state
  cases producer with
  | idle => cases moved
  | wait request =>
      have blocked := inv.blocked_iff
      simp only [produce] at moved
      split at moved
      next => cases moved; exact inv
      next room =>
        cases moved
        simp only [room, false_iff, not_or] at blocked
        have bounded := inv.ring.bounded
        have length := State.outstanding_length ⟨shared, .wait request, consumer, held, history⟩
        have ordered : history.popped ≤ history.pushed.length := inv.ordered
        have tail : shared.wrTail.toNat = history.popped := inv.tail
        dsimp only at blocked length bounded
        exact { inv with
          producer := by
            refine ⟨Nat.lt_of_le_of_ne bounded blocked.2, ?_, agree_zero _ _⟩
            dsimp only
            omega }
  | fill request field =>
      obtain ⟨room, small, agree⟩ := inv.producer
      simp only [produce] at moved
      split at moved
      · cases moved
        exact { inv with
          ring := inv.ring.write_free room _
          producer := ⟨room, small, by
            simpa only [Function.update_self] using storeField_agree agree⟩ }
      next complete =>
        cases moved
        have filled := (agree.eq (Nat.le_of_not_lt complete)).symm
        have ordered : history.popped ≤ history.pushed.length := inv.ordered
        have appended : (history.pushed ++ [request]).drop history.popped =
            history.pushed.drop history.popped ++ [request] := List.drop_append_of_le_length ordered
        have pushed := inv.ring.push room filled
        have head : shared.wrHead.toNat = history.pushed.length := inv.head
        have kept : ConsumerHolds ⟨shared, .fill request field, consumer, held, history⟩ consumer :=
          inv.consumer
        have executed : history.executed ≤ history.pushed.length := by
          cases consumer with
          | peek => exact (le_of_eq kept).trans ordered
          | copy | acquire | check | poll | execute => exact (le_of_eq kept.1).trans ordered
          | release | pop | advance =>
              have nonempty := List.length_pos_iff.mpr kept.2
              rw [State.outstanding_length] at nonempty
              have count : history.executed = history.popped + 1 := kept.1
              dsimp only at nonempty
              omega
        exact {
          ring := by
            change Ring.Represents capacity _ _ _ ((history.pushed ++ [request]).drop history.popped)
            rw [appended]
            exact pushed
          head := by
            have one : (1 : UInt32).toNat = 1 := rfl
            change (shared.wrHead + 1).toNat = (history.pushed ++ [request]).length
            rw [UInt32.toNat_add, head, one, List.length_append, List.length_singleton]
            exact Nat.mod_eq_of_lt small
          tail := inv.tail
          ordered := by
            change history.popped ≤ (history.pushed ++ [request]).length
            rw [List.length_append]
            omega
          producer := trivial
          consumer := by
            have front : ∀ data, (history.pushed.drop history.popped).head? = some data →
                ((history.pushed ++ [request]).drop history.popped).head? = some data := by
              intro data first
              rw [appended, List.head?_append, first]
              rfl
            cases consumer with
            | peek => exact kept
            | copy field data =>
                obtain ⟨same, first, found, agree⟩ := kept
                exact ⟨same, first, front first found, agree⟩
            | acquire data | check data | poll data | execute data =>
                exact ⟨kept.1, front data kept.2⟩
            | release | pop | advance =>
                refine ⟨kept.1, ?_⟩
                change (history.pushed ++ [request]).drop history.popped ≠ []
                rw [appended]
                simp
          bus := by
            change shared.bus = ((history.pushed ++ [request]).take history.executed).filterMap _
            rw [List.take_append_of_le_length executed]
            exact inv.bus }
  | drain =>
      simp only [produce] at moved
      split at moved
      · cases moved
        exact inv
      · cases moved
        exact { inv with producer := trivial }

theorem consume_invariant {answer : Bool} (inv : Invariant capacity state)
    (moved : consume capacity answer state = some next) : Invariant capacity next := by
  obtain ⟨shared, producer, consumer, held, history⟩ := state
  cases consumer with
  | peek =>
      have same : history.executed = history.popped := inv.consumer
      simp only [consume] at moved
      split at moved
      next => cases moved; exact inv
      next more =>
        cases moved
        have nonempty : history.pushed.drop history.popped ≠ [] :=
          fun none => more (inv.ring.head_eq_tail_iff.mpr none).symm
        exact { inv with
          consumer := ⟨same, (history.pushed.drop history.popped).head nonempty,
            List.head?_eq_some_head nonempty, agree_zero _ _⟩ }
  | copy field data =>
      obtain ⟨same, front, first, agree⟩ := inv.consumer
      obtain ⟨rest, outstanding⟩ := List.head?_eq_some_iff.mp first
      have stored : shared.wrBuffer (Ring.slot capacity shared.wrTail) = front :=
        Ring.Represents.front (outstanding ▸ inv.ring)
      simp only [consume] at moved
      split at moved
      · cases moved
        exact { inv with
          consumer := ⟨same, front, first, by simpa only [stored] using storeField_agree agree⟩ }
      next complete =>
        cases moved
        rw [agree.eq (Nat.le_of_not_lt complete)] at first
        exact { inv with consumer := ⟨same, first⟩ }
  | acquire data =>
      have kept : ConsumerHolds ⟨shared, producer, .acquire data, held, history⟩ (.acquire data) :=
        inv.consumer
      simp only [consume] at moved
      split at moved
      · cases moved
        exact inv
      · cases moved
        exact { inv with consumer := kept }
  | check data =>
      have kept : history.executed = history.popped ∧
        (history.pushed.drop history.popped).head? = some data := inv.consumer
      simp only [consume] at moved
      split at moved <;> cases moved <;> exact { inv with consumer := kept }
  | poll data =>
      have kept : history.executed = history.popped ∧
        (history.pushed.drop history.popped).head? = some data := inv.consumer
      simp only [consume] at moved
      split at moved <;> cases moved
      · exact inv
      · exact { inv with consumer := kept }
  | execute data =>
      obtain ⟨same, first⟩ : history.executed = history.popped ∧
        (history.pushed.drop history.popped).head? = some data := inv.consumer
      cases moved
      have next : history.pushed.take (history.executed + 1) =
          history.pushed.take history.executed ++ [data] := by
        rw [List.head?_drop, ← same] at first
        rw [List.take_add_one, first]
        rfl
      exact { inv with
        consumer := by
          refine ⟨congrArg (· + 1) same, ?_⟩
          intro none
          have absurdity : (history.pushed.drop history.popped) = [] := none
          rw [absurdity] at first
          cases first
        bus := by
          have before : shared.bus = (history.pushed.take history.executed).filterMap _ := inv.bus
          change shared.bus ++ _ = (history.pushed.take (history.executed + 1)).filterMap _
          rw [next, List.filterMap_append, ← before]
          cases written : data.write? <;> simp [written] }
  | release =>
      cases moved
      exact { inv with consumer := inv.consumer }
  | pop =>
      have kept : ConsumerHolds ⟨shared, producer, .pop, held, history⟩ .pop := inv.consumer
      simp only [consume] at moved
      split at moved
      · cases moved
        exact inv
      · cases moved
        exact { inv with consumer := kept }
  | advance =>
      obtain ⟨executed, nonempty⟩ : history.executed = history.popped + 1 ∧
        history.pushed.drop history.popped ≠ [] := inv.consumer
      obtain ⟨front, rest, outstanding⟩ := List.exists_cons_of_ne_nil nonempty
      cases moved
      have shorter : history.pushed.drop (history.popped + 1) = rest := by
        rw [← List.drop_drop, outstanding]
        rfl
      have bound := List.length_pos_iff.mpr nonempty
      rw [List.length_drop] at bound
      have head : shared.wrHead.toNat = history.pushed.length := inv.head
      have tail : shared.wrTail.toNat = history.popped := inv.tail
      exact {
        ring := by
          have before : Ring.Represents capacity shared.wrBuffer shared.wrHead shared.wrTail
              (history.pushed.drop history.popped) := inv.ring
          rw [outstanding] at before
          change Ring.Represents capacity _ _ _ (history.pushed.drop (history.popped + 1))
          rw [shorter]
          exact before.pop
        head := head
        tail := by
          have one : (1 : UInt32).toNat = 1 := rfl
          have fits := shared.wrHead.toNat_lt
          change (shared.wrTail + 1).toNat = history.popped + 1
          rw [UInt32.toNat_add, tail, one]
          exact Nat.mod_eq_of_lt (by omega)
        ordered := by
          change history.popped + 1 ≤ history.pushed.length
          omega
        producer := by
          cases producer with
          | fill request field =>
              obtain ⟨room, small, agree⟩ := inv.producer
              refine ⟨?_, small, agree⟩
              rw [State.outstanding_length] at room ⊢
              dsimp only at room ⊢
              omega
          | _ => exact trivial
        consumer := executed
        bus := inv.bus }

theorem step_invariant {label : Label} (inv : Invariant capacity state)
    (stepped : step capacity label state = some next) : Invariant capacity next := by
  cases label with
  | produce => exact produce_invariant inv stepped
  | consume answer => exact consume_invariant inv stepped
  | push request =>
      obtain ⟨shared, producer, consumer, held, history⟩ := state
      cases producer <;> cases stepped
      exact { inv with producer := trivial }
  | waitfree =>
      obtain ⟨shared, producer, consumer, held, history⟩ := state
      cases producer <;> cases stepped
      exact { inv with producer := trivial }
  | other =>
      obtain ⟨shared, producer, consumer, held, history⟩ := state
      simp only [step, other] at stepped
      split at stepped
      · cases stepped
        exact { inv with }
      · split at stepped
        · cases stepped
        · cases stepped
          exact { inv with }

/-- What the write buffer is for, in one state of a run. -/
structure Works (capacity : Capacity) (state : State) : Prop where
  /-- `wb_push` waits exactly while the buffer is full. -/
  waits : ∀ request, state.producer = .wait request →
    (produce capacity state = some state ↔ state.outstanding.length = capacity.value.toNat)
  proceeds : state.outstanding = [] → ∀ request, state.producer = .wait request →
    produce capacity state = some { state with producer := .fill request 0 }
  returns : state.outstanding = [] → state.producer = .drain →
    produce capacity state = some { state with producer := .idle }
  /-- No outstanding request is overwritten. -/
  kept : ∀ index (inside : index < state.outstanding.length),
    state.shared.wrBuffer (Ring.slot capacity (state.shared.wrTail + UInt32.ofNat index)) =
      state.outstanding[index]
  /-- The bus has seen the requests executed, in push order. -/
  ordered : state.shared.bus =
    (state.history.pushed.take state.history.executed).filterMap WriteRequest.write?
  /-- A request is executed before it is popped, and not again. -/
  once : state.history.popped ≤ state.history.executed ∧
    state.history.executed ≤ state.history.popped + 1 ∧
    state.history.executed ≤ state.history.pushed.length

/-- The sum that `wb_push` compares does not wrap. -/
def Unwrapped (capacity : Capacity) (state : State) : Prop :=
  ∀ request, state.producer = .wait request →
    state.shared.wrTail.toNat + capacity.value.toNat < 2 ^ 32

theorem Invariant.once (inv : Invariant capacity state) :
    state.history.popped ≤ state.history.executed ∧
      state.history.executed ≤ state.history.popped + 1 ∧
      state.history.executed ≤ state.history.pushed.length := by
  have ordered := inv.ordered
  have place := inv.consumer
  cases consumer : state.consumer with
  | peek =>
      rw [consumer] at place
      have same : state.history.executed = state.history.popped := place
      omega
  | copy | acquire | check | poll | execute =>
      rw [consumer] at place
      have same : state.history.executed = state.history.popped := place.1
      omega
  | release | pop | advance =>
      rw [consumer] at place
      have next : state.history.executed = state.history.popped + 1 := place.1
      have nonempty := List.length_pos_iff.mpr place.2
      rw [state.outstanding_length] at nonempty
      omega

theorem produce_wait {request : WriteRequest} (waiting : state.producer = .wait request) :
    produce capacity state =
      if state.shared.wrTail + capacity.value ≤ state.shared.wrHead then some state
      else some { state with producer := .fill request 0 } := by
  simp only [produce, waiting]

/-- A turn of the loop of `wb_push` stays in the loop exactly when its test holds. -/
theorem waits_iff {request : WriteRequest} (waiting : state.producer = .wait request) :
    produce capacity state = some state ↔
      state.shared.wrTail + capacity.value ≤ state.shared.wrHead := by
  rw [produce_wait waiting]
  split
  next full => exact ⟨fun _ => full, fun _ => rfl⟩
  next room =>
    constructor
    · intro stays
      have place := congrArg State.producer (Option.some.inj stays)
      rw [waiting] at place
      cases place
    · intro full
      exact absurd full room

/-- In every state of every run the buffer works exactly if the sum that `wb_push` is
about to compare has not wrapped. -/
theorem works_iff_unwrapped {buffer : Nat → WriteRequest} {labels : List Label} {state : State}
    (run : (machine capacity).Runs Machine.anyStep (start buffer) labels state) :
    Works capacity state ↔ Unwrapped capacity state := by
  have inv : Invariant capacity state := run.invariant
    (fun _ _ _ _ stepped inv => step_invariant inv stepped) (start_invariant buffer)
  have head := state.shared.wrHead.toNat_lt
  have length := state.outstanding_length
  rw [← inv.head, ← inv.tail] at length
  constructor
  · intro works request waiting
    by_contra wrapped
    have stays := (waits_iff waiting).mpr (inv.blocked_iff.mpr (.inl (Nat.le_of_not_lt wrapped)))
    have full := (works.waits request waiting).mp stays
    have positive := capacity.positive
    omega
  · intro unwrapped
    have blocked : ∀ request, state.producer = .wait request →
        (state.shared.wrTail + capacity.value ≤ state.shared.wrHead ↔
          state.outstanding.length = capacity.value.toNat) := by
      intro request waiting
      rw [inv.blocked_iff]
      exact or_iff_right (Nat.not_le_of_lt (unwrapped request waiting))
    refine ⟨?_, ?_, ?_, inv.ring.holds, inv.bus, inv.once⟩
    · intro request waiting
      rw [waits_iff waiting, blocked request waiting]
    · intro empty request waiting
      rw [produce_wait waiting, if_neg]
      rw [blocked request waiting, empty]
      exact capacity.positive.ne
    · intro empty draining
      have same := inv.ring.head_eq_tail_iff.mpr empty
      simp only [produce, draining, same, ne_eq, not_true_eq_false, if_false]

section Reached

/-- The buffer is empty after `count` requests, and nobody is at work. -/
structure Rest (count : Nat) (state : State) : Prop where
  producer : state.producer = .idle
  consumer : state.consumer = .peek
  lock : state.shared.busLock = false
  head : state.shared.wrHead = UInt32.ofNat count
  tail : state.shared.wrTail = UInt32.ofNat count
  empty : state.outstanding = []

/-- One request through the buffer, without a wait for the blitter. -/
def oneRequest (request : WriteRequest) : List Label :=
  .push request :: (List.replicate 5 .produce ++ List.replicate 11 (.consume false))

theorem rest_next {count : Nat} (rest : Rest count state)
    (below : count + capacity.value.toNat < 2 ^ 32) (request : WriteRequest) :
    ∃ next, (machine capacity).Runs Machine.anyStep state (oneRequest request) next ∧
      Rest (count + 1) next := by
  obtain ⟨shared, producer, consumer, held, history⟩ := state
  obtain ⟨rfl, rfl, free, head, tail, empty⟩ := rest
  dsimp only at free head tail
  have positive := capacity.positive
  have size : UInt32.size = 2 ^ 32 := rfl
  have room : ¬UInt32.ofNat count + capacity.value ≤ UInt32.ofNat count := by
    rw [UInt32.le_iff_toNat_le, UInt32.toNat_add, UInt32.toNat_ofNat_of_lt' (by omega),
      Nat.mod_eq_of_lt below]
    omega
  have more : ¬UInt32.ofNat count = UInt32.ofNat count + 1 := by
    intro same
    have number := congrArg UInt32.toNat same
    have one : (1 : UInt32).toNat = 1 := rfl
    rw [UInt32.toNat_add, UInt32.toNat_ofNat_of_lt' (by omega), one,
      Nat.mod_eq_of_lt (by omega)] at number
    omega
  have executed : ∃ next, (machine capacity).run Machine.anyStep (oneRequest request)
      ⟨shared, .idle, .peek, held, history⟩ = some next ∧ Rest (count + 1) next := by
    simp [oneRequest, Machine.run, Machine.anyStep, machine, step, push, produce, consume, free,
      head, tail, room, more, List.replicate]
    refine ⟨rfl, rfl, rfl, (UInt32.ofNat_add count 1).symm, (UInt32.ofNat_add count 1).symm, ?_⟩
    have done := List.drop_eq_nil_iff.mp empty
    apply List.drop_eq_nil_of_le
    rw [List.length_append]
    exact Nat.succ_le_succ done
  obtain ⟨next, finished, after⟩ := executed
  exact ⟨next, Machine.run_eq_some_iff.mp finished, after⟩

theorem rest_reached (buffer : Nat → WriteRequest) (request : WriteRequest) (count : Nat)
    (below : count + capacity.value.toNat ≤ 2 ^ 32) :
    ∃ labels state, (machine capacity).Runs Machine.anyStep (start buffer) labels state ∧
      Rest count state := by
  induction count with
  | zero => exact ⟨[], start buffer, .refl _, rfl, rfl, rfl, rfl, rfl, rfl⟩
  | succ count ih =>
      obtain ⟨labels, state, run, rest⟩ := ih (by omega)
      have small : count + capacity.value.toNat < 2 ^ 32 := by omega
      obtain ⟨next, moved, after⟩ := rest_next rest small request
      exact ⟨_, next, run.append moved, after⟩

end Reached

/-- A buffer of 1024 requests. -/
def sampleCapacity : Capacity := ⟨1024, 10, rfl⟩

def blankRequest : WriteRequest := ⟨0, 0, 0⟩

/-- After `2^32 - 1024` requests the buffer is empty, and the next `wb_push` and `wb_task`
wait for each other. -/
theorem push_waits_on_empty_buffer :
    ∃ labels state, (machine sampleCapacity).Runs Machine.anyStep (start fun _ => blankRequest)
        labels state ∧
      state.history.pushed.length = 4294966272 ∧ state.outstanding = [] ∧
      state.producer = .wait blankRequest ∧ produce sampleCapacity state = some state ∧
      (∀ answer, consume sampleCapacity answer state = some state) ∧
      ¬Works sampleCapacity state := by
  obtain ⟨labels, state, run, rest⟩ := @rest_reached sampleCapacity (fun _ => blankRequest)
    blankRequest 4294966272 (by decide)
  have inv : Invariant sampleCapacity state := run.invariant
    (fun _ _ _ _ stepped inv => step_invariant inv stepped) (start_invariant _)
  have head := inv.head
  obtain ⟨shared, producer, consumer, held, history⟩ := state
  obtain ⟨rfl, rfl, free, headEq, tailEq, empty⟩ := rest
  dsimp only at free headEq tailEq head
  have pushed : (machine sampleCapacity).Runs Machine.anyStep ⟨shared, .idle, .peek, held, history⟩
      [.push blankRequest] ⟨shared, .wait blankRequest, .peek, held, history⟩ :=
    .step trivial rfl (.refl _)
  have whole := run.append pushed
  have full : shared.wrTail + sampleCapacity.value ≤ shared.wrHead := by
    rw [headEq, tailEq]
    decide
  have stays : produce sampleCapacity ⟨shared, .wait blankRequest, .peek, held, history⟩ =
      some ⟨shared, .wait blankRequest, .peek, held, history⟩ := by
    rw [produce_wait rfl, if_pos full]
  have idles : ∀ answer, consume sampleCapacity answer
      ⟨shared, .wait blankRequest, .peek, held, history⟩ =
        some ⟨shared, .wait blankRequest, .peek, held, history⟩ :=
    fun _ => if_pos (tailEq.trans headEq.symm)
  refine ⟨_, _, whole, ?_, empty, rfl, stays, idles, ?_⟩
  · rw [headEq, UInt32.toNat_ofNat_of_lt' (by decide)] at head
    exact head.symm
  · intro works
    have length := (works.waits blankRequest rfl).mp stays
    have none : State.outstanding ⟨shared, .wait blankRequest, .peek, held, history⟩ = [] := empty
    rw [none] at length
    exact absurd length (by decide)

/-- One request passes, and another is about to be pushed. -/
theorem works_iff_unwrapped_of_oneRequest :
    ∃ state, (machine sampleCapacity).Runs Machine.anyStep (start fun _ => blankRequest)
        (oneRequest ⟨0xdff096, 0x8201, 2⟩ ++ [.push blankRequest]) state ∧
      state.shared.bus = [.write16 0xdff096 0x8201] ∧
      (Works sampleCapacity state ↔ Unwrapped sampleCapacity state) := by
  have executed : ((machine sampleCapacity).run Machine.anyStep
      (oneRequest ⟨0xdff096, 0x8201, 2⟩ ++ [.push blankRequest])
      (start fun _ => blankRequest)).map (fun state => state.shared.bus) =
        some [.write16 0xdff096 0x8201] := rfl
  obtain ⟨state, run, bus⟩ := Machine.runs_of_observed executed
  exact ⟨state, run, bus, works_iff_unwrapped run⟩

end Paulastorm.WriteBuffer
