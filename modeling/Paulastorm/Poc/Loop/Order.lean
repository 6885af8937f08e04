import Paulastorm.Poc.Loop.Sound

namespace Paulastorm.Poc

/-! The drain loop applies every event it pops, once, in capture order, and at most 128
of them for one frame. -/

open Paulastorm.Core Mirror Probe
open Library (Machine)

/-- The events of the ring that a pop under way has yet to retire. -/
def claims : EventRing.Consumer → Nat
  | .pop | .advance _ => 1
  | _ => 0

/-- The number of events applied for one frame. -/
def Record.inFrame (record : Record) (frame : Nat) : Nat :=
  record.applied.countP fun entry => entry.frame = frame

namespace Loop

variable {F D σ : Type} {port : Port σ} {timing : Timing}

/-- The applied events are the popped ones, and the one that is about to be. -/
structure Ordered (loop : Loop F D σ) : Prop where
  below : ∀ entry ∈ loop.record.applied,
    entry.number < loop.ring.history.retired.length + claims loop.ring.consumer
  increasing : loop.record.applied.Pairwise fun first second => first.number < second.number
  popped : ∀ entry ∈ loop.record.applied, entry.number < loop.ring.history.retired.length →
    loop.ring.history.retired[entry.number]? = some (.popped (some entry.event))
  front : ∀ entry ∈ loop.record.applied, entry.number = loop.ring.history.retired.length →
    loop.ring.history.peeked = some entry.event
  claimed : claims loop.ring.consumer = 1 →
    ∃ entry ∈ loop.record.applied, entry.number = loop.ring.history.retired.length
  every : ∀ (index : Nat) copy, loop.ring.history.retired[index]? = some (.popped copy) →
    ∃ entry ∈ loop.record.applied, entry.number = index
  due : ∀ entry ∈ loop.record.applied, ReplayClock.due entry.tick entry.event.ticks = true

variable {loop next : Loop F D σ} {label : Label port}

/-- Nothing was retired, applied or claimed. -/
theorem Ordered.same (ordered : Ordered loop) (applied : next.record.applied = loop.record.applied)
    (retired : next.ring.history.retired = loop.ring.history.retired)
    (claimed : claims next.ring.consumer = claims loop.ring.consumer)
    (peeked : next.ring.history.peeked = loop.ring.history.peeked ∨
      claims loop.ring.consumer = 0) : Ordered next where
  below := by
    rw [applied, retired, claimed]
    exact ordered.below
  increasing := applied ▸ ordered.increasing
  popped := by
    rw [applied, retired]
    exact ordered.popped
  front := by
    rw [applied, retired]
    intro entry member last
    rcases peeked with same | none
    · exact same.trans (ordered.front entry member last)
    · have before := ordered.below entry member
      omega
  claimed := by
    rw [applied, retired, claimed]
    exact ordered.claimed
  every := by
    rw [applied, retired]
    exact ordered.every
  due := applied ▸ ordered.due

/-- The claimed event is retired as it was applied. -/
theorem Ordered.pop {ring : EventRing.State} (ordered : Ordered loop)
    (claimed : claims loop.ring.consumer = 1) (finished : claims ring.consumer = 0)
    (history : ring.history = loop.ring.history.pop) : Ordered (loop.served ring) := by
  have length : ring.history.retired.length = loop.ring.history.retired.length + 1 := by
    rw [history]
    exact List.length_append
  have retired : ring.history.retired =
      loop.ring.history.retired ++ [.popped loop.ring.history.peeked] := by
    rw [history]
    rfl
  refine ⟨fun entry member => ?_, ordered.increasing, fun entry member earlier => ?_,
    fun entry member last => ?_, fun still => ?_, fun index copy found => ?_, ordered.due⟩
  · change entry.number < ring.history.retired.length + claims ring.consumer
    have before := ordered.below entry member
    omega
  · change ring.history.retired[entry.number]? = _
    rw [retired]
    have before := ordered.below entry member
    by_cases inside : entry.number < loop.ring.history.retired.length
    · rw [List.getElem?_append_left inside]
      exact ordered.popped entry member inside
    · have last : entry.number = loop.ring.history.retired.length := by omega
      rw [last, List.getElem?_concat_length, ordered.front entry member last]
  · change entry.number = ring.history.retired.length at last
    have before := ordered.below entry member
    omega
  · change claims ring.consumer = 1 at still
    omega
  · change ring.history.retired[index]? = some (.popped copy) at found
    rw [retired, List.getElem?_append] at found
    split at found
    · exact ordered.every index copy found
    · next beyond =>
        have only := (List.getElem?_eq_some_iff.mp found).1
        rw [List.length_singleton] at only
        obtain ⟨entry, member, number⟩ := ordered.claimed claimed
        exact ⟨entry, member, by omega⟩

/-- What a snapshot discards was never applied. -/
theorem Ordered.cut {ring : EventRing.State} {snapshot : Snapshot} (ordered : Ordered loop)
    (unclaimed : claims loop.ring.consumer = 0) (finished : claims ring.consumer = 0)
    (history : ring.history = loop.ring.history.cut snapshot) : Ordered (loop.served ring) := by
  have retired : ring.history.retired = loop.ring.history.retired ++
      List.replicate loop.ring.history.unread.length (.skipped loop.ring.history.cuts.length) := by
    rw [history]
    rfl
  have length : loop.ring.history.retired.length ≤ ring.history.retired.length := by
    rw [retired, List.length_append]
    exact Nat.le_add_right _ _
  have inside : ∀ entry ∈ loop.record.applied,
      entry.number < loop.ring.history.retired.length := fun entry member => by
    have before := ordered.below entry member
    omega
  refine ⟨fun entry member => ?_, ordered.increasing, fun entry member _ => ?_,
    fun entry member last => ?_, fun still => ?_, fun index copy found => ?_, ordered.due⟩
  · change entry.number < ring.history.retired.length + claims ring.consumer
    exact Nat.lt_add_right _ (Nat.lt_of_lt_of_le (inside entry member) length)
  · change ring.history.retired[entry.number]? = _
    rw [retired, List.getElem?_append_left (inside entry member)]
    exact ordered.popped entry member (inside entry member)
  · change entry.number = ring.history.retired.length at last
    have before := inside entry member
    omega
  · change claims ring.consumer = 1 at still
    omega
  · change ring.history.retired[index]? = some (.popped copy) at found
    rw [retired, List.getElem?_append] at found
    split at found
    · exact ordered.every index copy found
    · rw [List.getElem?_replicate] at found
      split at found <;> cases found

/-- The event that a pop is about to retire was applied, so it is in the ring. -/
theorem claimed_present (sound : Sound loop) (ordered : Ordered loop)
    (claimed : claims loop.ring.consumer = 1) :
    loop.ring.shared.eventTail ≠ loop.ring.shared.eventHead := by
  intro empty
  obtain ⟨entry, member, last⟩ := ordered.claimed claimed
  have seen := sound.ring.history.peeked _ (ordered.front entry member last)
  rw [sound.ring.ring.head_eq_tail_iff.mp empty.symm] at seen
  cases seen

theorem served_ordered {ring : EventRing.State} (sound : Sound loop) (ordered : Ordered loop)
    (moved : EventRing.consume loop.ring = some ring) : Ordered (loop.served ring) := by
  cases consumer : loop.ring.consumer with
  | idle => simp [EventRing.consume, consumer] at moved
  | advance tail =>
      simp only [EventRing.consume, consumer] at moved
      cases moved
      exact ordered.pop (by rw [consumer]; rfl) rfl rfl
  | discard head =>
      simp only [EventRing.consume, consumer] at moved
      cases moved
      exact ordered.cut (by rw [consumer]; rfl) rfl rfl
  | pop =>
      simp only [EventRing.consume, consumer] at moved
      split at moved
      next empty => exact absurd empty (claimed_present sound ordered (by rw [consumer]; rfl))
      next more =>
        cases moved
        exact ordered.same rfl rfl (by rw [consumer]; rfl) (.inl rfl)
  | copy field =>
      simp only [EventRing.consume, consumer] at moved
      have unclaimed : claims loop.ring.consumer = 0 := by rw [consumer]; rfl
      split at moved <;> cases moved <;> exact ordered.same rfl rfl unclaimed.symm (.inr unclaimed)
  | peek | snapshot =>
      simp only [EventRing.consume, consumer] at moved
      have unclaimed : claims loop.ring.consumer = 0 := by rw [consumer]; rfl
      split at moved <;> cases moved <;> exact ordered.same rfl rfl unclaimed.symm (.inr unclaimed)
  | _ =>
      simp only [EventRing.consume, consumer] at moved
      have unclaimed : claims loop.ring.consumer = 0 := by rw [consumer]; rfl
      cases moved
      exact ordered.same rfl rfl unclaimed.symm (.inr unclaimed)

/-- A claimed event is retired and no claim is lost. -/
theorem served_claims {ring : EventRing.State} (sound : Sound loop) (ordered : Ordered loop)
    (moved : EventRing.consume loop.ring = some ring) :
    loop.ring.history.retired.length + claims loop.ring.consumer ≤
      ring.history.retired.length + claims ring.consumer := by
  cases consumer : loop.ring.consumer <;>
    simp only [EventRing.consume, consumer, reduceCtorEq] at moved
  case pop =>
    split at moved
    next empty => exact absurd empty (claimed_present sound ordered (by rw [consumer]; rfl))
    next => cases moved; exact Nat.le_refl _
  case advance =>
    cases moved
    simp [EventRing.History.pop, claims]
  case discard =>
    cases moved
    simp [EventRing.History.cut, claims]
  case peek | copy | snapshot => split at moved <;> cases moved <;> exact Nat.le_refl _
  all_goals
    cases moved
    exact Nat.le_refl _

/-- The event of the last peek is applied. -/
theorem apply_ordered [Floating D] (ordered : Ordered loop) (idle : loop.ring.consumer = .idle)
    (processed : Nat) (peeked : loop.ring.history.peeked = some loop.ring.out.event)
    (due : ReplayClock.due loop.clock.tick loop.ring.out.event.ticks = true) :
    Ordered (loop.apply port processed) := by
  have inside : ∀ entry ∈ loop.record.applied,
      entry.number < loop.ring.history.retired.length := by
    intro entry member
    have before := ordered.below entry member
    rwa [idle] at before
  have member_applied : ∀ entry ∈ (loop.apply port processed).record.applied,
      entry ∈ loop.record.applied ∨ entry = ⟨loop.ring.history.retired.length,
        loop.ring.out.event, loop.clock.tick, loop.record.frames.length⟩ := by
    intro entry member
    rcases List.mem_append.mp member with old | new
    · exact .inl old
    · exact .inr (List.mem_singleton.mp new)
  refine ⟨fun entry member => ?_, ?_, fun entry member earlier => ?_, fun entry member last => ?_,
    fun _ => ⟨_, List.mem_append_right _ (List.mem_singleton.mpr rfl), rfl⟩,
    fun index copy found => ?_, fun entry member => ?_⟩
  · rcases member_applied entry member with old | rfl
    · exact Nat.lt_add_right _ (inside entry old)
    · exact Nat.lt_succ_self _
  · refine List.pairwise_append.mpr ⟨ordered.increasing, List.pairwise_singleton _ _, ?_⟩
    intro entry member new last
    rw [List.mem_singleton] at last
    rw [last]
    exact inside entry member
  · rcases member_applied entry member with old | rfl
    · exact ordered.popped entry old earlier
    · exact absurd earlier (Nat.lt_irrefl _)
  · rcases member_applied entry member with old | rfl
    · exact ordered.front entry old last
    · exact peeked
  · obtain ⟨entry, member, number⟩ := ordered.every index copy found
    exact ⟨entry, List.mem_append_left _ member, number⟩
  · rcases member_applied entry member with old | rfl
    · exact ordered.due entry old
    · exact due

variable [Floating F] [Floating D]

theorem Move.ordered (sound : Sound loop) (ordered : Ordered loop)
    (idle : loop.ring.consumer = .idle) (move : Move port timing loop next) : Ordered next := by
  have unclaimed : claims loop.ring.consumer = 0 := by rw [idle]; rfl
  cases move with
  | apply processed here found due =>
      have looked := sound.looked (by rw [here]; rfl)
      rw [idle, Looked, if_pos found] at looked
      exact apply_ordered ordered idle processed looked.2 due
  | lost | behind | look | enough | drained =>
      exact ordered.same rfl rfl unclaimed.symm (.inr unclaimed)
  | early | full => exact ordered
  | _ => exact ordered.same rfl rfl rfl (.inl rfl)

theorem Turn.ordered (sound : Sound loop) (ordered : Ordered loop)
    (turn : Turn port timing loop label next) : Ordered next := by
  cases turn with
  | captured entered =>
      obtain ⟨kept, _⟩ := EventRing.capture_kept entered
      exact ordered.same rfl kept.retired (congrArg claims kept.consumer) (.inl kept.peeked)
  | produced moved =>
      have kept := EventRing.produce_kept moved
      exact ordered.same rfl kept.retired (congrArg claims kept.consumer) (.inl kept.peeked)
  | host => exact ordered.same rfl rfl rfl (.inl rfl)
  | served _ moved => exact served_ordered sound ordered moved
  | moved _ idle move => exact move.ordered sound ordered idle

/-- Where the loop is with the events of the frame under way. -/
def Paced (handled : Nat) : Position → Prop
  | .drain processed => handled = processed ∧ processed ≤ 128
  | .peeked processed => handled = processed ∧ processed < 128
  | .checked | .output _ => handled ≤ 128
  | _ => handled = 0

/-- At most 128 events have been applied for any frame. -/
structure Bounded (loop : Loop F D σ) : Prop where
  frame : ∀ entry ∈ loop.record.applied, entry.frame ≤ loop.record.frames.length
  paced : Paced (loop.record.inFrame loop.record.frames.length) loop.position
  each : ∀ frame, loop.record.inFrame frame ≤ 128

omit [Floating F] [Floating D] in
theorem Bounded.same (bounded : Bounded loop) (applied : next.record.applied = loop.record.applied)
    (frames : next.record.frames = loop.record.frames)
    (paced : Paced (loop.record.inFrame loop.record.frames.length) next.position) :
    Bounded next := by
  have inFrame : next.record.inFrame = loop.record.inFrame := by
    funext frame
    rw [Record.inFrame, applied, Record.inFrame]
  refine ⟨?_, ?_, fun frame => ?_⟩
  · rw [applied, frames]
    exact bounded.frame
  · rw [inFrame, frames]
    exact paced
  · rw [inFrame]
    exact bounded.each frame

omit [Floating F] in
theorem apply_bounded (bounded : Bounded loop) {processed : Nat}
    (here : loop.position = .peeked processed) : Bounded (loop.apply port processed) := by
  have paced := bounded.paced
  rw [here] at paced
  have inFrame : ∀ frame, (loop.apply port processed).record.inFrame frame =
      loop.record.inFrame frame + if loop.record.frames.length = frame then 1 else 0 := by
    intro frame
    simp [Record.inFrame, apply, call, List.countP_append, List.countP_singleton]
  refine ⟨fun entry member => ?_, ?_, fun frame => ?_⟩
  · rcases List.mem_append.mp member with old | new
    · exact bounded.frame entry old
    · rw [List.mem_singleton.mp new]
      exact Nat.le_refl _
  · change Paced ((loop.apply port processed).record.inFrame loop.record.frames.length)
      (.drain (processed + 1))
    rw [inFrame, if_pos rfl, paced.1]
    exact ⟨rfl, paced.2⟩
  · rw [inFrame]
    split
    next same =>
      rw [← same, paced.1]
      exact paced.2
    next => exact bounded.each frame

theorem Move.bounded (bounded : Bounded loop) (move : Move port timing loop next) :
    Bounded next := by
  have paced := bounded.paced
  cases move with
  | enter here | start _ here | adopt _ here | lost _ here | intact _ here | behind _ here
  | pass _ here | restore _ here | stall _ _ _ _ here | left _ _ _ _ here | right _ _ _ here
  | advance _ here =>
      rw [here] at paced
      exact bounded.same rfl rfl paced
  | retry here =>
      rw [here] at paced
      exact bounded.same rfl rfl (Nat.le_trans (Nat.le_of_eq paced) (Nat.zero_le _))
  | paced here =>
      rw [here] at paced
      exact bounded.same rfl rfl ⟨paced, Nat.zero_le _⟩
  | look processed here less =>
      rw [here] at paced
      exact bounded.same rfl rfl ⟨paced.1, less⟩
  | enough processed here =>
      rw [here] at paced
      exact bounded.same rfl rfl (paced.1 ▸ paced.2)
  | drained processed here =>
      rw [here] at paced
      exact bounded.same rfl rfl (paced.1 ▸ Nat.le_of_lt paced.2)
  | apply processed here => exact apply_bounded bounded here
  | decide here =>
      rw [here] at paced
      exact bounded.same rfl rfl paced
  | early | full => exact bounded
  | emit =>
      -- The next frame has no events yet.
      refine ⟨fun entry member => ?_, ?_, bounded.each⟩
      · have before := bounded.frame entry member
        rw [List.length_append]
        exact Nat.le_add_right_of_le before
      · refine List.countP_eq_zero.mpr fun entry member => ?_
        have before := bounded.frame entry member
        simp only [List.length_append, List.length_singleton, decide_eq_true_eq]
        omega

theorem Turn.bounded (bounded : Bounded loop) (turn : Turn port timing loop label next) :
    Bounded next := by
  cases turn with
  | moved _ _ move => exact move.bounded bounded
  | _ => exact bounded.same rfl rfl bounded.paced

theorem start_ordered (port : Port σ) (events : Nat → Event) (metrics : Metrics)
    (out : EventRing.Out) (host : σ) :
    Ordered (start port events metrics out host : Loop F D σ) := by
  constructor <;> simp [start, EventRing.start, EventRing.History.empty, claims]

theorem start_bounded (port : Port σ) (events : Nat → Event) (metrics : Metrics)
    (out : EventRing.Out) (host : σ) :
    Bounded (start port events metrics out host : Loop F D σ) := by
  constructor <;> simp [start, Record.inFrame, Paced]

end Loop

end Paulastorm.Poc
