import Mathlib.Logic.Function.Basic
import Mathlib.Data.Nat.ModEq

namespace Paulastorm.Library

/-! Bounded rings indexed by free-running 32-bit counters.

The producer owns `head`, the consumer owns `tail`, and neither counter is ever
reduced modulo the capacity: a slot is selected by masking.  The list of unread
items is the semantic model, so a client reasons about pushes and pops on a
list and never about the point where a counter wraps.
-/

/-- A capacity that divides the range of the counters. -/
structure Capacity where
  value : UInt32
  bits : Nat
  power : value.toNat = 2 ^ bits

namespace Capacity

theorem power_13 : (8192 : UInt32).toNat = 2 ^ 13 := rfl

theorem positive (capacity : Capacity) : 0 < capacity.value.toNat := by
  rw [capacity.power]
  exact Nat.two_pow_pos _

theorem bits_lt (capacity : Capacity) : capacity.bits < 32 := by
  have bounded := capacity.value.toNat_lt
  rw [capacity.power] at bounded
  exact (Nat.pow_lt_pow_iff_right (by decide)).mp bounded

theorem dvd (capacity : Capacity) : capacity.value.toNat ∣ 2 ^ 32 := by
  rw [capacity.power]
  exact Nat.pow_dvd_pow 2 (Nat.le_of_lt capacity.bits_lt)

end Capacity

namespace Ring

/-- The slot selected by a counter: `counter & (capacity - 1)`. -/
def slot (capacity : Capacity) (counter : UInt32) : Nat :=
  (counter &&& (capacity.value - 1)).toNat

theorem slot_eq_mod (capacity : Capacity) (counter : UInt32) :
    slot capacity counter = counter.toNat % capacity.value.toNat := by
  have least : (1 : UInt32) ≤ capacity.value := UInt32.le_iff_toNat_le.mpr capacity.positive
  have mask : (capacity.value - 1).toNat = 2 ^ capacity.bits - 1 := by
    rw [UInt32.toNat_sub_of_le _ _ least, capacity.power]
    rfl
  rw [slot, UInt32.toNat_and, mask, Nat.and_two_pow_sub_one_eq_mod, capacity.power]

theorem slot_add (capacity : Capacity) (counter : UInt32) (offset : Nat) :
    slot capacity (counter + UInt32.ofNat offset) =
      (counter.toNat + offset) % capacity.value.toNat := by
  rw [slot_eq_mod, UInt32.toNat_add, UInt32.toNat_ofNat', Nat.add_mod_mod,
    Nat.mod_mod_of_dvd _ capacity.dvd]

/-- Counters closer than the capacity select different slots. -/
theorem slot_injective {capacity : Capacity} {counter : UInt32} {first second : Nat}
    (firstInside : first < capacity.value.toNat) (secondInside : second < capacity.value.toNat)
    (same : slot capacity (counter + UInt32.ofNat first) =
      slot capacity (counter + UInt32.ofNat second)) : first = second := by
  rw [slot_add, slot_add] at same
  exact Nat.ModEq.eq_of_lt_of_lt (Nat.ModEq.add_left_cancel' counter.toNat same)
    firstInside secondInside

/-- The unread slots, oldest first, carry exactly `items`. -/
structure Represents (capacity : Capacity) (slots : Nat → α) (head tail : UInt32)
    (items : List α) : Prop where
  bounded : items.length ≤ capacity.value.toNat
  headEq : head = tail + UInt32.ofNat items.length
  holds : ∀ index (inside : index < items.length),
    slots (slot capacity (tail + UInt32.ofNat index)) = items[index]

variable {α : Type u} {capacity : Capacity} {slots : Nat → α} {head tail : UInt32}
  {items : List α} {item : α}

theorem Represents.empty (slots : Nat → α) (tail : UInt32) :
    Represents capacity slots tail tail [] where
  bounded := Nat.zero_le _
  headEq := by simp
  holds := by simp

/-- The counter difference is the number of unread items, across any wrap. -/
theorem Represents.pending (ring : Represents capacity slots head tail items) :
    (head - tail).toNat = items.length := by
  have small : items.length < 2 ^ 32 :=
    Nat.lt_of_le_of_lt ring.bounded capacity.value.toNat_lt
  rw [ring.headEq, UInt32.add_comm, UInt32.add_sub_cancel, UInt32.toNat_ofNat_of_lt' small]

theorem Represents.head_eq_tail_iff (ring : Represents capacity slots head tail items) :
    head = tail ↔ items = [] := by
  constructor
  · intro same
    have pending := ring.pending
    rw [same, UInt32.sub_self] at pending
    exact List.length_eq_zero_iff.mp pending.symm
  · rintro rfl
    simpa using ring.headEq

theorem Represents.front (ring : Represents capacity slots head tail (item :: items)) :
    slots (slot capacity tail) = item := by
  have first : slots (slot capacity (tail + 0)) = item := ring.holds 0 (by simp)
  rwa [UInt32.add_zero] at first

/-- Filling the slot at `head` is invisible while the ring has room. -/
theorem Represents.write_free (ring : Represents capacity slots head tail items)
    (room : items.length < capacity.value.toNat) (value : α) :
    Represents capacity (Function.update slots (slot capacity head) value) head tail items where
  bounded := ring.bounded
  headEq := ring.headEq
  holds := by
    intro index inside
    rw [Function.update_of_ne, ring.holds index inside]
    intro same
    rw [ring.headEq] at same
    have equal := slot_injective (Nat.lt_trans inside room) room same
    omega

/-- Publishing the filled slot appends its item. -/
theorem Represents.push (ring : Represents capacity slots head tail items)
    (room : items.length < capacity.value.toNat)
    (filled : slots (slot capacity head) = item) :
    Represents capacity slots (head + 1) tail (items ++ [item]) where
  bounded := by
    rw [List.length_append, List.length_singleton]
    exact room
  headEq := by
    rw [ring.headEq, List.length_append, List.length_singleton, UInt32.ofNat_add,
      UInt32.add_assoc]
    rfl
  holds := by
    intro index inside
    by_cases old : index < items.length
    · rw [ring.holds index old, List.getElem_append_left old]
    · have last : index = items.length := by
        simp only [List.length_append, List.length_singleton] at inside
        omega
      subst last
      rw [← ring.headEq, filled, List.getElem_concat_length rfl]

theorem Represents.pop (ring : Represents capacity slots head tail (item :: items)) :
    Represents capacity slots head (tail + 1) items where
  bounded := Nat.le_of_succ_le ring.bounded
  headEq := by
    rw [ring.headEq, List.length_cons, Nat.add_comm, UInt32.ofNat_add, UInt32.add_assoc]
    rfl
  holds := by
    intro index inside
    have next := ring.holds (index + 1) (Nat.succ_lt_succ inside)
    have shifted : tail + 1 + UInt32.ofNat index = tail + UInt32.ofNat (index + 1) := by
      rw [Nat.add_comm, UInt32.ofNat_add, ← UInt32.add_assoc]
      rfl
    rw [shifted, next, List.getElem_cons_succ]

/-- Moving the tail up to the head discards every unread item. -/
theorem Represents.discard (slots : Nat → α) (head : UInt32) :
    Represents capacity slots head head [] :=
  Represents.empty slots head

/-- A capacity test against a tail that was read `popped` items ago is safe:
the ring has at least as much room now as it had then. -/
theorem Represents.room_of_stale {seen : UInt32} {popped : Nat}
    (ring : Represents capacity slots head tail items)
    (moved : tail = seen + UInt32.ofNat popped)
    (window : popped + items.length ≤ capacity.value.toNat)
    (room : head - seen < capacity.value) : items.length < capacity.value.toNat := by
  have small : popped + items.length < 2 ^ 32 :=
    Nat.lt_of_le_of_lt window capacity.value.toNat_lt
  have difference : head - seen = UInt32.ofNat (popped + items.length) := by
    rw [ring.headEq, moved, UInt32.add_assoc, ← UInt32.ofNat_add, UInt32.add_comm,
      UInt32.add_sub_cancel]
  rw [difference, UInt32.lt_iff_toNat_lt, UInt32.toNat_ofNat_of_lt' small] at room
  omega

end Ring

end Paulastorm.Library
