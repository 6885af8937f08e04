import Mathlib.Data.UInt

namespace Paulastorm.Library.Decode

/-! Chains of tests on the bits of an opcode.

A test asks whether the bits under a mask read a pattern, and the first test that
succeeds decides.  An encoding is a test too, so what a chain makes of all its opcodes
can be settled from its mask and pattern alone.
-/

structure Test (Branch : Type u) where
  mask : UInt32
  pattern : UInt32
  branch : Branch

variable {Branch : Type u} {opcode mask pattern other bits : UInt32}

def firstMatch (opcode : UInt32) : List (Test Branch) → Option Branch
  | [] => none
  | test :: rest =>
      if opcode &&& test.mask = test.pattern then some test.branch else firstMatch opcode rest

/-- The branch that every opcode of an encoding takes, if its bits decide each test up to there. -/
def settle (mask pattern : UInt32) : List (Test Branch) → Option Branch
  | [] => none
  | test :: rest =>
      if mask &&& test.mask = test.mask ∧ pattern &&& test.mask = test.pattern then
        some test.branch
      else if pattern &&& test.mask ≠ test.pattern &&& mask then settle mask pattern rest
      else none

theorem sub_mask (known : opcode &&& mask = pattern) (within : mask &&& other = other)
    (sub : pattern &&& other = bits) : opcode &&& other = bits := by
  rw [← sub, ← known, UInt32.and_assoc, within]

/-- Two patterns that differ on a bit both masks show exclude each other. -/
theorem conflict (known : opcode &&& mask = pattern) (differ : pattern &&& other ≠ bits &&& mask) :
    ¬ opcode &&& other = bits := by
  intro hit
  apply differ
  rw [← known, ← hit, UInt32.and_assoc, UInt32.and_assoc, UInt32.and_comm mask]

/-- Whether an encoding contradicts every test of a list of masks and patterns. -/
def conflicts (mask pattern : UInt32) (tests : List (UInt32 × UInt32)) : Bool :=
  tests.all fun test => pattern &&& test.1 != test.2 &&& mask

theorem not_hit_of_conflicts {tests : List (UInt32 × UInt32)} (known : opcode &&& mask = pattern)
    (differ : conflicts mask pattern tests = true) : ∀ test ∈ tests, ¬ opcode &&& test.1 = test.2 := by
  intro test member
  rw [conflicts, List.all_eq_true] at differ
  exact conflict known (bne_iff_ne.mp (differ test member))

theorem firstMatch_of_settle {tests : List (Test Branch)} {branch : Branch}
    (known : opcode &&& mask = pattern) (settled : settle mask pattern tests = some branch) :
    firstMatch opcode tests = some branch := by
  induction tests with
  | nil => cases settled
  | cons test rest ih =>
      rw [settle] at settled
      rw [firstMatch]
      split at settled
      next here => rw [if_pos (sub_mask known here.1 here.2), ← settled]
      next =>
        split at settled
        next differ => rw [if_neg (conflict known differ), ih settled]
        next => cases settled

theorem firstMatch_mem {tests : List (Test Branch)} {branch : Branch}
    (found : firstMatch opcode tests = some branch) :
    ∃ test ∈ tests, opcode &&& test.mask = test.pattern ∧ test.branch = branch := by
  induction tests with
  | nil => cases found
  | cons test rest ih =>
      rw [firstMatch] at found
      split at found
      next here => exact ⟨test, List.mem_cons_self, here, Option.some.inj found⟩
      next =>
        obtain ⟨later, member, hit⟩ := ih found
        exact ⟨later, List.mem_cons_of_mem _ member, hit⟩

end Paulastorm.Library.Decode
