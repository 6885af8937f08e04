import Paulastorm.Library.Word

namespace Paulastorm.Mirror

/-! The state word of a cached page.

The low two bits are the state, the upper sixty-two the invalidation
generation.  Every transition of `paula_mirror.c` is one of the functions below,
applied by a compare-and-swap.
-/

/-- `page_meta[page] & 3`: missing, queued, loading or ready. -/
def tag (word : UInt64) : UInt64 := word &&& 3

abbrev missing : UInt64 := 0
abbrev queued : UInt64 := 1
abbrev loading : UInt64 := 2
abbrev ready : UInt64 := 3

/-- The invalidation generation. -/
def generation (word : UInt64) : Nat := word.toNat / 4

/-- A missing page is requested: `old | 1`. -/
def requested (word : UInt64) : UInt64 := word ||| 1

/-- A queued page starts loading: `(meta & ~3) | 2`. -/
def claimed (word : UInt64) : UInt64 := (word &&& ~~~3) ||| 2

/-- A loaded page becomes ready: `expected | 1`. -/
def published (word : UInt64) : UInt64 := word ||| 1

/-- A stale page is given up: `compare & ~3`. -/
def discarded (word : UInt64) : UInt64 := word &&& ~~~3

/-- A write advances the generation and takes a ready page away. -/
def invalidated (word : UInt64) : UInt64 :=
  ((word + 4) &&& ~~~3) ||| (if word &&& 3 = 3 then 0 else word &&& 3)

theorem tag_toNat (word : UInt64) : (tag word).toNat = word.toNat % 4 :=
  Library.Word.tag_toNat word

theorem tag_eq_iff {word value : UInt64} :
    tag word = value ↔ word.toNat % 4 = value.toNat := by
  rw [← UInt64.toNat_inj, tag_toNat]

/-- There are four states. -/
theorem tag_cases (word : UInt64) :
    tag word = missing ∨ tag word = queued ∨ tag word = loading ∨ tag word = ready := by
  have bounded := Nat.mod_lt word.toNat (show 0 < 4 by decide)
  rw [tag_eq_iff, tag_eq_iff, tag_eq_iff,
    tag_eq_iff]
  change word.toNat % 4 = 0 ∨ word.toNat % 4 = 1 ∨ word.toNat % 4 = 2 ∨ word.toNat % 4 = 3
  omega

/-- State and generation determine the word. -/
theorem word_ext {first second : UInt64} (sameTag : tag first = tag second)
    (sameGeneration : generation first = generation second) : first = second := by
  rw [← UInt64.toNat_inj, tag_toNat, tag_toNat] at sameTag
  rw [← UInt64.toNat_inj]
  simp only [generation] at sameGeneration
  omega

theorem tag_requested {word : UInt64} (clear : tag word = missing) :
    tag (requested word) = queued := by
  rw [tag_eq_iff]
  have value : (word ||| 1).toNat = word.toNat + 1 :=
    Library.Word.or_tag_toNat clear (by decide)
  have aligned := tag_eq_iff.mp clear
  change (word ||| 1).toNat % 4 = 1
  change word.toNat % 4 = 0 at aligned
  omega

theorem claimed_toNat (word : UInt64) : (claimed word).toNat = word.toNat / 4 * 4 + 2 :=
  Library.Word.set_tag_toNat (by decide)

@[simp] theorem tag_claimed (word : UInt64) : tag (claimed word) = loading := by
  rw [tag_eq_iff, claimed_toNat]
  change (word.toNat / 4 * 4 + 2) % 4 = 2
  omega

theorem tag_published {word : UInt64} (busy : tag word = loading) :
    tag (published word) = ready := by
  have low := tag_eq_iff.mp busy
  change word.toNat % 4 = 2 at low
  rw [tag_eq_iff, published, UInt64.toNat_or]
  change (word.toNat ||| 1) % 2 ^ 2 = 3
  rw [Nat.or_mod_two_pow]
  change (word.toNat % 4 ||| 1) = 3
  rw [low]
  rfl

@[simp] theorem tag_discarded (word : UInt64) : tag (discarded word) = missing := by
  rw [tag_eq_iff, discarded, Library.Word.clear_tag_toNat]
  change word.toNat / 4 * 4 % 4 = 0
  omega

theorem invalidated_toNat (word : UInt64) : (invalidated word).toNat =
    (word.toNat / 4 + 1) % 2 ^ 62 * 4 + if tag word = ready then 0 else word.toNat % 4 := by
  have kept : (if word &&& 3 = 3 then 0 else word &&& 3 : UInt64).toNat =
      if tag word = ready then 0 else word.toNat % 4 := by
    change (if tag word = ready then 0 else tag word : UInt64).toNat = _
    split
    · rfl
    · exact tag_toNat word
  have small : (if word &&& 3 = 3 then 0 else word &&& 3 : UInt64).toNat < 4 := by
    rw [kept]
    split
    · decide
    · exact Nat.mod_lt _ (by decide)
  rw [invalidated, Library.Word.set_tag_toNat small, kept, UInt64.toNat_add]
  have bounded := word.toNat_lt
  change (word.toNat + 4) % 2 ^ 64 / 4 * 4 + _ = _
  omega

/-- Invalidation takes a ready page away and keeps every other state. -/
theorem tag_invalidated (word : UInt64) :
    tag (invalidated word) = if tag word = ready then missing else tag word := by
  rw [← UInt64.toNat_inj, tag_toNat, invalidated_toNat]
  split
  · change _ = 0
    omega
  · rw [tag_toNat]
    omega

theorem tag_invalidated_eq_loading {word : UInt64} :
    tag (invalidated word) = loading ↔ tag word = loading := by
  rw [tag_invalidated]
  split
  next present =>
    rw [present]
    decide
  · exact Iff.rfl

theorem tag_invalidated_eq_queued {word : UInt64} :
    tag (invalidated word) = queued ↔ tag word = queued := by
  rw [tag_invalidated]
  split
  next present =>
    rw [present]
    decide
  · exact Iff.rfl

theorem tag_invalidated_ne_ready (word : UInt64) : tag (invalidated word) ≠ ready := by
  rw [tag_invalidated]
  split
  · decide
  next absent => exact absent

theorem generation_invalidated (word : UInt64) :
    generation (invalidated word) = (generation word + 1) % 2 ^ 62 := by
  rw [generation, invalidated_toNat, generation]
  split <;> omega

end Paulastorm.Mirror
