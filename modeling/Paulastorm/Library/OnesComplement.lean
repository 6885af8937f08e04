import Mathlib.Algebra.BigOperators.Group.List.Basic
import Mathlib.Data.Nat.ModEq

namespace Paulastorm.Library.OnesComplement

/-! Sums with an end-around carry.

Words of `width` bits are added as in ones' complement arithmetic: the carry out of the top
bit is added at the bottom.  Zero has two representations, so a sum is determined by its
residue modulo `2 ^ width - 1` together with whether every term is zero.
-/

variable {width : Nat}

/-- Add two words and the carry. -/
def add (width first second : Nat) : Nat :=
  (first + second) % 2 ^ width + (first + second) / 2 ^ width

/-- The sum of a list of words. -/
def sum (width : Nat) (words : List Nat) : Nat := words.foldl (add width) 0

/-- The word of ones: the other zero. -/
abbrev ones (width : Nat) : Nat := 2 ^ width - 1

theorem ones_succ (width : Nat) : ones width + 1 = 2 ^ width :=
  Nat.sub_add_cancel (Nat.two_pow_pos width)

theorem add_le {first second : Nat} (firstWord : first ≤ ones width)
    (secondWord : second ≤ ones width) : add width first second ≤ ones width := by
  have power := ones_succ width
  have remainder := Nat.mod_lt (first + second) (Nat.two_pow_pos width)
  have parts := Nat.mod_add_div (first + second) (2 ^ width)
  have once : (first + second) / 2 ^ width ≤ 1 := by
    apply Nat.lt_succ_iff.mp
    apply Nat.div_lt_of_lt_mul
    omega
  rcases Nat.le_one_iff_eq_zero_or_eq_one.mp once with none | one
  · rw [add, none]
    omega
  · rw [one] at parts
    rw [add, one]
    omega

theorem add_modEq (first second : Nat) : add width first second ≡ first + second [MOD ones width] := by
  have parts := Nat.mod_add_div (first + second) (2 ^ width)
  have multiple : first + second =
      add width first second + ones width * ((first + second) / 2 ^ width) := by
    have power : 2 ^ width * ((first + second) / 2 ^ width) =
        ones width * ((first + second) / 2 ^ width) + (first + second) / 2 ^ width := by
      rw [← Nat.succ_mul, Nat.succ_eq_add_one, ones_succ]
    rw [add]
    omega
  rw [Nat.ModEq]
  conv_rhs => rw [multiple]
  rw [Nat.add_mul_mod_self_left]

theorem add_eq_zero_iff {first second : Nat} : add width first second = 0 ↔ first + second = 0 := by
  have parts := Nat.mod_add_div (first + second) (2 ^ width)
  rw [add]
  constructor
  · intro none
    obtain ⟨low, high⟩ := Nat.add_eq_zero_iff.mp none
    rw [low, high] at parts
    exact parts.symm
  · intro none
    rw [none, Nat.zero_mod, Nat.zero_div]

section Fold

variable {words : List Nat} {start : Nat}

theorem foldl_le (startWord : start ≤ ones width) (small : ∀ word ∈ words, word ≤ ones width) :
    words.foldl (add width) start ≤ ones width := by
  induction words generalizing start with
  | nil => exact startWord
  | cons word rest ih =>
      apply ih
      · exact add_le startWord (small word List.mem_cons_self)
      · exact fun other member => small other (List.mem_cons_of_mem word member)

theorem foldl_modEq : words.foldl (add width) start ≡ start + words.sum [MOD ones width] := by
  induction words generalizing start with
  | nil => exact Nat.ModEq.rfl
  | cons word rest ih =>
      rw [List.foldl_cons, List.sum_cons, ← add_assoc]
      exact ih.trans (Nat.ModEq.add_right _ (add_modEq start word))

theorem foldl_eq_zero_iff : words.foldl (add width) start = 0 ↔ start + words.sum = 0 := by
  induction words generalizing start with
  | nil => exact Iff.rfl
  | cons word rest ih =>
      rw [List.foldl_cons, ih, List.sum_cons, ← add_assoc]
      simp only [Nat.add_eq_zero_iff, add_eq_zero_iff]

end Fold

theorem sum_le {words : List Nat} (small : ∀ word ∈ words, word ≤ ones width) :
    sum width words ≤ ones width :=
  foldl_le (Nat.zero_le _) small

theorem sum_modEq (words : List Nat) : sum width words ≡ words.sum [MOD ones width] := by
  have folded : sum width words ≡ 0 + words.sum [MOD ones width] := foldl_modEq
  rwa [Nat.zero_add] at folded

theorem sum_eq_zero_iff {words : List Nat} : sum width words = 0 ↔ words.sum = 0 := by
  rw [sum, foldl_eq_zero_iff, Nat.zero_add]

/-- The complement of a sum, put where the sum had a zero, makes all ones. -/
theorem sum_complement (positive : 0 < width) {first rest : List Nat}
    (firstWords : ∀ word ∈ first, word ≤ ones width)
    (restWords : ∀ word ∈ rest, word ≤ ones width) :
    sum width (first ++ (ones width - sum width (first ++ 0 :: rest)) :: rest) = ones width := by
  have some : 0 < ones width := Nat.sub_pos_of_lt (Nat.one_lt_two_pow (Nat.pos_iff_ne_zero.mp positive))
  have bounded : sum width (first ++ 0 :: rest) ≤ ones width := by
    apply sum_le
    intro word member
    rcases List.mem_append.mp member with inFirst | inRest
    · exact firstWords word inFirst
    · rcases List.mem_cons.mp inRest with zero | inRest
      · rw [zero]
        exact Nat.zero_le _
      · exact restWords word inRest
  generalize before : sum width (first ++ 0 :: rest) = checksum at bounded ⊢
  have residue := @sum_modEq width (first ++ 0 :: rest)
  rw [before, List.sum_append, List.sum_cons, Nat.zero_add] at residue
  have whole := @sum_modEq width (first ++ (ones width - checksum) :: rest)
  have multiple : sum width (first ++ (ones width - checksum) :: rest) ≡ 0 [MOD ones width] := by
    refine whole.trans ?_
    rw [List.sum_append, List.sum_cons, Nat.add_left_comm]
    refine (Nat.ModEq.add_left (ones width - checksum) residue.symm).trans ?_
    rw [Nat.sub_add_cancel bounded]
    exact Nat.mod_self _
  have total : sum width (first ++ (ones width - checksum) :: rest) ≤ ones width := by
    apply sum_le
    intro word member
    rcases List.mem_append.mp member with inFirst | inRest
    · exact firstWords word inFirst
    · rcases List.mem_cons.mp inRest with slot | inRest
      · rw [slot]
        exact Nat.sub_le _ _
      · exact restWords word inRest
  have nonzero : sum width (first ++ (ones width - checksum) :: rest) ≠ 0 := by
    intro none
    rw [sum_eq_zero_iff, List.sum_append, List.sum_cons] at none
    have others : (first ++ 0 :: rest).sum = 0 := by
      rw [List.sum_append, List.sum_cons]
      omega
    rw [← @sum_eq_zero_iff width, before] at others
    omega
  obtain ⟨count, exact⟩ := (Nat.modEq_zero_iff_dvd.mp multiple)
  rcases Nat.lt_trichotomy count 1 with less | one | more
  · have none : count = 0 := by omega
    rw [none, Nat.mul_zero] at exact
    exact absurd exact nonzero
  · rw [exact, one, Nat.mul_one]
  · have beyond : ones width * 2 ≤ ones width * count := Nat.mul_le_mul_left _ more
    omega

end Paulastorm.Library.OnesComplement
