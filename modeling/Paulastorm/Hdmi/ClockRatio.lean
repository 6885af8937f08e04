import Paulastorm.Library.Approximation
import Mathlib.Data.UInt
import Mathlib.Tactic.SplitIfs

namespace Paulastorm.Hdmi

/-! The MAI clock ratio of the HDMI output (`choose_mai_ratio` in `hdmi_audio_poc.c`). -/

open Library Approximation

/-- The variables of the search. -/
structure Choice where
  bestError : UInt64
  chosenN : UInt32
  chosenM : UInt32
deriving Repr, DecidableEq

section Search

variable (clockRate sampleRate : UInt32)

/-- `n64`: the rounded numerator for `m`. -/
def roundedN (m : UInt32) : UInt64 :=
  (clockRate.toUInt64 * m.toUInt64 + (sampleRate / 2).toUInt64) / sampleRate.toUInt64

/-- `err`: the distance of `lhs` and `rhs`. -/
def errorOf (n64 : UInt64) (m : UInt32) : UInt64 :=
  let lhs := n64 * sampleRate.toUInt64
  let rhs := clockRate.toUInt64 * m.toUInt64
  if lhs > rhs then lhs - rhs else rhs - lhs

/-- The 24-bit field takes the numerator. -/
def admissible (n64 : UInt64) : Bool := n64 != 0 && decide (n64 ≤ 0x00ffffff)

/-- `err` over `m` is below the best so far, without a division. -/
def improves (choice : Choice) (err : UInt64) (m : UInt32) : Bool :=
  choice.chosenM == 0 || decide (err * choice.chosenM.toUInt64 < choice.bestError * m.toUInt64)

/-- The loop over the denominators. -/
def search : List UInt32 → Choice → Choice
  | [], choice => choice
  | m :: rest, choice =>
      let n64 := roundedN clockRate sampleRate m
      if !admissible n64 then search rest choice
      else
        let err := errorOf clockRate sampleRate n64 m
        if improves choice err m then
          let choice := ⟨err, n64.toUInt32, m⟩
          if err = 0 then choice else search rest choice
        else search rest choice

/-- `1 .. 256`. -/
def denominators : List UInt32 := (List.range' 1 256).map UInt32.ofNat

/-- `choose_mai_ratio`: the pair stored through the pointers, if it returns 1. -/
def chooseMaiRatio : Option (UInt32 × UInt32) :=
  let choice := search clockRate sampleRate denominators ⟨~~~0, 0, 0⟩
  if choice.chosenM = 0 then none else some (choice.chosenN, choice.chosenM)

/-- The turns of the loop that are reached, with the choice before each. -/
def turns : List UInt32 → Choice → List (UInt32 × Choice)
  | [], _ => []
  | m :: rest, choice =>
      let n64 := roundedN clockRate sampleRate m
      (m, choice) ::
        if !admissible n64 then turns rest choice
        else
          let err := errorOf clockRate sampleRate n64 m
          if improves choice err m then
            let choice := ⟨err, n64.toUInt32, m⟩
            if err = 0 then [] else turns rest choice
          else turns rest choice

end Search

/-- `HD_MAI_SMP`: `(n << 8) | (m - 1)`. -/
def packRatio (n m : UInt32) : UInt32 := (n <<< 8) ||| (m - 1)

/-- The largest numerator that fits the field. -/
abbrev numeratorLimit : Nat := 2 ^ 24 - 1

section Arithmetic

variable {clockRate sampleRate m : UInt32}

theorem product_toNat (first second : UInt32) :
    (first.toUInt64 * second.toUInt64).toNat = first.toNat * second.toNat := by
  have bound : first.toNat * second.toNat < 2 ^ 32 * 2 ^ 32 :=
    Nat.mul_lt_mul'' first.toNat_lt second.toNat_lt
  rw [UInt64.toNat_mul, UInt32.toNat_toUInt64, UInt32.toNat_toUInt64]
  exact Nat.mod_eq_of_lt bound

theorem dividend_lt (small : m.toNat ≤ 256) :
    clockRate.toNat * m.toNat + sampleRate.toNat / 2 < 2 ^ 64 := by
  have clock := clockRate.toNat_lt
  have sample := sampleRate.toNat_lt
  have product : clockRate.toNat * m.toNat ≤ 2 ^ 32 * 256 := Nat.mul_le_mul clock.le small
  omega

theorem roundedN_toNat (small : m.toNat ≤ 256) :
    (roundedN clockRate sampleRate m).toNat =
      rounded clockRate.toNat sampleRate.toNat m.toNat := by
  have half : (sampleRate / 2).toUInt64.toNat = sampleRate.toNat / 2 := by
    rw [UInt32.toNat_toUInt64, UInt32.toNat_div]
    rfl
  rw [roundedN, UInt64.toNat_div, UInt64.toNat_add, product_toNat, half, UInt32.toNat_toUInt64,
    Nat.mod_eq_of_lt (dividend_lt small)]
  rfl

theorem admissible_iff (small : m.toNat ≤ 256) :
    admissible (roundedN clockRate sampleRate m) = true ↔
      InRange clockRate.toNat sampleRate.toNat numeratorLimit m.toNat := by
  rw [InRange, ← roundedN_toNat small]
  simp only [admissible, Bool.and_eq_true, bne_iff_ne, decide_eq_true_eq, UInt64.le_iff_toNat_le,
    ne_eq, ← UInt64.toNat_inj, Nat.pos_iff_ne_zero]
  exact Iff.rfl

theorem errorOf_toNat (small : m.toNat ≤ 256)
    (inRange : InRange clockRate.toNat sampleRate.toNat numeratorLimit m.toNat) :
    (roundedN clockRate sampleRate m).toNat * sampleRate.toNat < 2 ^ 64 ∧
      (errorOf clockRate sampleRate (roundedN clockRate sampleRate m) m).toNat =
        error clockRate.toNat sampleRate.toNat
          (rounded clockRate.toNat sampleRate.toNat m.toNat) m.toNat := by
  have numerator : (roundedN clockRate sampleRate m).toNat ≤ numeratorLimit := by
    rw [roundedN_toNat small]
    exact inRange.2
  have bound : (roundedN clockRate sampleRate m).toNat * sampleRate.toNat < 2 ^ 64 := by
    have product := Nat.mul_le_mul numerator sampleRate.toNat_lt.le
    have limit : numeratorLimit * 2 ^ 32 < 2 ^ 64 := by decide
    omega
  have lhs : (roundedN clockRate sampleRate m * sampleRate.toUInt64).toNat =
      rounded clockRate.toNat sampleRate.toNat m.toNat * sampleRate.toNat := by
    rw [UInt64.toNat_mul, UInt32.toNat_toUInt64, Nat.mod_eq_of_lt bound, roundedN_toNat small]
  refine ⟨bound, ?_⟩
  simp only [errorOf, error, gap, gt_iff_lt, UInt64.lt_iff_toNat_lt, lhs, product_toNat]
  split
  next above =>
    rw [UInt64.toNat_sub_of_le _ _ (UInt64.le_iff_toNat_le.mpr (by rw [lhs, product_toNat]; omega)),
      lhs, product_toNat]
    omega
  next below =>
    rw [UInt64.toNat_sub_of_le _ _ (UInt64.le_iff_toNat_le.mpr (by rw [lhs, product_toNat]; omega)),
      lhs, product_toNat]
    omega

end Arithmetic

/-- Every intermediate value of a turn fits in 64 bits. -/
structure NoOverflow (clockRate sampleRate : UInt32) (turn : UInt32 × Choice) : Prop where
  dividend : clockRate.toNat * turn.1.toNat + sampleRate.toNat / 2 < 2 ^ 64
  lhs : admissible (roundedN clockRate sampleRate turn.1) = true →
    (roundedN clockRate sampleRate turn.1).toNat * sampleRate.toNat < 2 ^ 64
  err : admissible (roundedN clockRate sampleRate turn.1) = true →
    (errorOf clockRate sampleRate (roundedN clockRate sampleRate turn.1) turn.1).toNat *
      turn.2.chosenM.toNat < 2 ^ 64
  best : turn.2.chosenM ≠ 0 → turn.2.bestError.toNat * turn.1.toNat < 2 ^ 64

/-- The choice is the rounded fraction of its denominator, and the best of those seen. -/
structure Chosen (clockRate sampleRate : UInt32) (seen : UInt32 → Prop) (choice : Choice) : Prop where
  denominator : 0 < choice.chosenM.toNat ∧ choice.chosenM.toNat ≤ 256
  inRange : InRange clockRate.toNat sampleRate.toNat numeratorLimit choice.chosenM.toNat
  numerator : choice.chosenN.toNat =
    rounded clockRate.toNat sampleRate.toNat choice.chosenM.toNat
  bestError : choice.bestError.toNat = error clockRate.toNat sampleRate.toNat
    (rounded clockRate.toNat sampleRate.toNat choice.chosenM.toNat) choice.chosenM.toNat
  best : ∀ m, seen m → InRange clockRate.toNat sampleRate.toNat numeratorLimit m.toNat →
    AtMost choice.bestError.toNat choice.chosenM.toNat
      (error clockRate.toNat sampleRate.toNat
        (rounded clockRate.toNat sampleRate.toNat m.toNat) m.toNat) m.toNat

/-- What the loop keeps. -/
def Searched (clockRate sampleRate : UInt32) (seen : UInt32 → Prop) (choice : Choice) : Prop :=
  choice.chosenM = 0 ∧
      (∀ m, seen m → ¬ InRange clockRate.toNat sampleRate.toNat numeratorLimit m.toNat) ∨
    Chosen clockRate sampleRate seen choice

section Loop

variable {clockRate sampleRate : UInt32} {seen : UInt32 → Prop} {choice : Choice}

theorem bestError_lt (positive : 0 < sampleRate.toNat)
    (chosen : Chosen clockRate sampleRate seen choice) : choice.bestError.toNat < 2 ^ 31 := by
  have half := error_rounded_le clockRate.toNat positive choice.chosenM.toNat
  have sample := sampleRate.toNat_lt
  rw [chosen.bestError]
  omega

/-- An error that is compared fits, and so do the products. -/
theorem Searched.noOverflow (positive : 0 < sampleRate.toNat)
    (searched : Searched clockRate sampleRate seen choice) {m : UInt32} (small : m.toNat ≤ 256) :
    NoOverflow clockRate sampleRate (m, choice) where
  dividend := dividend_lt small
  lhs fits := (errorOf_toNat small ((admissible_iff small).mp fits)).1
  err fits := by
    have half := error_rounded_le clockRate.toNat positive m.toNat
    have sample := sampleRate.toNat_lt
    have denominator : choice.chosenM.toNat ≤ 256 := by
      rcases searched with ⟨none, -⟩ | chosen
      · rw [none]
        decide
      · exact chosen.denominator.2
    dsimp only
    rw [(errorOf_toNat small ((admissible_iff small).mp fits)).2]
    have product := Nat.mul_le_mul half denominator
    omega
  best some := by
    rcases searched with ⟨none, -⟩ | chosen
    · exact absurd none some
    · have product := Nat.mul_le_mul (bestError_lt positive chosen).le small
      dsimp only
      omega

/-- A denominator out of range changes nothing. -/
theorem Searched.skip (searched : Searched clockRate sampleRate seen choice) {m : UInt32}
    (outside : ¬ InRange clockRate.toNat sampleRate.toNat numeratorLimit m.toNat) :
    Searched clockRate sampleRate (fun other => seen other ∨ other = m) choice := by
  rcases searched with ⟨none, all⟩ | chosen
  · refine .inl ⟨none, ?_⟩
    rintro other (earlier | rfl)
    · exact all other earlier
    · exact outside
  · refine .inr ⟨chosen.denominator, chosen.inRange, chosen.numerator, chosen.bestError, ?_⟩
    rintro other (earlier | rfl) inRange
    · exact chosen.best other earlier inRange
    · exact absurd inRange outside

section Turn

variable {m : UInt32} (positive : 0 < sampleRate.toNat) (bounds : 0 < m.toNat ∧ m.toNat ≤ 256)
  (inRange : InRange clockRate.toNat sampleRate.toNat numeratorLimit m.toNat)

include positive bounds inRange

/-- The comparison without a division is the comparison of the fractions. -/
theorem improves_iff (searched : Searched clockRate sampleRate seen choice) :
    improves choice (errorOf clockRate sampleRate (roundedN clockRate sampleRate m) m) m = true ↔
      choice.chosenM = 0 ∨
        ¬ AtMost choice.bestError.toNat choice.chosenM.toNat
          (error clockRate.toNat sampleRate.toNat
            (rounded clockRate.toNat sampleRate.toNat m.toNat) m.toNat) m.toNat := by
  have fits := searched.noOverflow positive bounds.2
  have err := fits.err ((admissible_iff bounds.2).mpr inRange)
  have value := (errorOf_toNat bounds.2 inRange).2
  simp only [improves, Bool.or_eq_true, beq_iff_eq, decide_eq_true_eq, AtMost, Nat.not_le]
  by_cases none : choice.chosenM = 0
  · simp only [none, true_or]
  · simp only [none, false_or]
    rw [UInt64.lt_iff_toNat_lt, UInt64.toNat_mul, UInt64.toNat_mul, UInt32.toNat_toUInt64,
      UInt32.toNat_toUInt64, Nat.mod_eq_of_lt err, Nat.mod_eq_of_lt (fits.best none), value]

/-- A better fraction is taken. -/
theorem Searched.take (searched : Searched clockRate sampleRate seen choice)
    (better : improves choice
      (errorOf clockRate sampleRate (roundedN clockRate sampleRate m) m) m = true) :
    Chosen clockRate sampleRate (fun other => seen other ∨ other = m)
      ⟨errorOf clockRate sampleRate (roundedN clockRate sampleRate m) m,
        (roundedN clockRate sampleRate m).toUInt32, m⟩ := by
  have value := (errorOf_toNat bounds.2 inRange).2
  have improved := (improves_iff positive bounds inRange searched).mp better
  refine ⟨bounds, inRange, ?_, value, ?_⟩
  · have limit : numeratorLimit < 2 ^ 32 := by decide
    rw [UInt64.toNat_toUInt32, roundedN_toNat bounds.2]
    exact Nat.mod_eq_of_lt (inRange.2.trans_lt limit)
  · rintro other (earlier | rfl) otherRange
    · dsimp only
      rw [value]
      rcases searched with ⟨none, all⟩ | chosen
      · exact absurd otherRange (all other earlier)
      · rcases improved with none | worse
        · have denominator := chosen.denominator.1
          rw [none] at denominator
          exact absurd denominator (by decide)
        · have closer := Nat.le_of_not_le worse
          exact AtMost.trans chosen.denominator.1 closer (chosen.best other earlier otherRange)
    · dsimp only
      rw [value]
      exact AtMost.refl _ _

/-- A fraction that is no better is left. -/
theorem Searched.leave (searched : Searched clockRate sampleRate seen choice)
    (worse : improves choice
      (errorOf clockRate sampleRate (roundedN clockRate sampleRate m) m) m = false) :
    Searched clockRate sampleRate (fun other => seen other ∨ other = m) choice := by
  have kept := mt (improves_iff positive bounds inRange searched).mpr (by rw [worse]; decide)
  rw [not_or, not_not] at kept
  rcases searched with ⟨none, -⟩ | chosen
  · exact absurd none kept.1
  · refine .inr ⟨chosen.denominator, chosen.inRange, chosen.numerator, chosen.bestError, ?_⟩
    rintro other (earlier | rfl) otherRange
    · exact chosen.best other earlier otherRange
    · exact kept.2

end Turn

/-- The loop over the remaining denominators. -/
theorem search_best (positive : 0 < sampleRate.toNat) (ms : List UInt32)
    (bounds : ∀ m ∈ ms, 0 < m.toNat ∧ m.toNat ≤ 256)
    (searched : Searched clockRate sampleRate seen choice) :
    Searched clockRate sampleRate (fun m => seen m ∨ m ∈ ms) (search clockRate sampleRate ms choice) ∧
      ∀ turn ∈ turns clockRate sampleRate ms choice, NoOverflow clockRate sampleRate turn := by
  induction ms generalizing seen choice with
  | nil => simpa [search, turns] using searched
  | cons m rest ih =>
      have here := bounds m List.mem_cons_self
      have later : ∀ m ∈ rest, 0 < m.toNat ∧ m.toNat ≤ 256 :=
        fun other member => bounds other (List.mem_cons_of_mem m member)
      have fits := searched.noOverflow positive here.2
      have split : (fun other => seen other ∨ other ∈ m :: rest) =
          fun other => (seen other ∨ other = m) ∨ other ∈ rest := by
        funext other
        rw [List.mem_cons, or_assoc]
      rw [split]
      simp only [search, turns, List.mem_cons]
      cases fitsField : admissible (roundedN clockRate sampleRate m) with
      | false =>
          have outside := mt (admissible_iff here.2).mpr (by rw [fitsField]; decide)
          obtain ⟨best, exact⟩ := ih later (searched.skip outside)
          refine ⟨best, ?_⟩
          rintro turn (rfl | member)
          · exact fits
          · exact exact turn member
      | true =>
          have inRange := (admissible_iff here.2).mp fitsField
          cases better : improves choice
              (errorOf clockRate sampleRate (roundedN clockRate sampleRate m) m) m with
          | false =>
              obtain ⟨best, exact⟩ := ih later (searched.leave positive here inRange better)
              refine ⟨best, ?_⟩
              rintro turn (rfl | member)
              · exact fits
              · exact exact turn member
          | true =>
              have taken := searched.take positive here inRange better
              simp only [Bool.not_true, Bool.false_eq_true, if_false, if_true]
              split
              next zero =>
                constructor
                · refine .inr ⟨taken.denominator, taken.inRange, taken.numerator, taken.bestError, ?_⟩
                  intro other _ _
                  dsimp only
                  rw [zero]
                  exact (Nat.zero_mul _).le.trans (Nat.zero_le _)
                · rintro turn (rfl | member)
                  · exact fits
                  · cases member
              next =>
                obtain ⟨best, exact⟩ := ih later (.inr taken)
                refine ⟨best, ?_⟩
                rintro turn (rfl | member)
                · exact fits
                · exact exact turn member

end Loop

theorem mem_denominators {m : UInt32} : m ∈ denominators ↔ 0 < m.toNat ∧ m.toNat ≤ 256 := by
  have size : UInt32.size = 2 ^ 32 := rfl
  rw [denominators, List.mem_map]
  constructor
  · rintro ⟨k, member, rfl⟩
    obtain ⟨lower, upper⟩ := List.mem_range'_1.mp member
    rw [UInt32.toNat_ofNat_of_lt' (by omega)]
    omega
  · rintro ⟨lower, upper⟩
    exact ⟨m.toNat, List.mem_range'_1.mpr (by omega), UInt32.ofNat_toNat⟩

theorem gap_cast (first second : Nat) : (gap first second : ℤ) = |(first : ℤ) - second| := by
  rcases Nat.le_total first second with le | le
  · rw [gap, Nat.sub_eq_zero_of_le le, abs_of_nonpos (by omega)]
    omega
  · rw [gap, Nat.sub_eq_zero_of_le le, abs_of_nonneg (by omega)]
    omega

theorem packRatio_toNat {n m : UInt32} (numerator : n.toNat ≤ numeratorLimit)
    (denominator : 0 < m.toNat ∧ m.toNat ≤ 256) :
    (packRatio n m).toNat = n.toNat * 2 ^ 8 + (m.toNat - 1) := by
  have low : (m - 1).toNat = m.toNat - 1 :=
    UInt32.toNat_sub_of_le m 1 (UInt32.le_iff_toNat_le.mpr denominator.1)
  have high : n.toNat * 2 ^ 8 < 2 ^ 32 := by
    have product := Nat.mul_le_mul_right (2 ^ 8) numerator
    have limit : numeratorLimit * 2 ^ 8 < 2 ^ 32 := by decide
    exact product.trans_lt limit
  have shift : (8 : UInt32).toNat % 32 = 8 := rfl
  rw [packRatio, UInt32.toNat_or, UInt32.toNat_shiftLeft, low, shift, Nat.shiftLeft_eq,
    Nat.mod_eq_of_lt high, Nat.mul_comm]
  exact (Nat.two_pow_add_eq_or_of_lt (by omega) n.toNat).symm

/-- The ratio is the best of all that fit the register, none of the arithmetic wraps, and
the register word shows both parts. -/
theorem mai_ratio_best (clockRate sampleRate : UInt32) (positive : sampleRate ≠ 0) :
    (∀ turn ∈ turns clockRate sampleRate denominators ⟨~~~0, 0, 0⟩,
      NoOverflow clockRate sampleRate turn) ∧
    (match chooseMaiRatio clockRate sampleRate with
      | some (n, m) =>
          (1 ≤ n.toNat ∧ n.toNat ≤ 2 ^ 24 - 1) ∧ (1 ≤ m.toNat ∧ m.toNat ≤ 256) ∧
            ∀ n' m' : Nat, 1 ≤ n' → n' ≤ 2 ^ 24 - 1 → 1 ≤ m' → m' ≤ 256 →
              |(n.toNat * sampleRate.toNat : ℤ) - clockRate.toNat * m.toNat| * m' ≤
                |(n' * sampleRate.toNat : ℤ) - clockRate.toNat * m'| * m.toNat
      | none =>
          ∀ m : Nat, 1 ≤ m → m ≤ 256 →
            (clockRate.toNat * m + sampleRate.toNat / 2) / sampleRate.toNat = 0 ∨
              2 ^ 24 - 1 < (clockRate.toNat * m + sampleRate.toNat / 2) / sampleRate.toNat) ∧
    ∀ n m n' m' : UInt32, n.toNat ≤ 2 ^ 24 - 1 → 1 ≤ m.toNat ∧ m.toNat ≤ 256 →
      n'.toNat ≤ 2 ^ 24 - 1 → 1 ≤ m'.toNat ∧ m'.toNat ≤ 256 →
      packRatio n m = packRatio n' m' → n = n' ∧ m = m' := by
  have rate : 0 < sampleRate.toNat := by
    apply Nat.pos_of_ne_zero
    intro zero
    exact positive (UInt32.toNat_inj.mp zero)
  have fresh : Searched clockRate sampleRate (fun _ => False) ⟨~~~0, 0, 0⟩ :=
    .inl ⟨rfl, fun _ absurdity => absurdity.elim⟩
  obtain ⟨searched, exact⟩ := search_best rate denominators
    (fun m member => mem_denominators.mp member) fresh
  refine ⟨exact, ?_, ?_⟩
  · rw [chooseMaiRatio]
    generalize search clockRate sampleRate denominators ⟨~~~0, 0, 0⟩ = choice at searched ⊢
    have size : UInt32.size = 2 ^ 32 := rfl
    rcases searched with ⟨none, outside⟩ | chosen
    · rw [if_pos none]
      intro m lower upper
      have word : (UInt32.ofNat m).toNat = m := UInt32.toNat_ofNat_of_lt' (by omega)
      have out := outside (UInt32.ofNat m) (.inr (mem_denominators.mpr (by omega)))
      rw [InRange, rounded, word, not_and_or] at out
      rcases out with zero | above
      · exact .inl (Nat.eq_zero_of_not_pos zero)
      · exact .inr (Nat.lt_of_not_le above)
    · have nonzero : choice.chosenM ≠ 0 := by
        intro none
        have denominator := chosen.denominator.1
        rw [none] at denominator
        exact absurd denominator (by decide)
      rw [if_neg nonzero]
      have numerator := chosen.numerator
      refine ⟨?_, chosen.denominator, ?_⟩
      · rw [numerator]
        exact chosen.inRange
      · intro n' m' lower upper denominator bounded
        obtain ⟨best, bestPositive, bestBound, bestRange, better⟩ :=
          matched_by_rounded rate chosen.denominator.1 chosen.inRange n' m' lower upper denominator
        have small : best ≤ 256 := bestBound.trans (max_le bounded chosen.denominator.2)
        have word : (UInt32.ofNat best).toNat = best := UInt32.toNat_ofNat_of_lt' (by omega)
        have first := chosen.best (UInt32.ofNat best) (.inr (mem_denominators.mpr (by omega)))
          (by rwa [word])
        rw [word] at first
        have whole := first.trans bestPositive better
        rw [chosen.bestError, ← numerator] at whole
        unfold AtMost error at whole
        have cast : ((gap (choice.chosenN.toNat * sampleRate.toNat)
            (clockRate.toNat * choice.chosenM.toNat) * m' : Nat) : ℤ) ≤
            (gap (n' * sampleRate.toNat) (clockRate.toNat * m') * choice.chosenM.toNat : Nat) := by
          exact_mod_cast whole
        push_cast [gap_cast] at cast
        exact cast
  · intro n m n' m' numerator denominator numerator' denominator' same
    have word := congrArg UInt32.toNat same
    rw [packRatio_toNat numerator denominator, packRatio_toNat numerator' denominator'] at word
    constructor
    · apply UInt32.toNat_inj.mp
      omega
    · apply UInt32.toNat_inj.mp
      omega

/-- 48 kHz from a clock of 163.682864 MHz. -/
theorem mai_ratio_best_of_hsm :
    chooseMaiRatio 163682864 48000 = some (743393, 218) ∧
      ∀ turn ∈ turns 163682864 48000 denominators ⟨~~~0, 0, 0⟩,
        NoOverflow 163682864 48000 turn := by
  constructor
  · decide +kernel
  · exact (mai_ratio_best 163682864 48000 (by decide)).1

end Paulastorm.Hdmi
