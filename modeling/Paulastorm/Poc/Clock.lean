import Mathlib.Data.UInt
import Paulastorm.Library.Carried

namespace Paulastorm.Poc

/-! The audio-frame clock of the replay loop (`paula_replay.h`). -/

open Library

/-- `paula_replay_clock`. -/
@[ext] structure ReplayClock where
  tick : UInt64
  remainder : UInt32
  frequency : UInt32
deriving DecidableEq

namespace ReplayClock

/-- `paula_replay_start`. -/
def start (now : UInt64) (frequency : UInt32) (latency : UInt64) : ReplayClock where
  tick := if latency < now then now - latency else 0
  remainder := 0
  frequency := frequency

/-- `paula_replay_advance`: one frame at 48 kHz. -/
def advance (clock : ReplayClock) : ReplayClock :=
  let tick := clock.tick + (clock.frequency / 48000).toUInt64
  let remainder := clock.remainder + clock.frequency % 48000
  if 48000 ≤ remainder then { clock with tick := tick + 1, remainder := remainder - 48000 }
  else { clock with tick := tick, remainder := remainder }

/-- `paula_replay_due`. -/
def due (now target : UInt64) : Bool := decide (0 ≤ (now - target).toInt64)

/-- `paula_replay_late`. -/
def late (clock : ReplayClock) (now latency limit : UInt64) : Bool :=
  decide ((latency + limit).toInt64 < (now - clock.tick).toInt64)

/-- The clock has counted the ticks of `carried` from `origin`. -/
structure Counts (origin : UInt64) (frequency : UInt32) (clock : ReplayClock)
    (carried : Carried 48000) : Prop where
  tick : clock.tick = origin + UInt64.ofNat carried.whole
  remainder : clock.remainder.toNat = carried.remainder
  frequency : clock.frequency = frequency

variable {origin now latency limit target : UInt64} {frequency : UInt32} {clock : ReplayClock}
  {carried : Carried 48000}

theorem start_counts (now latency : UInt64) (frequency : UInt32) :
    Counts (start now frequency latency).tick frequency (start now frequency latency)
      (.zero (by decide)) where
  tick := (UInt64.add_zero _).symm
  remainder := rfl
  frequency := rfl

/-- The remainder and what a frame adds to it fit into their word. -/
theorem Counts.remainder_fits (counts : Counts origin frequency clock carried) :
    clock.remainder.toNat + (frequency % 48000).toNat < 96000 := by
  have reduced := carried.reduced
  have rest : (frequency % 48000).toNat < 48000 := by
    rw [UInt32.toNat_mod]
    exact Nat.mod_lt _ (by decide)
  rw [counts.remainder]
  omega

theorem Counts.advance (counts : Counts origin frequency clock carried) :
    Counts origin frequency clock.advance (carried.add frequency.toNat) := by
  have fits := counts.remainder_fits
  have sum : (clock.remainder + clock.frequency % 48000).toNat =
      carried.remainder + frequency.toNat % 48000 := by
    rw [UInt32.toNat_add, Nat.mod_eq_of_lt, counts.frequency, UInt32.toNat_mod, counts.remainder]
    · rfl
    · rw [counts.frequency]
      omega
  have quotient : (clock.frequency / 48000).toUInt64 = UInt64.ofNat (frequency.toNat / 48000) := by
    rw [counts.frequency, ← UInt64.ofNat_uInt32ToNat, UInt32.toNat_div]
    rfl
  have carries : 48000 ≤ clock.remainder + clock.frequency % 48000 ↔
      48000 ≤ carried.remainder + frequency.toNat % 48000 := by
    rw [UInt32.le_iff_toNat_le, sum]
    rfl
  unfold ReplayClock.advance Carried.add
  split
  next carry =>
    rw [if_pos (carries.mpr carry)]
    refine ⟨?_, ?_, counts.frequency⟩
    · simp only [quotient, counts.tick, UInt64.ofNat_add, UInt64.add_assoc]
      rfl
    · rw [UInt32.toNat_sub_of_le _ _ (carries.mpr carry), sum]
      rfl
  next kept =>
    rw [if_neg (mt carries.mp kept)]
    refine ⟨?_, sum, counts.frequency⟩
    simp only [quotient, counts.tick, UInt64.ofNat_add, UInt64.add_assoc]

theorem advance_counts (counts : Counts origin frequency clock carried) (n : Nat) :
    Counts origin frequency (ReplayClock.advance^[n] clock)
      ((Carried.add frequency.toNat)^[n] carried) := by
  induction n with
  | zero => exact counts
  | succ n ih =>
      rw [Function.iterate_succ_apply', Function.iterate_succ_apply']
      exact ih.advance

theorem signed_eq (word : UInt64) : word.toInt64.toInt =
    if 2 * word.toNat < 2 ^ 64 then (word.toNat : Int) else (word.toNat : Int) - 2 ^ 64 :=
  BitVec.toInt_eq_toNat_cond word.toBitVec

/-- A target is due as long as the sign bit of the difference is clear. -/
theorem due_iff : due now target = true ↔ (now - target).toNat < 2 ^ 63 := by
  have bounded := (now - target).toNat_lt
  rw [due, decide_eq_true_iff, Int64.le_iff_toInt_le, signed_eq]
  simp only [Int64.toInt_zero]
  split <;> omega

theorem late_iff (below : latency.toNat + limit.toNat < 2 ^ 63) :
    late clock now latency limit = true ↔
      latency.toNat + limit.toNat < (now - clock.tick).toNat ∧
        (now - clock.tick).toNat < 2 ^ 63 := by
  have bounded := (now - clock.tick).toNat_lt
  have sum : (latency + limit).toNat = latency.toNat + limit.toNat := by
    rw [UInt64.toNat_add, Nat.mod_eq_of_lt (by omega)]
  rw [late, decide_eq_true_iff, Int64.lt_iff_toInt_lt, signed_eq, signed_eq, sum, if_pos (by omega)]
  split <;> omega

theorem start_tick : (start now frequency latency).tick =
    if latency < now then now - latency else 0 := rfl

/-- A clock is started `latency` ticks back, or as far as the counter goes. -/
theorem start_elapsed : (now - (start now frequency latency).tick).toNat =
    min now.toNat latency.toNat := by
  rw [start_tick]
  split
  next before =>
    have less := UInt64.lt_iff_toNat_lt.mp before
    have back : (now - latency).toNat = now.toNat - latency.toNat :=
      UInt64.toNat_sub_of_le _ _ (UInt64.le_of_lt before)
    rw [UInt64.toNat_sub_of_le _ _ (by rw [UInt64.le_iff_toNat_le]; omega), back]
    omega
  next after =>
    have more := UInt64.le_iff_toNat_le.mp (UInt64.not_lt.mp after)
    rw [UInt64.sub_zero]
    omega

theorem start_not_late (below : latency.toNat + limit.toNat < 2 ^ 63) :
    late (start now frequency latency) now latency limit = false := by
  rw [← Bool.not_eq_true, late_iff below, start_elapsed]
  omega

theorem start_due_iff (below : latency.toNat < 2 ^ 63) :
    due now ((start now frequency latency).tick + latency) = true ↔ latency ≤ now := by
  rw [due_iff, start_tick, UInt64.le_iff_toNat_le]
  split
  next before =>
    have less := UInt64.lt_iff_toNat_lt.mp before
    rw [UInt64.sub_add_cancel, UInt64.sub_self]
    exact iff_of_true (by decide) (Nat.le_of_lt less)
  next after =>
    have more := UInt64.le_iff_toNat_le.mp (UInt64.not_lt.mp after)
    rw [UInt64.zero_add, UInt64.toNat_sub]
    omega

/-- After any number of frames the clock has counted exactly their share of the counter. -/
theorem advance_exact (n : Nat) :
    (advance^[n] (start now frequency latency)).tick.toNat =
        ((start now frequency latency).tick.toNat + n * frequency.toNat / 48000) % 2 ^ 64 ∧
      (advance^[n] (start now frequency latency)).remainder.toNat =
        n * frequency.toNat % 48000 := by
  have counts := advance_counts (start_counts now latency frequency) n
  obtain ⟨whole, remainder⟩ := Carried.iterate_add_zero (by decide : 0 < 48000) frequency.toNat n
  constructor
  · rw [counts.tick, whole, UInt64.toNat_add, UInt64.toNat_ofNat', Nat.add_mod_mod]
  · rw [counts.remainder, remainder]

theorem clock_never_drifts (now latency : UInt64) (frequency : UInt32) :
    (∀ n : Nat,
      (advance^[n] (start now frequency latency)).tick.toNat =
          ((start now frequency latency).tick.toNat + n * frequency.toNat / 48000) % 2 ^ 64 ∧
        (advance^[n] (start now frequency latency)).remainder.toNat =
          n * frequency.toNat % 48000 ∧
        (advance^[n] (start now frequency latency)).remainder.toNat +
          (frequency % 48000).toNat < 2 ^ 32) ∧
    ∀ limit : UInt64, latency.toNat + limit.toNat < 2 ^ 63 →
      late (start now frequency latency) now latency limit = false ∧
        (due now ((start now frequency latency).tick + latency) = true ↔ latency ≤ now) := by
  constructor
  · intro n
    obtain ⟨tick, remainder⟩ := @advance_exact now latency frequency n
    have fits := (advance_counts (start_counts now latency frequency) n).remainder_fits
    exact ⟨tick, remainder, by omega⟩
  · intro limit below
    exact ⟨start_not_late below, start_due_iff (by omega)⟩

/-- At 54 MHz the loop stays 50 ms back and resyncs when it lags by 250 ms more. -/
theorem clock_never_drifts_at_54MHz :
    late (start 60000000 54000000 2700000) 60000000 2700000 13500000 = false ∧
      (due 60000000 ((start 60000000 54000000 2700000).tick + 2700000) = true ↔
        (2700000 : UInt64) ≤ 60000000) :=
  (clock_never_drifts 60000000 2700000 54000000).2 13500000 (by decide)

end ReplayClock

end Paulastorm.Poc
