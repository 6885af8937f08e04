import Mathlib.Algebra.Group.Nat.Defs
import Mathlib.Data.Nat.Basic
import Mathlib.Data.List.Induction
import Mathlib.Data.UInt
import Mathlib.Tactic.Ring

namespace Paulastorm.Library

/-! Big-endian byte strings. -/

/-- The `count` low bytes of a number, the most significant first. -/
def bigEndian : Nat → Nat → List UInt8
  | 0, _ => []
  | count + 1, value => UInt8.ofNat (value / 256 ^ count) :: bigEndian count value

theorem bigEndian_length (count value : Nat) : (bigEndian count value).length = count := by
  induction count with
  | zero => rfl
  | succ count ih => simp only [bigEndian, List.length_cons, ih]

theorem bigEndian_add (high low value : Nat) :
    bigEndian (high + low) value = bigEndian high (value / 256 ^ low) ++ bigEndian low value := by
  induction high with
  | zero => rw [Nat.zero_add, bigEndian, List.nil_append]
  | succ high ih =>
      rw [Nat.succ_add, bigEndian, bigEndian, List.cons_append, ih, Nat.div_div_eq_div_mul,
        ← Nat.pow_add, Nat.add_comm low high]

/-- Bytes above the string do not show in it. -/
theorem bigEndian_mod (count value : Nat) {modulus : Nat} (whole : 256 ^ count ∣ modulus) :
    bigEndian count (value % modulus) = bigEndian count value := by
  induction count with
  | zero => rfl
  | succ count ih =>
      have lower : 256 ^ count ∣ modulus := Nat.dvd_trans (Nat.pow_dvd_pow 256 count.le_succ) whole
      rw [bigEndian, bigEndian, ih lower]
      congr 1
      obtain ⟨rest, rfl⟩ := whole
      rw [Nat.pow_succ, Nat.mul_assoc, Nat.mod_mul_right_div_self, ← UInt8.toNat_inj]
      simp only [UInt8.toNat_ofNat']
      exact Nat.mod_mul_right_mod _ 256 rest

/-- The number that a string of bytes spells, the most significant first. -/
def ofBigEndian (bytes : List UInt8) : Nat :=
  bytes.foldl (fun value byte => 256 * value + byte.toNat) 0

theorem ofBigEndian_append_singleton (bytes : List UInt8) (byte : UInt8) :
    ofBigEndian (bytes ++ [byte]) = 256 * ofBigEndian bytes + byte.toNat := by
  rw [ofBigEndian, List.foldl_append]
  rfl

theorem ofBigEndian_append (first second : List UInt8) :
    ofBigEndian (first ++ second) =
      ofBigEndian first * 256 ^ second.length + ofBigEndian second := by
  induction second using List.reverseRecOn with
  | nil => simp [ofBigEndian]
  | append_singleton second byte ih =>
      rw [← List.append_assoc, ofBigEndian_append_singleton, ih, ofBigEndian_append_singleton,
        List.length_append, List.length_singleton, Nat.pow_succ]
      ring

theorem ofBigEndian_lt (bytes : List UInt8) : ofBigEndian bytes < 256 ^ bytes.length := by
  induction bytes using List.reverseRecOn with
  | nil => exact Nat.one_pos
  | append_singleton bytes byte ih =>
      have small := byte.toNat_lt
      rw [ofBigEndian_append_singleton, List.length_append, List.length_singleton, Nat.pow_succ]
      omega

/-- A string is read back from the number it was made of. -/
theorem ofBigEndian_bigEndian (count value : Nat) :
    ofBigEndian (bigEndian count value) = value % 256 ^ count := by
  induction count with
  | zero => exact (Nat.mod_one value).symm
  | succ count ih =>
      have byte : (UInt8.ofNat (value / 256 ^ count)).toNat = value / 256 ^ count % 256 :=
        UInt8.toNat_ofNat'
      have whole := ofBigEndian_append [UInt8.ofNat (value / 256 ^ count)] (bigEndian count value)
      rw [List.singleton_append] at whole
      rw [bigEndian, whole, ih, bigEndian_length, Nat.pow_succ, Nat.mod_mul]
      simp only [ofBigEndian, List.foldl_cons, List.foldl_nil, byte]
      ring

end Paulastorm.Library
