import Mathlib.Data.Nat.ModEq
import Mathlib.Tactic.Common

/-! Free-running 64-bit counters seen as wrapped naturals, and the cells a
cyclic buffer of power-of-two capacity assigns to them. -/

set_option autoImplicit false

namespace AimeeLearning.Library

theorem wrapped_succ (count : Nat) :
    UInt64.ofNat count + 1 = UInt64.ofNat (count + 1) := by
  rw [UInt64.ofNat_add]
  rfl

/-- The modular distance of two counters is their true distance while that
distance fits in 64 bits, however often either of them has wrapped. -/
theorem wrapped_distance {later earlier : Nat} (ordered : earlier ≤ later)
    (near : later < earlier + 2 ^ 64) :
    (UInt64.ofNat later - UInt64.ofNat earlier).toNat = later - earlier := by
  rw [UInt64.toNat_sub]
  simp only [UInt64.toNat_ofNat']
  omega

/-- Any counter value whose modular distance from `earlier` is known stands for
the natural at that distance. -/
theorem wrapped_of_distance (value : UInt64) (earlier : Nat) :
    value = UInt64.ofNat (earlier + (value - UInt64.ofNat earlier).toNat) := by
  rw [UInt64.ofNat_add, UInt64.ofNat_toNat]
  grind

theorem wrapped_mask {bits : Nat} (small : bits ≤ 64) (count : Nat) :
    (UInt64.ofNat count).toNat &&& (2 ^ bits - 1) = count % 2 ^ bits := by
  rw [Nat.and_two_pow_sub_one_eq_mod, UInt64.toNat_ofNat']
  exact Nat.mod_mod_of_dvd _ (Nat.pow_dvd_pow 2 small)

theorem cell_ne {capacity left right : Nat} (ordered : left < right)
    (near : right < left + capacity) : left % capacity ≠ right % capacity := by
  intro same
  have divides : capacity ∣ right - left :=
    (Nat.modEq_iff_dvd' (Nat.le_of_lt ordered)).mp same
  exact absurd (Nat.le_of_dvd (by omega) divides) (by omega)

theorem cell_disjoint (size : Nat) {left right : Nat} (different : left ≠ right) :
    left * size + size ≤ right * size ∨ right * size + size ≤ left * size := by
  rcases Nat.lt_or_gt_of_ne different with before | after
  · left
    calc left * size + size = (left + 1) * size := (Nat.succ_mul left size).symm
      _ ≤ right * size := Nat.mul_le_mul_right size before
  · right
    calc right * size + size = (right + 1) * size := (Nat.succ_mul right size).symm
      _ ≤ left * size := Nat.mul_le_mul_right size after

end AimeeLearning.Library
