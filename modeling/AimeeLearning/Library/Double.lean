import Mathlib.Data.Nat.Log
import Mathlib.Data.Rat.Defs
import Mathlib.Tactic.Ring

/-! Doubles as the rationals they stand for. Converting an integer rounds it to 53
significant bits, ties to even; converting back cuts the fraction off. -/

set_option autoImplicit false

namespace AimeeLearning.Library

inductive Double where
  | finite (value : Rat)
  | infinite (negative : Bool)
  | nan
  deriving DecidableEq

namespace Double

/-- The distance of neighbouring doubles at a magnitude of at least 2^52. -/
def spacing (magnitude : Nat) : Nat := 2 ^ (magnitude.log2 - 52)

/-- The nearest multiple of the spacing, the even one of two equally near. -/
def roundMagnitude (magnitude : Nat) : Nat :=
  let step := spacing magnitude
  let below := magnitude / step
  let rest := magnitude % step
  if 2 * rest < step ∨ 2 * rest = step ∧ below % 2 = 0 then below * step else (below + 1) * step

/-- `(double)` of an integer. -/
def ofInt (value : Int) : Double :=
  finite (if value < 0 then -(roundMagnitude value.natAbs : Int) else roundMagnitude value.natAbs : Int)

/-- The integer part, where there is one. -/
def truncate : Double → Option Int
  | finite value => some (value.num.tdiv value.den)
  | _ => none

theorem spacing_pos (magnitude : Nat) : 0 < spacing magnitude := Nat.pow_pos (by decide)

theorem roundMagnitude_of_dvd {magnitude : Nat} (multiple : spacing magnitude ∣ magnitude) :
    roundMagnitude magnitude = magnitude := by
  have positive := spacing_pos magnitude
  have rest : magnitude % spacing magnitude = 0 := Nat.mod_eq_zero_of_dvd multiple
  rw [roundMagnitude]
  simp only [rest, Nat.mul_zero, if_pos (Or.inl positive)]
  exact Nat.div_mul_cancel multiple

theorem spacing_dvd {magnitude : Nat} (small : magnitude ≤ 2 ^ 53) : spacing magnitude ∣ magnitude := by
  rcases Nat.lt_or_eq_of_le small with below | rfl
  · have single : spacing magnitude = 1 := by
      by_cases zero : magnitude = 0
      · rw [zero]
        decide
      · have bits := (Nat.log2_lt zero).mpr below
        rw [spacing, show magnitude.log2 - 52 = 0 by omega, pow_zero]
    rw [single]
    exact one_dvd _
  · rw [spacing, Nat.log2_two_pow]
    exact pow_dvd_pow 2 (by decide)

theorem ofInt_exact {value : Int} (small : value.natAbs ≤ 2 ^ 53) : ofInt value = finite value := by
  rw [ofInt, roundMagnitude_of_dvd (spacing_dvd small)]
  congr 1
  split
  · rw [show -(value.natAbs : Int) = value by omega]
  · rw [show (value.natAbs : Int) = value by omega]

theorem truncate_ofInt {value : Int} (small : value.natAbs ≤ 2 ^ 53) :
    truncate (ofInt value) = some value := by
  rw [ofInt_exact small, truncate, Rat.num_intCast, Rat.den_intCast, Nat.cast_one, Int.tdiv_one]

end Double

end AimeeLearning.Library
