import Mathlib.Algebra.Order.Ring.Int
import Mathlib.Data.Int.DivMod
import Mathlib.Data.Nat.Cast.Order.Ring

/-!
# Wrapping arithmetic

Unsigned integers of a fixed width, as natural numbers.  Every operation is the
operation on the integers, taken modulo the number of values; so a computation
whose result is in range is exact, whatever wrapped on the way.
-/

namespace SmartDnsPlusUi.Arithmetic

/-- The cast of an integer to an unsigned integer of `w` bits. -/
def ofInt (w : Nat) (value : Int) : Nat := (value % 2 ^ w).toNat

def wrappingAdd (w a b : Nat) : Nat := ofInt w (a + b)

def wrappingSub (w a b : Nat) : Nat := ofInt w (a - b)

def wrappingMul (w a b : Nat) : Nat := ofInt w (a * b)

theorem cast_ofInt (w : Nat) (value : Int) : (ofInt w value : Int) = value % 2 ^ w := by
  have positive : (0 : Int) < 2 ^ w := Int.pow_pos (by decide)
  exact Int.toNat_of_nonneg (Int.emod_nonneg value positive.ne')

theorem ofInt_congr {w : Nat} {value other : Int} (same : value % 2 ^ w = other % 2 ^ w) :
    ofInt w value = ofInt w other := by
  unfold ofInt
  rw [same]

theorem cast_ofInt_of_range {w : Nat} {value : Int} (nonneg : 0 ≤ value)
    (small : value < 2 ^ w) : (ofInt w value : Int) = value := by
  rw [cast_ofInt, Int.emod_eq_of_lt nonneg small]

theorem ofInt_natCast {w n : Nat} (small : n < 2 ^ w) : ofInt w n = n := by
  have bounded : (n : Int) < 2 ^ w := by exact_mod_cast small
  exact_mod_cast cast_ofInt_of_range (Int.natCast_nonneg n) bounded

/-- A sum in range does not wrap. -/
theorem wrappingAdd_of_lt {w a b : Nat} (small : a + b < 2 ^ w) : wrappingAdd w a b = a + b := by
  unfold wrappingAdd
  exact_mod_cast ofInt_natCast small

theorem wrappingAdd_lt (w a b : Nat) : wrappingAdd w a b < 2 ^ w := by
  have positive : (0 : Int) < 2 ^ w := Int.pow_pos (by decide)
  have below := Int.emod_lt_of_pos ((a : Int) + b) positive
  rw [← cast_ofInt] at below
  exact_mod_cast below

theorem wrappingAdd_ofInt (w : Nat) (value other : Int) :
    wrappingAdd w (ofInt w value) (ofInt w other) = ofInt w (value + other) := by
  apply ofInt_congr
  rw [cast_ofInt, cast_ofInt, ← Int.add_emod]

theorem wrappingSub_ofInt (w : Nat) (value other : Int) :
    wrappingSub w (ofInt w value) (ofInt w other) = ofInt w (value - other) := by
  apply ofInt_congr
  rw [cast_ofInt, cast_ofInt, ← Int.sub_emod]

theorem wrappingMul_ofInt (w : Nat) (value other : Int) :
    wrappingMul w (ofInt w value) (ofInt w other) = ofInt w (value * other) := by
  apply ofInt_congr
  rw [cast_ofInt, cast_ofInt, ← Int.mul_emod]

/-! ### Multiples -/

/-- The multiple of the width at or below the value. -/
def floorTo (width value : Int) : Int := value - value % width

theorem floorTo_eq_iff {width : Int} (positive : 0 < width) (value floor : Int) :
    floorTo width value = floor ↔ floor ≤ value ∧ value < floor + width ∧ width ∣ floor := by
  have lower := Int.emod_nonneg value positive.ne'
  have upper := Int.emod_lt_of_pos value positive
  constructor
  · rintro rfl
    refine ⟨by unfold floorTo; omega, by unfold floorTo; omega, ?_⟩
    exact Int.dvd_self_sub_emod
  · rintro ⟨below, above, multiple⟩
    have remainder : value % width = value - floor := by
      have shifted : (value - floor) % width = value % width := by
        rw [Int.sub_emod, Int.emod_eq_zero_of_dvd multiple, sub_zero, Int.emod_emod]
      rw [← shifted]
      exact Int.emod_eq_of_lt (by omega) (by omega)
    unfold floorTo
    omega

end SmartDnsPlusUi.Arithmetic
