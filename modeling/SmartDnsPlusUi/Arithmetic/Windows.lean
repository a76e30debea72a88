import SmartDnsPlusUi.Arithmetic.Wrapping

/-!
# Windows of multiples

The last multiples of a width up to a value, counted back from the one at or below it.  They
are those at or after a bound that lies the whole window before any point of the width that
follows the last multiple.
-/

namespace SmartDnsPlusUi.Arithmetic

variable {width value : Int}

theorem lt_floorTo_add (positive : 0 < width) (value : Int) :
    value < floorTo width value + width :=
  ((floorTo_eq_iff positive value _).1 rfl).2.1

theorem dvd_floorTo (width value : Int) : width ∣ floorTo width value := Int.dvd_self_sub_emod

/-- A multiple up to the value lies a whole number of widths before the last one. -/
theorem exists_back {start : Int} (positive : 0 < width) (multiple : width ∣ start)
    (below : start ≤ value) : ∃ back : Nat, start = floorTo width value - width * back := by
  obtain ⟨steps, equality⟩ := Int.dvd_sub (dvd_floorTo width value) multiple
  have nonneg : 0 ≤ steps := by
    by_contra negative
    have after := lt_floorTo_add positive value
    have least : width * steps ≤ width * (-1) :=
      Int.mul_le_mul_of_nonneg_left (by omega) (by omega)
    omega
  refine ⟨steps.toNat, ?_⟩
  rw [Int.toNat_of_nonneg nonneg]
  omega

/-- The multiples since a bound are the last ones, as many as the bound is widths before a
point of the width that follows. -/
theorem since_iff {start later : Int} {count : Nat} (positive : 0 < width)
    (multiple : width ∣ start) (below : start ≤ value) (after : floorTo width value < later)
    (within : later ≤ floorTo width value + width) :
    later - width * count ≤ start ↔
      ∃ back < count, start = floorTo width value - width * (back : Int) := by
  obtain ⟨back, rfl⟩ := exists_back positive multiple below
  constructor
  · intro since
    refine ⟨back, ?_, rfl⟩
    by_contra tooOld
    have older : width * (count : Int) ≤ width * (back : Int) :=
      Int.mul_le_mul_of_nonneg_left (by omega) (by omega)
    omega
  · rintro ⟨same, young, equality⟩
    have younger : width * (same + 1 : Int) ≤ width * (count : Int) :=
      Int.mul_le_mul_of_nonneg_left (by omega) (by omega)
    rw [mul_add, mul_one] at younger
    omega

end SmartDnsPlusUi.Arithmetic
