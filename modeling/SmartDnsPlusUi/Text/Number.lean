import Mathlib.Algebra.Group.Nat.Defs
import SmartDnsPlusUi.Text.Basic

/-!
# Numbers as texts

Unsigned integers of 64 bits, written in decimal and parsed back.
-/

namespace SmartDnsPlusUi.Text

/-- `to_string`. -/
def showNat (n : Nat) : Text := Nat.toDigits 10 n

/-- `parse::<u64>`: an optional plus sign and at least one digit. -/
def parseU64 (t : Text) : Option Nat :=
  let digits := match t with
    | '+' :: rest => rest
    | _ => t
  if digits ≠ [] ∧ digits.all Char.isDigit = true ∧ Nat.ofDigitChars 10 digits 0 < 2 ^ 64 then
    some (Nat.ofDigitChars 10 digits 0)
  else none

/-- `parse::<u32>`: what exceeds 32 bits is no number. -/
def parseU32 (t : Text) : Option Nat := (parseU64 t).filter (· < 2 ^ 32)

theorem isDigit_of_mem_showNat {n : Nat} {c : Char} (listed : c ∈ showNat n) : c.isDigit = true :=
  Nat.isDigit_of_mem_toDigits (by decide) (by decide) listed

theorem parseU64_showNat {n : Nat} (small : n < 2 ^ 64) : parseU64 (showNat n) = some n := by
  have digits : (match showNat n with
      | '+' :: rest => rest
      | _ => showNat n) = showNat n := by
    split
    · rename_i rest shown
      have plus : '+' ∈ showNat n := by
        rw [shown]
        exact List.mem_cons_self
      exact absurd (isDigit_of_mem_showNat plus) (by decide)
    · rfl
  have value : Nat.ofDigitChars 10 (showNat n) 0 = n := Nat.ofDigitChars_ten_toDigits
  unfold parseU64
  simp only [digits, value]
  rw [if_pos]
  exact ⟨Nat.toDigits_ne_nil, List.all_eq_true.mpr fun c => isDigit_of_mem_showNat, small⟩

end SmartDnsPlusUi.Text
