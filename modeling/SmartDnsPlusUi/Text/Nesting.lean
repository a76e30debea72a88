import Mathlib.Algebra.Order.BigOperators.Group.List
import Mathlib.Algebra.Order.Group.Int
import Mathlib.Algebra.Ring.Int.Defs
import Mathlib.Data.List.Infix

/-!
# Nesting

Marks are the steps of a depth: `1` goes in, `-1` goes out.  Marks are nested from a depth
when it is never below zero and zero at the end.
-/

namespace SmartDnsPlusUi.Text

/-- No prefix leads below zero, and all marks together lead to zero. -/
structure NestedFrom (depth : Int) (marks : List Int) : Prop where
  never_below : ∀ earlier, earlier <+: marks → 0 ≤ depth + earlier.sum
  closes : depth + marks.sum = 0

theorem NestedFrom.nonneg {depth : Int} {marks : List Int} (nested : NestedFrom depth marks) :
    0 ≤ depth := by
  simpa using nested.never_below [] List.nil_prefix

theorem nestedFrom_nil (depth : Int) : NestedFrom depth [] ↔ depth = 0 := by
  constructor
  · intro nested
    simpa using nested.closes
  · rintro rfl
    refine ⟨fun earlier shorter => ?_, by simp⟩
    rw [List.prefix_nil.mp shorter]
    simp

theorem nestedFrom_cons (depth mark : Int) (marks : List Int) :
    NestedFrom depth (mark :: marks) ↔ 0 ≤ depth ∧ NestedFrom (depth + mark) marks := by
  constructor
  · intro nested
    refine ⟨nested.nonneg, fun earlier shorter => ?_, ?_⟩
    · have longer := nested.never_below (mark :: earlier)
        (List.cons_prefix_cons.mpr ⟨rfl, shorter⟩)
      simpa [add_assoc] using longer
    · simpa [add_assoc] using nested.closes
  · rintro ⟨nonneg, nested⟩
    refine ⟨fun earlier shorter => ?_, by simpa [add_assoc] using nested.closes⟩
    rcases List.prefix_cons_iff.mp shorter with rfl | ⟨tail, rfl, tailShorter⟩
    · simpa using nonneg
    · simpa [add_assoc] using nested.never_below tail tailShorter

theorem nestedFrom_zero_cons (depth : Int) (marks : List Int) :
    NestedFrom depth (0 :: marks) ↔ NestedFrom depth marks := by
  rw [nestedFrom_cons, add_zero]
  exact and_iff_right_of_imp NestedFrom.nonneg

/-- A mark of zero after the first one changes nothing either. -/
theorem nestedFrom_cons_zero_cons (depth mark : Int) (marks : List Int) :
    NestedFrom depth (mark :: 0 :: marks) ↔ NestedFrom depth (mark :: marks) := by
  rw [nestedFrom_cons, nestedFrom_zero_cons, ← nestedFrom_cons]

/-- Marks none of which is greater are the same once they add up to the same. -/
theorem eq_of_forall₂_of_sum_eq {fewer more : List Int}
    (below : List.Forall₂ (· ≤ ·) fewer more) (total : fewer.sum = more.sum) : fewer = more := by
  induction below with
  | nil => rfl
  | cons first rest inductionHypothesis =>
      have tail := rest.sum_le_sum
      simp only [List.sum_cons] at total
      have same := inductionHypothesis (by omega)
      rw [same]
      congr 1
      omega

/-- Two nested lists of marks, none of one greater than that of the other, are the same. -/
theorem NestedFrom.eq_of_forall₂ {depth : Int} {fewer more : List Int}
    (one : NestedFrom depth fewer) (other : NestedFrom depth more)
    (below : List.Forall₂ (· ≤ ·) fewer more) : fewer = more := by
  apply eq_of_forall₂_of_sum_eq below
  have first := one.closes
  have second := other.closes
  omega

end SmartDnsPlusUi.Text
