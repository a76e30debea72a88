import Mathlib.Algebra.Order.BigOperators.Group.Finset

/-!
# Maps that cover a finite set

A map whose values cover a finite set permutes it.  If it raises no weight, it keeps every
weight, and where two steps that keep the weight come to the same as one, it moves nothing.
-/

namespace SmartDnsPlusUi.Table

variable {Element : Type} [DecidableEq Element] {elements : Finset Element}
  {f : Element → Element}

theorem image_eq_of_covers (covers : elements ⊆ elements.image f) : elements.image f = elements :=
  (Finset.eq_of_subset_of_card_le covers Finset.card_image_le).symm

theorem injOn_of_covers (covers : elements ⊆ elements.image f) : Set.InjOn f elements := by
  rw [← Finset.card_image_iff, image_eq_of_covers covers]

theorem weight_eq_of_covers {weight : Element → Nat} (covers : elements ⊆ elements.image f)
    (falls : ∀ element ∈ elements, weight (f element) ≤ weight element) :
    ∀ element ∈ elements, weight (f element) = weight element := by
  apply (Finset.sum_eq_sum_iff_of_le falls).mp
  have moved := Finset.sum_image (f := weight) (injOn_of_covers covers)
  rw [image_eq_of_covers covers] at moved
  exact moved.symm

theorem eq_self_of_covers {weight : Element → Nat} (covers : elements ⊆ elements.image f)
    (falls : ∀ element ∈ elements, weight (f element) ≤ weight element)
    (settles : ∀ element ∈ elements, weight (f element) = weight element →
      weight (f (f element)) = weight (f element) → f (f element) = f element) :
    ∀ element ∈ elements, f element = element := by
  intro element membership
  have reached : f element ∈ elements := by
    rw [← image_eq_of_covers covers]
    exact Finset.mem_image_of_mem f membership
  have keeps := weight_eq_of_covers covers falls
  apply injOn_of_covers covers reached membership
  exact settles element membership (keeps element membership) (keeps (f element) reached)

end SmartDnsPlusUi.Table
