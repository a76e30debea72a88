import Mathlib.Algebra.GroupWithZero.Nat
import Mathlib.Data.List.Basic

/-!
# Sequences collected piece by piece

A loop that only appends to a component of its state collects what each element
contributes, and two such collections are compared element by element when one
never contributes more than the other.
-/

namespace SmartDnsPlusUi

variable {State Element Item : Type}

/-- A loop whose step only appends to one component collects what each element
contributes to it. -/
theorem foldl_append_flatMap (step : State → Element → State) (component : State → List Item)
    (contribution : Element → List Item)
    (appends : ∀ state element,
      component (step state element) = component state ++ contribution element)
    (start : State) (elements : List Element) :
    component (elements.foldl step start) = component start ++ elements.flatMap contribution := by
  induction elements generalizing start with
  | nil => simp
  | cons element elements inductionHypothesis =>
      rw [List.foldl_cons, inductionHypothesis, appends, List.flatMap_cons, List.append_assoc]

@[simp] theorem flatMap_const_nil (elements : List Element) :
    elements.flatMap (fun _ => ([] : List Item)) = [] := by
  simp [List.flatMap_eq_nil_iff]

theorem length_flatMap_le {shorter longer : Element → List Item} {elements : List Element}
    (bounded : ∀ element ∈ elements, (shorter element).length ≤ (longer element).length) :
    (elements.flatMap shorter).length ≤ (elements.flatMap longer).length := by
  induction elements with
  | nil => simp
  | cons element elements inductionHypothesis =>
      simp only [List.mem_cons, forall_eq_or_imp] at bounded
      have head := bounded.1
      have tail := inductionHypothesis bounded.2
      simp only [List.flatMap_cons, List.length_append]
      omega

/-- Where no element contributes more to the one than to the other, the
collections are equal only if the contributions are. -/
theorem flatMap_eq_iff {shorter longer : Element → List Item} {elements : List Element}
    (bounded : ∀ element ∈ elements, (shorter element).length ≤ (longer element).length) :
    elements.flatMap shorter = elements.flatMap longer ↔
      ∀ element ∈ elements, shorter element = longer element := by
  constructor
  · intro same
    induction elements with
    | nil => simp
    | cons element elements inductionHypothesis =>
        simp only [List.mem_cons, forall_eq_or_imp] at bounded ⊢
        rw [List.flatMap_cons, List.flatMap_cons] at same
        have lengths := congrArg List.length same
        have tail := length_flatMap_le bounded.2
        have head := bounded.1
        simp only [List.length_append] at lengths
        obtain ⟨heads, tails⟩ := List.append_inj same (by omega)
        exact ⟨heads, inductionHypothesis bounded.2 tails⟩
  · exact List.flatMap_congr

theorem map_eq_self_iff {f : Element → Element} (elements : List Element) :
    elements.map f = elements ↔ ∀ element ∈ elements, f element = element := by
  induction elements with
  | nil => simp
  | cons element elements inductionHypothesis => simp [inductionHypothesis]

/-! ### Sums over a sequence -/

/-- The sum of a measure over a sequence. -/
def total (measure : Element → Nat) (elements : List Element) : Nat :=
  (elements.map measure).sum

variable (measure : Element → Nat)

@[simp] theorem total_nil : total measure [] = 0 := rfl

@[simp] theorem total_cons (element : Element) (elements : List Element) :
    total measure (element :: elements) = measure element + total measure elements := by
  simp [total]

@[simp] theorem total_append (elements rest : List Element) :
    total measure (elements ++ rest) = total measure elements + total measure rest := by
  simp [total]

theorem total_map (f : Item → Element) (items : List Item) :
    total measure (items.map f) = total (fun item => measure (f item)) items := by
  simp [total, Function.comp_def]

theorem total_flatMap (f : Item → List Element) (items : List Item) :
    total measure (items.flatMap f) = total (fun item => total measure (f item)) items := by
  induction items with
  | nil => rfl
  | cons item items inductionHypothesis => simp [inductionHypothesis]

theorem total_add (first second : Element → Nat) (elements : List Element) :
    total (fun element => first element + second element) elements =
      total first elements + total second elements := by
  induction elements with
  | nil => rfl
  | cons element elements inductionHypothesis =>
      simp only [total_cons, inductionHypothesis]
      omega

theorem total_filter (p : Element → Bool) (elements : List Element) :
    total measure (elements.filter p) + total measure (elements.filter (!p ·)) =
      total measure elements := by
  induction elements with
  | nil => rfl
  | cons element elements inductionHypothesis =>
      by_cases holds : p element = true
      · simp [holds, ← inductionHypothesis]
        omega
      · simp [holds, ← inductionHypothesis]
        omega

theorem total_le {first second : Element → Nat} {elements : List Element}
    (bounded : ∀ element ∈ elements, first element ≤ second element) :
    total first elements ≤ total second elements := by
  induction elements with
  | nil => simp
  | cons element elements inductionHypothesis =>
      simp only [List.mem_cons, forall_eq_or_imp] at bounded
      have head := bounded.1
      have tail := inductionHypothesis bounded.2
      simp only [total_cons]
      omega

theorem total_congr {first second : Element → Nat} (elements : List Element)
    (same : ∀ element ∈ elements, first element = second element) :
    total first elements = total second elements :=
  congrArg List.sum (List.map_congr_left same)

end SmartDnsPlusUi
