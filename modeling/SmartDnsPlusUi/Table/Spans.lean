import Mathlib.Data.List.Basic

/-!
# Spans of a list

A list is cut behind each element that does not go on.  Every span but the last is then a
longest run of elements that go on with the element that ends it; the last one is the run
that the list leaves open.
-/

namespace SmartDnsPlusUi.Table

variable {Element : Type} {GoesOn : Element → Prop}

/-- The spans that an element ends and the elements that are left, which all go on. -/
structure IsCut (GoesOn : Element → Prop) (elements : List Element)
    (closed : List (List Element)) (last : List Element) : Prop where
  flatten : closed.flatten ++ last = elements
  closes : ∀ span ∈ closed, ∃ run final, span = run ++ [final] ∧
    (∀ element ∈ run, GoesOn element) ∧ ¬ GoesOn final
  goesOn : ∀ element ∈ last, GoesOn element

variable [DecidablePred GoesOn]

/-- The spans of the elements behind a run that is still open. -/
def spansFrom (GoesOn : Element → Prop) [DecidablePred GoesOn] (run : List Element) :
    List Element → List (List Element)
  | [] => [run]
  | element :: elements =>
      if GoesOn element then spansFrom GoesOn (run ++ [element]) elements
      else (run ++ [element]) :: spansFrom GoesOn [] elements

theorem isCut_spansFrom (elements : List Element) {run : List Element}
    (goesOn : ∀ element ∈ run, GoesOn element) :
    ∃ closed last, spansFrom GoesOn run elements = closed ++ [last] ∧
      IsCut GoesOn (run ++ elements) closed last := by
  induction elements generalizing run with
  | nil => exact ⟨[], run, rfl, (List.append_nil run).symm, nofun, goesOn⟩
  | cons element elements inductionHypothesis =>
      rw [spansFrom, List.append_cons run element elements]
      by_cases more : GoesOn element
      · rw [if_pos more]
        apply inductionHypothesis
        exact List.forall_mem_append.mpr ⟨goesOn, List.forall_mem_singleton.mpr more⟩
      · rw [if_neg more]
        obtain ⟨closed, last, equality, flatten, closes, ends⟩ :=
          @inductionHypothesis [] nofun
        refine ⟨(run ++ [element]) :: closed, last, ?_, ?_, ?_, ends⟩
        · rw [equality, List.cons_append]
        · rw [List.flatten_cons, List.append_assoc, flatten, List.nil_append]
        · exact List.forall_mem_cons.mpr ⟨⟨run, element, rfl, goesOn, more⟩, closes⟩

end SmartDnsPlusUi.Table
