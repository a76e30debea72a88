import SmartDnsPlusUi.Text.Split

/-!
# Pieces between delimiters

The pieces of a text are what lies between its delimiters.  A text without delimiters occurs
in another one exactly when it occurs in one of the pieces.
-/

namespace SmartDnsPlusUi.Text

variable {delimiter : Char → Bool}

theorem infix_of_mem_splitOnP {t piece : Text} (member : piece ∈ t.splitOnP delimiter) :
    piece <:+: t := by
  induction length : t.length using Nat.strong_induction_on generalizing t with
  | _ bound inductionHypothesis =>
      by_cases free : ∀ c ∈ t, delimiter c = false
      · rw [List.splitOnP_eq_singleton free, List.mem_singleton] at member
        exact member ▸ List.infix_rfl
      · simp only [not_forall, Bool.not_eq_false] at free
        obtain ⟨c, present, splits⟩ := free
        obtain ⟨before, after, rfl⟩ := List.append_of_mem present
        rw [List.length_append, List.length_cons] at length
        rw [List.splitOnP_append_cons _ _ splits, List.mem_append] at member
        rcases member with first | second
        · exact (inductionHypothesis before.length (by omega) first rfl).trans
            ( List.prefix_append _ _).isInfix
        · refine (inductionHypothesis after.length (by omega) second rfl).trans ?_
          exact ( List.suffix_cons _ _).isInfix.trans ( List.suffix_append _ _).isInfix

theorem infix_iff_splitOnP {needle : Text} (solid : ∀ c ∈ needle, delimiter c = false)
    (t : Text) : needle <:+: t ↔ ∃ piece ∈ t.splitOnP delimiter, needle <:+: piece := by
  constructor
  · intro occurs
    induction length : t.length using Nat.strong_induction_on generalizing t with
    | _ bound inductionHypothesis =>
        by_cases free : ∀ c ∈ t, delimiter c = false
        · rw [List.splitOnP_eq_singleton free]
          exact ⟨t, List.mem_singleton_self t, occurs⟩
        · simp only [not_forall, Bool.not_eq_false] at free
          obtain ⟨c, present, splits⟩ := free
          have avoids : c ∉ needle := by
            intro inside
            rw [solid c inside] at splits
            cases splits
          obtain ⟨before, after, rfl⟩ := List.append_of_mem present
          rw [List.length_append, List.length_cons] at length
          rw [List.splitOnP_append_cons _ _ splits]
          rcases infix_append_cons avoids occurs with first | second
          · obtain ⟨piece, member, inside⟩ :=
              inductionHypothesis before.length (by omega) before first rfl
            exact ⟨piece, List.mem_append_left _ member, inside⟩
          · obtain ⟨piece, member, inside⟩ :=
              inductionHypothesis after.length (by omega) after second rfl
            exact ⟨piece, List.mem_append_right _ member, inside⟩
  · rintro ⟨piece, member, inside⟩
    exact inside.trans (infix_of_mem_splitOnP member)

end SmartDnsPlusUi.Text
