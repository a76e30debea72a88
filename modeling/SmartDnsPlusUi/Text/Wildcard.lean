import Mathlib.Data.List.Forall2
import Mathlib.Data.List.Infix

/-!
# Wildcard patterns

A pattern is a list of symbols: a letter, any letter, or any text.  A pattern between
texts of any kind says what its middle says about a part of the text.
-/

namespace SmartDnsPlusUi.Text

variable {Letter : Type}

inductive Symbol (Letter : Type) where
  | anything
  | anyOne
  | exactly (c : Letter)

/-- The text is an instance of the pattern; letters are compared by a relation. -/
inductive Matches (same : Letter → Letter → Prop) : List (Symbol Letter) → List Letter → Prop where
  | nil : Matches same [] []
  | anything {pattern text} (skipped : List Letter) (rest : Matches same pattern text) :
      Matches same (.anything :: pattern) (skipped ++ text)
  | anyOne {pattern text} (d : Letter) (rest : Matches same pattern text) :
      Matches same (.anyOne :: pattern) (d :: text)
  | exactly {pattern text} {c d : Letter} (equal : same c d) (rest : Matches same pattern text) :
      Matches same (.exactly c :: pattern) (d :: text)

variable {same : Letter → Letter → Prop} {pattern other : List (Symbol Letter)}
  {text : List Letter}

@[simp] theorem matches_nil : Matches same [] text ↔ text = [] := by
  constructor
  · rintro ⟨⟩
    rfl
  · rintro rfl
    exact .nil

theorem matches_anything_cons :
    Matches same (.anything :: pattern) text ↔
      ∃ part, part <:+ text ∧ Matches same pattern part := by
  constructor
  · rintro (_ | ⟨skipped, rest⟩)
    exact ⟨_, List.suffix_append _ _, rest⟩
  · rintro ⟨part, ⟨skipped, rfl⟩, rest⟩
    exact .anything skipped rest

theorem matches_anyOne_cons :
    Matches same (.anyOne :: pattern) text ↔ ∃ d rest, text = d :: rest ∧
      Matches same pattern rest := by
  constructor
  · rintro (_ | _ | ⟨d, rest⟩)
    exact ⟨d, _, rfl, rest⟩
  · rintro ⟨d, rest, rfl, later⟩
    exact .anyOne d later

theorem matches_exactly_cons {c : Letter} :
    Matches same (.exactly c :: pattern) text ↔ ∃ d rest, text = d :: rest ∧ same c d ∧
      Matches same pattern rest := by
  constructor
  · rintro (_ | _ | _ | ⟨equal, rest⟩)
    exact ⟨_, _, rfl, equal, rest⟩
  · rintro ⟨d, rest, rfl, equal, later⟩
    exact .exactly equal later

theorem matches_append :
    Matches same (pattern ++ other) text ↔
      ∃ front back, text = front ++ back ∧ Matches same pattern front ∧
        Matches same other back := by
  constructor
  · intro matching
    induction pattern generalizing text with
    | nil => exact ⟨[], text, rfl, .nil, matching⟩
    | cons symbol pattern inductionHypothesis =>
        rw [List.cons_append] at matching
        cases matching with
        | anything skipped rest =>
            obtain ⟨front, back, rfl, first, second⟩ := inductionHypothesis rest
            exact ⟨skipped ++ front, back, (List.append_assoc _ _ _).symm, .anything skipped first,
              second⟩
        | anyOne d rest =>
            obtain ⟨front, back, rfl, first, second⟩ := inductionHypothesis rest
            exact ⟨d :: front, back, rfl, .anyOne d first, second⟩
        | exactly equal rest =>
            obtain ⟨front, back, rfl, first, second⟩ := inductionHypothesis rest
            exact ⟨_ :: front, back, rfl, .exactly equal first, second⟩
  · rintro ⟨front, back, rfl, first, second⟩
    induction first with
    | nil => exact second
    | anything skipped _ inductionHypothesis =>
        rw [List.append_assoc]
        exact .anything skipped inductionHypothesis
    | anyOne d _ inductionHypothesis => exact .anyOne d inductionHypothesis
    | exactly equal _ inductionHypothesis => exact .exactly equal inductionHypothesis

theorem matches_append_anything :
    Matches same (pattern ++ [.anything]) text ↔
      ∃ part, part <+: text ∧ Matches same pattern part := by
  rw [matches_append]
  constructor
  · rintro ⟨front, back, rfl, first, -⟩
    exact ⟨front, List.prefix_append _ _, first⟩
  · rintro ⟨part, ⟨back, rfl⟩, first⟩
    refine ⟨part, back, rfl, first, ?_⟩
    rw [← List.append_nil back]
    exact .anything back .nil

theorem matches_anything_append_anything :
    Matches same (.anything :: (pattern ++ [.anything])) text ↔
      ∃ part, part <:+: text ∧ Matches same pattern part := by
  simp only [matches_anything_cons, matches_append_anything]
  constructor
  · rintro ⟨back, suffix, part, first, matching⟩
    exact ⟨part, first.isInfix.trans suffix.isInfix, matching⟩
  · rintro ⟨part, ⟨front, back, rfl⟩, matching⟩
    exact ⟨part ++ back, ⟨front, (List.append_assoc _ _ _).symm⟩, part, List.prefix_append _ _,
      matching⟩

/-- A word without wildcards matches the texts with the same letters. -/
theorem matches_map_exactly {word : List Letter} :
    Matches same (word.map .exactly) text ↔ List.Forall₂ same word text := by
  induction word generalizing text with
  | nil => rw [List.map_nil, matches_nil, List.forall₂_nil_left_iff]
  | cons c word inductionHypothesis =>
      rw [List.map_cons, matches_exactly_cons]
      constructor
      · rintro ⟨d, rest, rfl, equal, matching⟩
        exact .cons equal (inductionHypothesis.mp matching)
      · rintro (_ | ⟨equal, matching⟩)
        exact ⟨_, _, rfl, equal, inductionHypothesis.mpr matching⟩

end SmartDnsPlusUi.Text
