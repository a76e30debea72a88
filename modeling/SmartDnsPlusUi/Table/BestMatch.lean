import Mathlib.Data.List.MinMax

/-!
# The best match

Of the patterns that match a path, the one of the least rank.  It does not depend on the
order of the patterns when two of the same rank never match the same path.
-/

namespace SmartDnsPlusUi.Table

variable {Pattern Path Rank : Type} [LinearOrder Rank]

def best (isMatch : Pattern → Path → Bool) (rank : Pattern → Rank) (patterns : List Pattern)
    (path : Path) : Option Pattern :=
  (patterns.filter (isMatch · path)).argmin rank

structure IsBest (isMatch : Pattern → Path → Bool) (rank : Pattern → Rank)
    (patterns : List Pattern) (path : Path) (pattern : Pattern) : Prop where
  mem : pattern ∈ patterns
  matches_path : isMatch pattern path = true
  least : ∀ other ∈ patterns, isMatch other path = true → rank pattern ≤ rank other

/-- Two patterns of the same rank that match a common path are the same. -/
def Separates (isMatch : Pattern → Path → Bool) (rank : Pattern → Rank)
    (patterns : List Pattern) : Prop :=
  ∀ first ∈ patterns, ∀ second ∈ patterns, rank first = rank second →
    ∀ path, isMatch first path = true → isMatch second path = true → first = second

variable {isMatch : Pattern → Path → Bool} {rank : Pattern → Rank}
variable {patterns others : List Pattern} {path : Path} {pattern other : Pattern}

omit [LinearOrder Rank] in
theorem Separates.subset (separates : Separates isMatch rank patterns) (inside : others ⊆ patterns) :
    Separates isMatch rank others :=
  fun first listed second also => separates first (inside listed) second (inside also)

theorem isBest_of_best (found : best isMatch rank patterns path = some pattern) :
    IsBest isMatch rank patterns path pattern := by
  have member := List.argmin_mem found
  rw [List.mem_filter] at member
  refine ⟨member.1, member.2, fun other listed also => ?_⟩
  exact List.le_of_mem_argmin (List.mem_filter.2 ⟨listed, also⟩) found

theorem best_eq_none_iff :
    best isMatch rank patterns path = none ↔
      ∀ pattern ∈ patterns, isMatch pattern path = false := by
  rw [best, List.argmin_eq_none, List.filter_eq_nil_iff]
  exact forall₂_congr fun _ _ => Bool.not_eq_true _ ▸ Iff.rfl

theorem IsBest.unique (separates : Separates isMatch rank patterns)
    (first : IsBest isMatch rank patterns path pattern)
    (second : IsBest isMatch rank patterns path other) : pattern = other := by
  have same : rank pattern = rank other :=
    le_antisymm (first.least other second.mem second.matches_path)
      (second.least pattern first.mem first.matches_path)
  exact separates pattern first.mem other second.mem same path first.matches_path
    second.matches_path

theorem best_eq_some_iff (separates : Separates isMatch rank patterns) :
    best isMatch rank patterns path = some pattern ↔
      IsBest isMatch rank patterns path pattern := by
  refine ⟨isBest_of_best, fun isBest => ?_⟩
  cases found : best isMatch rank patterns path with
  | none =>
      have unmatched := best_eq_none_iff.1 found pattern isBest.mem
      rw [isBest.matches_path] at unmatched
      cases unmatched
  | some other => rw [(isBest_of_best found).unique separates isBest]

/-- Fewer patterns leave a best match that is still among them. -/
theorem IsBest.subset (isBest : IsBest isMatch rank patterns path pattern)
    (inside : others ⊆ patterns) (member : pattern ∈ others) :
    IsBest isMatch rank others path pattern :=
  ⟨member, isBest.matches_path, fun other listed => isBest.least other (inside listed)⟩

/-- The order and the repetitions of the patterns do not matter. -/
theorem best_congr (separates : Separates isMatch rank patterns)
    (same : ∀ pattern, pattern ∈ others ↔ pattern ∈ patterns) :
    best isMatch rank others path = best isMatch rank patterns path := by
  have inside : others ⊆ patterns := fun pattern => (same pattern).1
  cases found : best isMatch rank patterns path with
  | none =>
      rw [best_eq_none_iff] at found ⊢
      exact fun pattern listed => found pattern (inside listed)
  | some pattern =>
      have isBest := isBest_of_best found
      rw [best_eq_some_iff (separates.subset inside)]
      exact isBest.subset inside ((same pattern).2 isBest.mem)

end SmartDnsPlusUi.Table
