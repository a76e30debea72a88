import Mathlib.Data.List.Basic
import Mathlib.Data.List.Count
import Mathlib.Data.List.Sort

/-!
# The top of a table

The heaviest rows of a table, as many as a limit allows, in descending order of their weights.
Rows of the same weight may stand in any order, and any of them may be left out at the limit.
-/

namespace SmartDnsPlusUi.Table

variable {Row Shown : Type} {weight : Row → Nat} {limit : Nat} {rows top : List Row}

/-- `top` is the first `limit` of the rows by descending weight. -/
structure IsTop (weight : Row → Nat) (limit : Nat) (rows top : List Row) : Prop where
  descending : top.Pairwise fun row later => weight later ≤ weight row
  length : top.length = min limit rows.length
  others : ∃ rest, (top ++ rest).Perm rows ∧
    ∀ row ∈ top, ∀ other ∈ rest, weight other ≤ weight row

theorem isTop_take {ordered : List Row} (same : ordered.Perm rows)
    (descending : ordered.Pairwise fun row later => weight later ≤ weight row) (limit : Nat) :
    IsTop weight limit rows (ordered.take limit) := by
  have split : (ordered.take limit ++ ordered.drop limit).Pairwise
      fun row later => weight later ≤ weight row := by
    rwa [List.take_append_drop]
  obtain ⟨first, -, across⟩ := List.pairwise_append.mp split
  refine ⟨first, ?_, ordered.drop limit, ?_, across⟩
  · rw [List.length_take, same.length_eq]
  · rw [List.take_append_drop]
    exact same

theorem isTop_mergeSort (weight : Row → Nat) {rows enumerated : List Row}
    (same : enumerated.Perm rows) (limit : Nat) :
    IsTop weight limit rows
      ((enumerated.mergeSort fun row later => decide (weight later ≤ weight row)).take limit) := by
  apply isTop_take ((List.mergeSort_perm _ _).trans same)
  have sorted : (enumerated.mergeSort fun row later => decide (weight later ≤ weight row)).Pairwise
      fun row later => decide (weight later ≤ weight row) = true := by
    apply List.pairwise_mergeSort
    · intro first second third upper lower
      have above := of_decide_eq_true upper
      have below := of_decide_eq_true lower
      exact decide_eq_true (below.trans above)
    · intro first second
      rcases Nat.le_total (weight second) (weight first) with le | le <;> simp [le]
  exact sorted.imp of_decide_eq_true

/-- The top of a top. -/
theorem IsTop.trans {inner : Nat} {best : List Row} (outer : IsTop weight limit rows top)
    (within : IsTop weight inner top best) : IsTop weight (min inner limit) rows best := by
  obtain ⟨rest, all, heavier⟩ := outer.others
  obtain ⟨passed, among, above⟩ := within.others
  refine ⟨within.descending, ?_, passed ++ rest, ?_, ?_⟩
  · rw [within.length, outer.length, min_assoc]
  · rw [← List.append_assoc]
    exact (among.append_right rest).trans all
  · intro row listed other left
    rcases List.mem_append.mp left with below | outside
    · exact above row listed other below
    · exact heavier row (among.mem_iff.mp (List.mem_append_left _ listed)) other outside

theorem IsTop.take (outer : IsTop weight limit rows top) (inner : Nat) :
    IsTop weight (min inner limit) rows (top.take inner) :=
  outer.trans (isTop_take (List.Perm.refl top) outer.descending inner)

/-- Other rows of the same weights. -/
theorem IsTop.map {shown : Row → Shown} {shownWeight : Shown → Nat}
    (outer : IsTop weight limit rows top)
    (same : ∀ row ∈ rows, shownWeight (shown row) = weight row) :
    IsTop shownWeight limit (rows.map shown) (top.map shown) := by
  obtain ⟨rest, all, heavier⟩ := outer.others
  have first : ∀ row ∈ top, shownWeight (shown row) = weight row := fun row listed =>
    same row (all.mem_iff.mp (List.mem_append_left _ listed))
  have second : ∀ row ∈ rest, shownWeight (shown row) = weight row := fun row listed =>
    same row (all.mem_iff.mp (List.mem_append_right _ listed))
  refine ⟨?_, ?_, rest.map shown, ?_, ?_⟩
  · apply List.pairwise_map.mpr
    apply outer.descending.imp_of_mem
    intro row later listed after le
    rwa [first row listed, first later after]
  · rw [List.length_map, List.length_map, outer.length]
  · rw [← List.map_append]
    exact all.map shown
  · intro row listed other left
    obtain ⟨heavy, inTop, rfl⟩ := List.mem_map.mp listed
    obtain ⟨light, inRest, rfl⟩ := List.mem_map.mp left
    rw [first heavy inTop, second light inRest]
    exact heavier heavy inTop light inRest

/-- Without the rows from a bound on, the top is shorter by one for each of them. -/
theorem IsTop.filter_light (outer : IsTop weight limit rows top) (bound : Nat) :
    IsTop weight (limit - rows.countP fun row => decide (bound ≤ weight row))
      (rows.filter fun row => decide (weight row < bound))
      (top.filter fun row => decide (weight row < bound)) := by
  obtain ⟨rest, all, heavier⟩ := outer.others
  refine ⟨outer.descending.filter _, ?_, rest.filter fun row => decide (weight row < bound), ?_, ?_⟩
  · have heavy : rows.countP (fun row => decide (bound ≤ weight row)) =
        top.countP (fun row => decide (bound ≤ weight row)) +
          rest.countP (fun row => decide (bound ≤ weight row)) := by
      rw [← all.countP_eq, List.countP_append]
    have light : (rows.filter fun row => decide (weight row < bound)).length =
        (top.filter fun row => decide (weight row < bound)).length +
          (rest.filter fun row => decide (weight row < bound)).length := by
      rw [← (all.filter _).length_eq, List.filter_append, List.length_append]
    have total := all.length_eq
    rw [List.length_append] at total
    have parts (list : List Row) : list.length =
        list.countP (fun row => decide (bound ≤ weight row)) +
          (list.filter fun row => decide (weight row < bound)).length := by
      rw [← List.countP_eq_length_filter,
        List.length_eq_countP_add_countP fun row => decide (bound ≤ weight row)]
      simp [not_le]
    have ofTop := parts top
    have ofRest := parts rest
    have full := outer.length
    -- A heavy row that is left out means that no light one is in.
    by_cases leftOut : rest.countP (fun row => decide (bound ≤ weight row)) = 0
    · omega
    · obtain ⟨other, outside, isHeavy⟩ := List.countP_pos_iff.mp (Nat.pos_of_ne_zero leftOut)
      have none : (top.filter fun row => decide (weight row < bound)).length = 0 := by
        apply List.length_eq_zero_iff.mpr
        apply List.filter_eq_nil_iff.mpr
        intro row listed isLight
        have above := heavier row listed other outside
        have far := of_decide_eq_true isHeavy
        have near := of_decide_eq_true isLight
        omega
      omega
  · rw [← List.filter_append]
    exact all.filter _
  · intro row listed other left
    exact heavier row (List.mem_of_mem_filter listed) other (List.mem_of_mem_filter left)

end SmartDnsPlusUi.Table
