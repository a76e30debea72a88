import Mathlib.Data.List.Induction
import Mathlib.Data.List.Nodup

/-!
# First occurrences

A list without its repetitions keeps each element at the place of its first occurrence.
An update of such a list removes elements and appends others that are not in it.
-/

namespace SmartDnsPlusUi.Table

variable {Row : Type} [BEq Row]

/-- The elements come in the order in which they first occur in the rows. -/
def InFirstOrder (rows elements : List Row) : Prop :=
  elements.Pairwise fun one other => rows.idxOf one < rows.idxOf other

/-- The rows that are left of old ones, each once and in the order of their first
occurrences, and then the added ones that are not among them. -/
structure IsUpdate (old removed added new : List Row) : Prop where
  nodup : new.Nodup
  mem_iff : ∀ row, row ∈ new ↔ row ∈ old ∧ row ∉ removed ∨ row ∈ added
  order : ∃ kept fresh, new = kept ++ fresh ∧
    (∀ row, row ∈ kept ↔ row ∈ old ∧ row ∉ removed) ∧
    InFirstOrder old kept ∧ InFirstOrder added fresh

theorem InFirstOrder.nodup {rows elements : List Row} (ordered : InFirstOrder rows elements) :
    elements.Nodup := by
  refine List.Pairwise.imp ?_ ordered
  rintro one other earlier rfl
  exact Nat.lt_irrefl _ earlier

/-- The same update again leaves the same rows. -/
theorem IsUpdate.again {old removed added new newer : List Row}
    (update : IsUpdate old removed added new) (again : IsUpdate new removed added newer)
    (row : Row) : row ∈ newer ↔ row ∈ new := by
  rw [again.mem_iff, update.mem_iff]
  constructor
  · rintro (⟨member, -⟩ | member)
    · exact member
    · exact .inr member
  · rintro (⟨member, kept⟩ | member)
    · exact .inl ⟨.inl ⟨member, kept⟩, kept⟩
    · exact .inr member

variable [LawfulBEq Row]

theorem eraseDups_concat (rows : List Row) (row : Row) :
    (rows ++ [row]).eraseDups =
      if row ∈ rows then rows.eraseDups else rows.eraseDups ++ [row] := by
  rw [List.eraseDups_append]
  by_cases known : row ∈ rows
  · simp [known, List.removeAll]
  · simp [known, List.removeAll, List.eraseDups_cons]

theorem inFirstOrder_eraseDups (rows : List Row) : InFirstOrder rows rows.eraseDups := by
  induction rows using List.reverseRecOn with
  | nil => exact List.Pairwise.nil
  | append_singleton rows row inductionHypothesis =>
      have kept : InFirstOrder (rows ++ [row]) rows.eraseDups := by
        refine List.Pairwise.imp_of_mem ?_ inductionHypothesis
        intro one other first second earlier
        rw [List.mem_eraseDups] at first second
        rwa [List.idxOf_append_of_mem first, List.idxOf_append_of_mem second]
      rw [eraseDups_concat]
      split_ifs with known
      · exact kept
      · refine List.pairwise_append.mpr ⟨kept, List.pairwise_singleton _ _, ?_⟩
        intro one member other last
        rw [List.mem_eraseDups] at member
        rw [List.mem_singleton.mp last, List.idxOf_append_of_mem member,
          List.idxOf_append_of_notMem known]
        exact Nat.lt_of_lt_of_le (List.idxOf_lt_length_of_mem member) (Nat.le_add_right _ _)

theorem idxOf_lt_of_filter {keep : Row → Bool} {one other : Row} (kept : keep other = true)
    {rows : List Row}
    (earlier : (rows.filter keep).idxOf one < (rows.filter keep).idxOf other) :
    rows.idxOf one < rows.idxOf other := by
  induction rows with
  | nil => simp at earlier
  | cons row rows inductionHypothesis =>
      by_cases isOther : row = other
      · rw [← isOther, List.filter_cons_of_pos (isOther ▸ kept),
          List.idxOf_cons_self] at earlier
        exact absurd earlier (Nat.not_lt_zero _)
      by_cases isOne : row = one
      · rw [isOne, List.idxOf_cons_self, List.idxOf_cons_ne _ (isOne ▸ isOther)]
        exact Nat.succ_pos _
      rw [List.idxOf_cons_ne _ isOne, List.idxOf_cons_ne _ isOther]
      apply Nat.succ_lt_succ
      apply inductionHypothesis
      by_cases keepRow : keep row = true
      · rw [List.filter_cons_of_pos keepRow, List.idxOf_cons_ne _ isOne,
          List.idxOf_cons_ne _ isOther] at earlier
        exact Nat.lt_of_succ_lt_succ earlier
      · rwa [List.filter_cons_of_neg keepRow] at earlier

theorem InFirstOrder.of_filter {keep : Row → Bool} {rows elements : List Row}
    (kept : ∀ row ∈ elements, keep row = true)
    (ordered : InFirstOrder (rows.filter keep) elements) : InFirstOrder rows elements :=
  List.Pairwise.imp_of_mem
    (fun _ second earlier => idxOf_lt_of_filter (kept _ second) earlier) ordered

theorem isUpdate_eraseDups (old removed added : List Row) :
    IsUpdate old removed added ((old.filter (· ∉ removed)) ++ added).eraseDups := by
  have keptIff : ∀ row, row ∈ (old.filter (· ∉ removed)).eraseDups ↔
      row ∈ old ∧ row ∉ removed := by
    intro row
    rw [List.mem_eraseDups, List.mem_filter, decide_eq_true_iff]
  refine ⟨(inFirstOrder_eraseDups _).nodup, ?_, ?_⟩
  · intro row
    rw [List.mem_eraseDups, List.mem_append, List.mem_filter, decide_eq_true_iff]
  · refine ⟨_, _, List.eraseDups_append, keptIff, ?_, ?_⟩
    · refine InFirstOrder.of_filter (fun row member => ?_) (inFirstOrder_eraseDups _)
      exact decide_eq_true ((keptIff row).mp member).2
    · refine InFirstOrder.of_filter (fun row member => ?_) (inFirstOrder_eraseDups _)
      rw [List.mem_eraseDups] at member
      exact (List.mem_filter.mp member).2

end SmartDnsPlusUi.Table
