import Mathlib.Data.List.Nodup

/-!
# The first item of each key

A loop with a set of seen keys keeps the first item of each key that the set did
not hold at its start.
-/

namespace SmartDnsPlusUi

variable {Item Key : Type} [DecidableEq Key] {key : Item → Key}

/-- The items whose key has not been seen, the first one for each key. -/
def unseen (key : Item → Key) : List Key → List Item → List Item
  | _, [] => []
  | seen, item :: rest =>
      if key item ∈ seen then unseen key seen rest
      else item :: unseen key (key item :: seen) rest

theorem unseen_of_seen {seen : List Key} {items : List Item}
    (all : ∀ item ∈ items, key item ∈ seen) : unseen key seen items = [] := by
  induction items with
  | nil => rfl
  | cons item items inductionHypothesis =>
      simp only [List.mem_cons, forall_eq_or_imp] at all
      rw [unseen, if_pos all.1]
      exact inductionHypothesis all.2

/-- Only the keys of the items matter in the set of seen keys. -/
theorem unseen_congr {seen other : List Key} {items : List Item}
    (same : ∀ item ∈ items, key item ∈ seen ↔ key item ∈ other) :
    unseen key seen items = unseen key other items := by
  induction items generalizing seen other with
  | nil => rfl
  | cons item items inductionHypothesis =>
      simp only [List.mem_cons, forall_eq_or_imp] at same
      by_cases present : key item ∈ seen
      · rw [unseen, unseen, if_pos present, if_pos (same.1.mp present)]
        exact inductionHypothesis same.2
      · have absent : key item ∉ other := fun inside => present (same.1.mpr inside)
        rw [unseen, unseen, if_neg present, if_neg absent]
        congr 1
        refine inductionHypothesis fun later membership => ?_
        rw [List.mem_cons, List.mem_cons, same.2 later membership]

theorem mem_unseen_iff {seen : List Key} {items : List Item} {item : Item} :
    item ∈ unseen key seen items ↔
      key item ∉ seen ∧ items.find? (key · = key item) = some item := by
  induction items generalizing seen with
  | nil => simp [unseen]
  | cons first items inductionHypothesis =>
      rw [unseen, List.find?_cons]
      by_cases same : key first = key item
      · rw [same]
        by_cases present : key item ∈ seen
        · simp [present, inductionHypothesis]
        · simp [present, inductionHypothesis, eq_comm]
      · have other : item ≠ first := fun equal => same (by rw [equal])
        by_cases present : key first ∈ seen
        · simp [present, same, inductionHypothesis]
        · simp [present, same, other, inductionHypothesis, Ne.symm same]

theorem mem_of_mem_unseen {seen : List Key} {items : List Item} {item : Item}
    (membership : item ∈ unseen key seen items) : item ∈ items :=
  List.mem_of_find?_eq_some (mem_unseen_iff.mp membership).2

theorem nodup_unseen (seen : List Key) (items : List Item) :
    ((unseen key seen items).map key).Nodup := by
  induction items generalizing seen with
  | nil => simp [unseen]
  | cons item items inductionHypothesis =>
      rw [unseen]
      split
      · exact inductionHypothesis seen
      · rw [List.map_cons, List.nodup_cons]
        refine ⟨?_, inductionHypothesis _⟩
        rw [List.mem_map]
        rintro ⟨later, membership, same⟩
        exact (mem_unseen_iff.mp membership).1 (by simp [same])

/-- Every key is in the set or kept. -/
theorem key_mem_or_mem_unseen (seen : List Key) {items : List Item} :
    ∀ item ∈ items, key item ∈ seen ∨ key item ∈ (unseen key seen items).map key := by
  induction items generalizing seen with
  | nil => simp
  | cons first items inductionHypothesis =>
      intro item membership
      rw [unseen]
      by_cases present : key first ∈ seen
      · rw [if_pos present]
        rcases List.mem_cons.mp membership with rfl | later
        · exact .inl present
        · exact inductionHypothesis seen item later
      · rw [if_neg present, List.map_cons, List.mem_cons]
        rcases List.mem_cons.mp membership with rfl | later
        · exact .inr (.inl rfl)
        · rcases inductionHypothesis (key first :: seen) item later with inside | kept
          · rcases List.mem_cons.mp inside with same | inside
            · exact .inr (.inl same)
            · exact .inl inside
          · exact .inr (.inr kept)

/-- A selection that depends on the key may come before or after. -/
theorem filter_unseen {p : Item → Bool} (seen : List Key) {items : List Item}
    (byKey : ∀ item ∈ items, ∀ other ∈ items, key item = key other → p item = p other) :
    (unseen key seen items).filter p = unseen key seen (items.filter p) := by
  induction items generalizing seen with
  | nil => rfl
  | cons item items inductionHypothesis =>
      have later := fun a inA b inB =>
        byKey a (List.mem_cons_of_mem item inA) b (List.mem_cons_of_mem item inB)
      by_cases present : key item ∈ seen
      · rw [unseen, if_pos present, inductionHypothesis seen later, List.filter_cons]
        split
        · rw [unseen, if_pos present]
        · rfl
      · rw [unseen, if_neg present, List.filter_cons, List.filter_cons,
          inductionHypothesis _ later]
        split
        · rw [unseen, if_neg present]
        · -- no item of this key is selected
          refine unseen_congr fun other membership => ?_
          obtain ⟨inItems, selected⟩ := List.mem_filter.mp membership
          have distinct : key other ≠ key item := by
            intro same
            have equal := byKey other (List.mem_cons_of_mem _ inItems) item List.mem_cons_self same
            rw [selected] at equal
            simp_all
          simp [distinct]

theorem unseen_append (keys seen : List Key) (items : List Item) :
    unseen key (keys ++ seen) items = (unseen key seen items).filter (key · ∉ keys) := by
  induction items generalizing seen with
  | nil => rfl
  | cons item items inductionHypothesis =>
      by_cases present : key item ∈ seen
      · rw [unseen, unseen, if_pos present, if_pos (List.mem_append_right _ present)]
        exact inductionHypothesis seen
      · by_cases excluded : key item ∈ keys
        · have more : ∀ other ∈ items, key other ∈ keys ++ seen ↔
              key other ∈ keys ++ key item :: seen := by
            intro other _
            rw [List.mem_append, List.mem_append, List.mem_cons]
            constructor
            · rintro (inKeys | inSeen)
              · exact .inl inKeys
              · exact .inr (.inr inSeen)
            · rintro (inKeys | same | inSeen)
              · exact .inl inKeys
              · exact .inl (same ▸ excluded)
              · exact .inr inSeen
          rw [unseen, unseen, if_neg present, if_pos (List.mem_append_left _ excluded),
            unseen_congr more, inductionHypothesis (key item :: seen)]
          simp [excluded]
        · have more : ∀ other ∈ items, key other ∈ key item :: (keys ++ seen) ↔
              key other ∈ keys ++ key item :: seen := by
            intro other _
            simp only [List.mem_append, List.mem_cons]
            tauto
          rw [unseen, unseen, if_neg present,
            if_neg (by simp [present, excluded]), unseen_congr more,
            inductionHypothesis (key item :: seen)]
          simp [excluded]

/-- Items put in front of the list, with their keys seen, leave it as it was exactly
when it started with them. -/
theorem append_unseen_eq_iff (first items : List Item) :
    first ++ unseen key (first.map key) items = unseen key [] items ↔
      first <+: unseen key [] items := by
  constructor
  · intro same
    exact ⟨_, same⟩
  · rintro ⟨rest, same⟩
    have distinct : ((unseen key [] items).map key).Nodup := nodup_unseen [] items
    have split : unseen key (first.map key ++ []) items = _ := unseen_append (first.map key) [] items
    rw [← same, List.map_append, List.nodup_append] at distinct
    rw [List.append_nil, ← same, List.filter_append] at split
    have none : first.filter (key · ∉ first.map key) = [] := by
      rw [List.filter_eq_nil_iff]
      intro item membership
      simpa using List.mem_map_of_mem (f := key) membership
    have all : rest.filter (key · ∉ first.map key) = rest := by
      rw [List.filter_eq_self]
      intro item membership
      rw [decide_eq_true_eq]
      intro inside
      exact distinct.2.2 _ inside _ (List.mem_map_of_mem membership) rfl
    rw [split, none, all, List.nil_append, same]

end SmartDnsPlusUi
