import Mathlib.Order.WithBot
import Mathlib.Data.List.Induction

/-!
# Sequences grouped by a key

An ordered map collects the elements that have a key, each group in the order
of the sequence.  Read group by group, with the elements without key behind
them, it is the stable sort of the sequence by its keys.
-/

namespace SmartDnsPlusUi

variable {Key Element : Type} [LinearOrder Key]

/-- Append an element to the group of its key; the keys ascend. -/
def pushGrouped (name : Key) (element : Element) :
    List (Key × List Element) → List (Key × List Element)
  | [] => [(name, [element])]
  | (other, elements) :: rest =>
      if name = other then (other, elements ++ [element]) :: rest
      else if name < other then (name, [element]) :: (other, elements) :: rest
      else (other, elements) :: pushGrouped name element rest

def groupByKey (key : Element → Option Key) (elements : List Element) :
    List (Key × List Element) :=
  elements.foldl (fun grouped element =>
    match key element with
    | some name => pushGrouped name element grouped
    | none => grouped) []

/-- An element without key is above all others. -/
def sortKey (key : Element → Option Key) (element : Element) : WithTop Key := key element

/-- The stable sort by key, the elements without key last. -/
def stableSort (key : Element → Option Key) (elements : List Element) : List Element :=
  elements.mergeSort fun first second => decide (sortKey key first ≤ sortKey key second)

/-! ### Sorted sequences -/

/-- A sorted sequence is determined by its elements of each key. -/
theorem eq_of_pairwise_of_filter {key : Element → Key} {first second : List Element}
    (sorted : first.Pairwise (key · ≤ key ·)) (sorted' : second.Pairwise (key · ≤ key ·))
    (same : ∀ k, first.filter (key · = k) = second.filter (key · = k)) : first = second := by
  have members : ∀ element, element ∈ first ↔ element ∈ second := by
    intro element
    have classes := congrArg (element ∈ ·) (same (key element))
    simpa [List.mem_filter] using classes
  induction first generalizing second with
  | nil => exact (List.eq_nil_iff_forall_not_mem.mpr fun b => mt (members b).mpr (by simp)).symm
  | cons a first inductionHypothesis =>
      cases second with
      | nil => exact absurd ((members a).mp (by simp)) (by simp)
      | cons b second =>
          rw [List.pairwise_cons] at sorted sorted'
          have below : key a ≤ key b := by
            rcases List.mem_cons.mp ((members b).mpr (by simp)) with rfl | later
            · exact le_refl _
            · exact sorted.1 b later
          have above : key b ≤ key a := by
            rcases List.mem_cons.mp ((members a).mp (by simp)) with rfl | later
            · exact le_refl _
            · exact sorted'.1 a later
          have heads := same (key a)
          simp only [List.filter_cons, le_antisymm below above, decide_true, if_true,
            List.cons.injEq] at heads
          obtain ⟨rfl, -⟩ := heads
          have tails : ∀ k, first.filter (key · = k) = second.filter (key · = k) := by
            intro k
            have both := same k
            rw [List.filter_cons, List.filter_cons] at both
            split at both
            · exact (List.cons.inj both).2
            · exact both
          rw [inductionHypothesis sorted.2 sorted'.2 tails]
          intro element
          have classes := congrArg (element ∈ ·) (tails (key element))
          simpa [List.mem_filter] using classes

variable (key : Element → Option Key)

theorem pairwise_stableSort (elements : List Element) :
    (stableSort key elements).Pairwise (sortKey key · ≤ sortKey key ·) := by
  have sorted : (stableSort key elements).Pairwise
      fun a b => decide (sortKey key a ≤ sortKey key b) = true := by
    apply List.pairwise_mergeSort
    · intro a b c first second
      rw [decide_eq_true_eq] at first second ⊢
      exact first.trans second
    · intro a b
      simpa using le_total (sortKey key a) (sortKey key b)
  simpa using sorted

@[simp] theorem stableSort_nil : stableSort key [] = [] := List.mergeSort_nil

theorem perm_stableSort (elements : List Element) :
    (stableSort key elements).Perm elements :=
  List.mergeSort_perm elements _

/-- The elements of a key keep their order. -/
theorem filter_stableSort (elements : List Element) (k : WithTop Key) :
    (stableSort key elements).filter (sortKey key · = k) =
      elements.filter (sortKey key · = k) := by
  have sameKey : ∀ element ∈ elements.filter (sortKey key · = k), sortKey key element = k := by
    intro element membership
    simpa using (List.mem_filter.mp membership).2
  have sorted : (elements.filter (sortKey key · = k)).Pairwise
      fun a b => decide (sortKey key a ≤ sortKey key b) = true := by
    apply List.pairwise_of_forall_mem_list
    intro a first b second
    rw [sameKey a first, sameKey b second, decide_eq_true_eq]
  have within : (elements.filter (sortKey key · = k)).Sublist (stableSort key elements) := by
    apply List.sublist_mergeSort _ _ sorted List.filter_sublist
    · intro a b c first second
      rw [decide_eq_true_eq] at first second ⊢
      exact first.trans second
    · intro a b
      simpa using le_total (sortKey key a) (sortKey key b)
  have filtered := within.filter (sortKey key · = k)
  rw [List.filter_filter] at filtered
  simp only [Bool.and_self] at filtered
  exact (filtered.eq_of_length (((perm_stableSort key elements).filter _).length_eq).symm).symm

/-! ### Groups -/

/-- The keys of the groups ascend, and every element is in the group of its
key. -/
structure IsGrouped (grouped : List (Key × List Element)) : Prop where
  ascending : grouped.Pairwise (·.1 < ·.1)
  keyed : ∀ group ∈ grouped, ∀ element ∈ group.2, key element = some group.1

variable {key}

theorem mem_pushGrouped {name : Key} {element : Element} {grouped : List (Key × List Element)}
    {group : Key × List Element} (membership : group ∈ pushGrouped name element grouped) :
    group.1 = name ∨ group.1 ∈ grouped.map (·.1) := by
  induction grouped with
  | nil => simp_all [pushGrouped]
  | cons head rest inductionHypothesis =>
      obtain ⟨other, elements⟩ := head
      rw [pushGrouped] at membership
      split at membership
      · simp only [List.mem_cons] at membership
        rcases membership with rfl | later
        · simp
        · exact .inr (List.mem_map_of_mem (List.mem_cons_of_mem _ later))
      · split at membership
        · rcases List.mem_cons.mp membership with rfl | later
          · exact .inl rfl
          · exact .inr (List.mem_map_of_mem later)
        · rcases List.mem_cons.mp membership with rfl | later
          · simp
          · exact (inductionHypothesis later).imp_right (List.mem_cons_of_mem _)

theorem IsGrouped.tail {group : Key × List Element} {rest : List (Key × List Element)}
    (grouped : IsGrouped key (group :: rest)) : IsGrouped key rest :=
  ⟨(List.pairwise_cons.mp grouped.ascending).2,
    fun later membership => grouped.keyed later (List.mem_cons_of_mem _ membership)⟩

theorem IsGrouped.pushGrouped {grouped : List (Key × List Element)} (isGrouped : IsGrouped key grouped)
    {name : Key} {element : Element} (named : key element = some name) :
    IsGrouped key (pushGrouped name element grouped) := by
  induction grouped with
  | nil => exact ⟨by simp [SmartDnsPlusUi.pushGrouped], by simp [SmartDnsPlusUi.pushGrouped, named]⟩
  | cons head rest inductionHypothesis =>
      obtain ⟨other, elements⟩ := head
      have later := inductionHypothesis isGrouped.tail
      have ascending := List.pairwise_cons.mp isGrouped.ascending
      have keyed := isGrouped.keyed
      simp only [List.mem_cons, forall_eq_or_imp] at keyed
      rw [SmartDnsPlusUi.pushGrouped]
      split
      · rename_i same
        refine ⟨List.pairwise_cons.mpr ascending, ?_⟩
        simp only [List.mem_cons, forall_eq_or_imp, List.mem_append, List.not_mem_nil, or_false]
        refine ⟨?_, keyed.2⟩
        rintro listed (old | rfl)
        · exact keyed.1 listed old
        · rw [named, same]
      · split
        · rename_i less
          refine ⟨List.pairwise_cons.mpr ⟨?_, isGrouped.ascending⟩, ?_⟩
          · simp only [List.mem_cons, forall_eq_or_imp]
            exact ⟨less, fun group membership => less.trans (ascending.1 group membership)⟩
          · simp only [List.mem_cons, forall_eq_or_imp, List.not_mem_nil, or_false, forall_eq]
            exact ⟨named, keyed⟩
        · rename_i different notLess
          have greater : other < name :=
            lt_of_le_of_ne (not_lt.mp notLess) (Ne.symm different)
          refine ⟨List.pairwise_cons.mpr ⟨?_, later.ascending⟩, ?_⟩
          · intro group membership
            rcases mem_pushGrouped membership with same | old
            · exact same ▸ greater
            · obtain ⟨entry, entryMem, equality⟩ := List.mem_map.mp old
              exact equality ▸ ascending.1 entry entryMem
          · simp only [List.mem_cons, forall_eq_or_imp]
            exact ⟨keyed.1, later.keyed⟩

theorem pairwise_flatMap_groups {grouped : List (Key × List Element)}
    (isGrouped : IsGrouped key grouped) :
    (grouped.flatMap (·.2)).Pairwise (sortKey key · ≤ sortKey key ·) := by
  have keyed : ∀ group ∈ grouped, ∀ element ∈ group.2,
      sortKey key element = (group.1 : WithTop Key) := isGrouped.keyed
  rw [List.pairwise_flatMap]
  constructor
  · intro group membership
    apply List.pairwise_of_forall_mem_list
    intro a first b second
    rw [keyed group membership a first, keyed group membership b second]
  · apply isGrouped.ascending.imp_of_mem
    intro group later groupMem laterMem less a first b second
    rw [keyed group groupMem a first, keyed later laterMem b second]
    exact WithTop.coe_le_coe.mpr less.le

/-- An element passes groups of greater keys. -/
theorem filter_above {groups : List (Key × List Element)} (isGrouped : IsGrouped key groups)
    {name : Key} {element : Element} (named : key element = some name)
    (above : ∀ group ∈ groups, name < group.1) (k : WithTop Key) :
    [element].filter (sortKey key · = k) ++ (groups.flatMap (·.2)).filter (sortKey key · = k) =
      (groups.flatMap (·.2)).filter (sortKey key · = k) ++
        [element].filter (sortKey key · = k) := by
  by_cases own : sortKey key element = k
  · have none : (groups.flatMap (·.2)).filter (sortKey key · = k) = [] := by
      rw [List.filter_eq_nil_iff]
      intro other membership
      obtain ⟨group, groupMem, otherMem⟩ := List.mem_flatMap.mp membership
      have less := above group groupMem
      have otherKey : sortKey key other = (group.1 : WithTop Key) :=
        isGrouped.keyed group groupMem other otherMem
      have ownKey : sortKey key element = (name : WithTop Key) := named
      rw [← own, otherKey, ownKey, decide_eq_true_eq, WithTop.coe_inj]
      exact less.ne'
    rw [none, List.append_nil, List.nil_append]
  · simp [own]

/-- A push adds the element behind those of its key. -/
theorem filter_pushGrouped {grouped : List (Key × List Element)}
    (isGrouped : IsGrouped key grouped) {name : Key} {element : Element}
    (named : key element = some name) (k : WithTop Key) :
    ((pushGrouped name element grouped).flatMap (·.2)).filter (sortKey key · = k) =
      (grouped.flatMap (·.2)).filter (sortKey key · = k) ++
        [element].filter (sortKey key · = k) := by
  induction grouped with
  | nil => simp [pushGrouped]
  | cons head rest inductionHypothesis =>
      obtain ⟨other, elements⟩ := head
      have ascending := (List.pairwise_cons.mp isGrouped.ascending).1
      rw [pushGrouped]
      split
      · rename_i same
        have passes := filter_above isGrouped.tail named (same ▸ ascending) k
        simp only [List.flatMap_cons, List.filter_append, List.append_assoc, passes]
      · split
        · rename_i less
          have above : ∀ group ∈ (other, elements) :: rest, name < group.1 := by
            simp only [List.mem_cons, forall_eq_or_imp]
            exact ⟨less, fun group membership => less.trans (ascending group membership)⟩
          rw [← filter_above isGrouped named above k, ← List.filter_append]
          rfl
        · simp only [List.flatMap_cons, List.filter_append, List.append_assoc,
            inductionHypothesis isGrouped.tail]

theorem isGrouped_nil : IsGrouped key ([] : List (Key × List Element)) :=
  ⟨List.Pairwise.nil, by simp⟩

theorem isGrouped_groupByKey (elements : List Element) :
    IsGrouped key (groupByKey key elements) := by
  induction elements using List.reverseRecOn with
  | nil => exact isGrouped_nil
  | append_singleton elements element inductionHypothesis =>
      rw [groupByKey, List.foldl_append, ← groupByKey]
      cases named : key element with
      | none => simpa [named] using inductionHypothesis
      | some name => simpa [named] using inductionHypothesis.pushGrouped named

theorem filter_groupByKey (elements : List Element) (k : Key) :
    ((groupByKey key elements).flatMap (·.2)).filter (sortKey key · = (k : WithTop Key)) =
      elements.filter (sortKey key · = (k : WithTop Key)) := by
  induction elements using List.reverseRecOn with
  | nil => rfl
  | append_singleton elements element inductionHypothesis =>
      rw [groupByKey, List.foldl_append, ← groupByKey, List.filter_append, ← inductionHypothesis]
      cases named : key element with
      | none =>
          have top : sortKey key element ≠ (k : WithTop Key) := by
            rw [sortKey, named]
            exact WithTop.top_ne_coe
          simp [named, top]
      | some name =>
          simpa [named] using filter_pushGrouped (isGrouped_groupByKey elements) named k

theorem key_ne_none_of_mem_groupByKey {elements : List Element} {element : Element}
    (membership : element ∈ (groupByKey key elements).flatMap (·.2)) : key element ≠ none := by
  obtain ⟨group, groupMem, elementMem⟩ := List.mem_flatMap.mp membership
  rw [(isGrouped_groupByKey elements).keyed group groupMem element elementMem]
  exact Option.some_ne_none _

/-- Group by group, then the elements without key: the stable sort. -/
theorem groupByKey_eq_stableSort (elements : List Element) :
    (groupByKey key elements).flatMap (·.2) ++ elements.filter (key · = none) =
      stableSort key elements := by
  have top : ∀ element, sortKey key element = ⊤ ↔ key element = none := fun _ => Iff.rfl
  apply eq_of_pairwise_of_filter _ (pairwise_stableSort key elements)
  · intro k
    rw [filter_stableSort, List.filter_append]
    cases k with
    | top =>
        have none : ((groupByKey key elements).flatMap (·.2)).filter (sortKey key · = ⊤) = [] := by
          rw [List.filter_eq_nil_iff]
          intro element membership
          simpa [top] using key_ne_none_of_mem_groupByKey membership
        rw [none, List.nil_append, List.filter_filter]
        simp [top]
    | coe k =>
        have none : (elements.filter (key · = none)).filter
            (sortKey key · = (k : WithTop Key)) = [] := by
          rw [List.filter_eq_nil_iff]
          intro element membership
          have ungrouped : sortKey key element = ⊤ := by
            simpa [top] using (List.mem_filter.mp membership).2
          simp [ungrouped]
        rw [none, List.append_nil, filter_groupByKey]
  · rw [List.pairwise_append]
    refine ⟨pairwise_flatMap_groups (isGrouped_groupByKey elements), ?_, ?_⟩
    · apply List.pairwise_of_forall_mem_list
      intro a _ b second
      have last : sortKey key b = ⊤ := by simpa [top] using (List.mem_filter.mp second).2
      rw [last]
      exact le_top
    · intro a _ b second
      have last : sortKey key b = ⊤ := by simpa [top] using (List.mem_filter.mp second).2
      rw [last]
      exact le_top

theorem exists_key_of_mem_groupByKey {elements : List Element} {group : Key × List Element}
    (membership : group ∈ groupByKey key elements) :
    ∃ element ∈ elements, key element = some group.1 := by
  induction elements using List.reverseRecOn generalizing group with
  | nil => simp [groupByKey] at membership
  | append_singleton elements element inductionHypothesis =>
      have earlier : ∀ {other : Key × List Element}, other ∈ groupByKey key elements →
          ∃ element' ∈ elements ++ [element], key element' = some other.1 := by
        intro other otherMem
        obtain ⟨found, foundMem, named⟩ := inductionHypothesis otherMem
        exact ⟨found, List.mem_append_left _ foundMem, named⟩
      rw [groupByKey, List.foldl_append, ← groupByKey] at membership
      cases named : key element with
      | none => exact earlier (by simpa [named] using membership)
      | some name =>
          simp only [List.foldl_cons, List.foldl_nil, named] at membership
          rcases mem_pushGrouped membership with same | old
          · exact ⟨element, by simp, by rw [named, same]⟩
          · obtain ⟨other, otherMem, equality⟩ := List.mem_map.mp old
            exact equality ▸ earlier otherMem

theorem mem_of_mem_groupByKey {elements : List Element} {group : Key × List Element}
    (membership : group ∈ groupByKey key elements) : ∀ element ∈ group.2, element ∈ elements := by
  intro element elementMem
  have listed : element ∈ (groupByKey key elements).flatMap (·.2) ++
      elements.filter (key · = none) :=
    List.mem_append_left _ (List.mem_flatMap.mpr ⟨group, membership, elementMem⟩)
  rw [groupByKey_eq_stableSort] at listed
  exact (perm_stableSort key elements).mem_iff.mp listed

/-! ### Maps that keep the keys -/

section

variable {Other : Type} {key : Element → Option Key} {key' : Other → Option Key}
  {f : Element → Other}

theorem pushGrouped_map (f : Element → Other) (name : Key) (element : Element)
    (grouped : List (Key × List Element)) :
    pushGrouped name (f element) (grouped.map fun group => (group.1, group.2.map f)) =
      (pushGrouped name element grouped).map fun group => (group.1, group.2.map f) := by
  induction grouped with
  | nil => rfl
  | cons group rest inductionHypothesis =>
      obtain ⟨other, elements⟩ := group
      rw [List.map_cons, pushGrouped, pushGrouped]
      split_ifs
      · simp
      · rfl
      · rw [inductionHypothesis, List.map_cons]

theorem groupByKey_map (keeps : ∀ element, key' (f element) = key element)
    (elements : List Element) :
    groupByKey key' (elements.map f) =
      (groupByKey key elements).map fun group => (group.1, group.2.map f) := by
  induction elements using List.reverseRecOn with
  | nil => rfl
  | append_singleton elements element inductionHypothesis =>
      rw [groupByKey, groupByKey, List.map_append, List.foldl_append, List.foldl_append,
        ← groupByKey, ← groupByKey, inductionHypothesis]
      simp only [List.map_cons, List.map_nil, List.foldl_cons, List.foldl_nil, keeps]
      cases key element with
      | none => rfl
      | some name => exact pushGrouped_map f name element _

theorem stableSort_map (keeps : ∀ element, key' (f element) = key element)
    (elements : List Element) :
    (stableSort key elements).map f = stableSort key' (elements.map f) := by
  have same (element : Element) : sortKey key' (f element) = sortKey key element := keeps element
  apply List.map_mergeSort
  intro first _ second _
  rw [same, same]

end

end SmartDnsPlusUi
