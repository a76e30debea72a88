import Mathlib.Data.List.Basic

/-!
# Merging into the first element with a key

A new element is merged into the first element of a sequence that has its key; it
is put behind the sequence when there is none.
-/

namespace SmartDnsPlusUi.Table

variable {Element Other Key OtherKey : Type} [DecidableEq Key] [DecidableEq OtherKey]

def mergeFirst (key : Element → Key) (merge : Element → Element → Element) (element : Element) :
    List Element → List Element
  | [] => [element]
  | first :: rest =>
      if key first = key element then merge first element :: rest
      else first :: mergeFirst key merge element rest

def mergeAll (key : Element → Key) (merge : Element → Element → Element) (base : List Element)
    (elements : List Element) : List Element :=
  elements.foldl (fun merged element => mergeFirst key merge element merged) base

/-- Some element of the sequence has the key. -/
def IsKnown (key : Element → Key) (base : List Element) (wanted : Key) : Prop :=
  ∃ first ∈ base, key first = wanted

instance (key : Element → Key) (base : List Element) (wanted : Key) :
    Decidable (IsKnown key base wanted) :=
  inferInstanceAs (Decidable (∃ first ∈ base, key first = wanted))

variable {key : Element → Key} {merge : Element → Element → Element}

omit [DecidableEq Key] in
theorem isKnown_cons (first : Element) (base : List Element) (wanted : Key) :
    IsKnown key (first :: base) wanted ↔ key first = wanted ∨ IsKnown key base wanted :=
  List.exists_mem_cons_iff _ _ _

@[simp] theorem mergeAll_nil (base : List Element) : mergeAll key merge base [] = base := rfl

@[simp] theorem mergeAll_cons (base : List Element) (element : Element)
    (elements : List Element) :
    mergeAll key merge base (element :: elements) =
      mergeAll key merge (mergeFirst key merge element base) elements := rfl

/-- The first element takes what has its key, the rest takes the others. -/
theorem mergeAll_into_cons (keeps : ∀ first element, key (merge first element) = key first)
    (first : Element) (rest elements : List Element) :
    mergeAll key merge (first :: rest) elements =
      (elements.filter (key · = key first)).foldl merge first ::
        mergeAll key merge rest (elements.filter (key · ≠ key first)) := by
  induction elements generalizing first rest with
  | nil => rfl
  | cons element elements inductionHypothesis =>
      rw [mergeAll_cons, mergeFirst]
      by_cases same : key first = key element
      · rw [if_pos same, inductionHypothesis, keeps]
        simp [same]
      · rw [if_neg same, inductionHypothesis]
        simp [Ne.symm same]

/-- Elements with the accepted keys only: the other elements of the base do not matter. -/
theorem filter_mergeAll (keeps : ∀ first element, key (merge first element) = key first)
    (accepted : Key → Bool) (base elements : List Element)
    (all : ∀ element ∈ elements, accepted (key element) = true) :
    (mergeAll key merge base elements).filter (fun element => accepted (key element)) =
      mergeAll key merge (base.filter fun element => accepted (key element)) elements := by
  have one : ∀ element, accepted (key element) = true → ∀ base : List Element,
      (mergeFirst key merge element base).filter (fun element => accepted (key element)) =
        mergeFirst key merge element (base.filter fun element => accepted (key element)) := by
    intro element isAccepted base
    induction base with
    | nil => simp [mergeFirst, isAccepted]
    | cons first rest inductionHypothesis =>
        by_cases same : key first = key element
        · simp [mergeFirst, same, keeps, isAccepted]
        · rw [mergeFirst, if_neg same, List.filter_cons, List.filter_cons, inductionHypothesis]
          split
          · rw [mergeFirst, if_neg same]
          · rfl
  induction elements generalizing base with
  | nil => rfl
  | cons element elements inductionHypothesis =>
      rw [List.forall_mem_cons] at all
      rw [mergeAll_cons, inductionHypothesis _ all.2, one element all.1, mergeAll_cons]

/-- The elements with one key are merged among themselves. -/
theorem filter_key_mergeAll (keeps : ∀ first element, key (merge first element) = key first)
    (wanted : Key) (base elements : List Element) :
    (mergeAll key merge base elements).filter (key · = wanted) =
      mergeAll key merge (base.filter (key · = wanted)) (elements.filter (key · = wanted)) := by
  have one : ∀ (element : Element) (base : List Element),
      (mergeFirst key merge element base).filter (key · = wanted) =
        if key element = wanted then mergeFirst key merge element (base.filter (key · = wanted))
        else base.filter (key · = wanted) := by
    intro element base
    induction base with
    | nil => by_cases found : key element = wanted <;> simp [mergeFirst, found]
    | cons first rest inductionHypothesis =>
        rw [mergeFirst]
        by_cases same : key first = key element
        · rw [if_pos same]
          by_cases found : key element = wanted
          · simp [mergeFirst, keeps, same, found]
          · simp [keeps, same, found]
        · rw [if_neg same, List.filter_cons, List.filter_cons, inductionHypothesis]
          by_cases found : key element = wanted
          · by_cases own : key first = wanted
            · exact absurd (own.trans found.symm) same
            · simp [own, found]
          · simp [found]
  induction elements generalizing base with
  | nil => rfl
  | cons element elements inductionHypothesis =>
      rw [mergeAll_cons, inductionHypothesis, one, List.filter_cons]
      by_cases found : key element = wanted
      · rw [if_pos found, if_pos (decide_eq_true found), mergeAll_cons]
      · rw [if_neg found, if_neg (by simpa using found)]

/-- Elements with the key of the first one all go into it. -/
theorem mergeAll_of_key (keeps : ∀ first element, key (merge first element) = key first)
    {first : Element} {elements : List Element}
    (same : ∀ element ∈ elements, key element = key first) (rest : List Element) :
    mergeAll key merge (first :: rest) elements = elements.foldl merge first :: rest := by
  have all : elements.filter (key · = key first) = elements :=
    List.filter_eq_self.mpr fun element member => decide_eq_true (same element member)
  have none : elements.filter (key · ≠ key first) = [] :=
    List.filter_eq_nil_iff.mpr fun element member => by simpa using same element member
  rw [mergeAll_into_cons keeps, all, none, mergeAll_nil]

theorem isKnown_mergeFirst (keeps : ∀ first element, key (merge first element) = key first)
    (element : Element) (base : List Element) (wanted : Key) :
    IsKnown key (mergeFirst key merge element base) wanted ↔
      IsKnown key base wanted ∨ key element = wanted := by
  induction base with
  | nil => simp [IsKnown, mergeFirst]
  | cons first rest inductionHypothesis =>
      rw [mergeFirst, isKnown_cons]
      by_cases same : key first = key element
      · rw [if_pos same, isKnown_cons, keeps, ← same]
        tauto
      · rw [if_neg same, isKnown_cons, inductionHypothesis, or_assoc]

theorem length_mergeFirst (element : Element) (base : List Element) :
    (mergeFirst key merge element base).length =
      base.length + if IsKnown key base (key element) then 0 else 1 := by
  induction base with
  | nil => simp [mergeFirst, IsKnown]
  | cons first rest inductionHypothesis =>
      rw [mergeFirst]
      by_cases same : key first = key element
      · simp [same, isKnown_cons]
      · rw [if_neg same, List.length_cons, inductionHypothesis]
        simp only [isKnown_cons, same, false_or, List.length_cons]
        omega

/-- The elements whose keys are not known are put behind the sequence. -/
theorem length_mergeAll (keeps : ∀ first element, key (merge first element) = key first)
    (base elements : List Element)
    (distinct : elements.Pairwise fun one other => key one = key other →
      IsKnown key base (key one)) :
    (mergeAll key merge base elements).length =
      base.length + elements.countP fun element => ¬ IsKnown key base (key element) := by
  induction elements generalizing base with
  | nil => rfl
  | cons element elements inductionHypothesis =>
      rw [List.pairwise_cons] at distinct
      have known := isKnown_mergeFirst keeps element base
      have later : elements.Pairwise fun one other => key one = key other →
          IsKnown key (mergeFirst key merge element base) (key one) :=
        distinct.2.imp fun listed same => (known _).mpr (.inl (listed same))
      have same : (elements.countP fun other =>
            ¬ IsKnown key (mergeFirst key merge element base) (key other)) =
          elements.countP fun other => ¬ IsKnown key base (key other) := by
        refine List.countP_congr fun other member => ?_
        have absorbed : key element = key other → IsKnown key base (key other) := fun equal =>
          equal ▸ distinct.1 other member equal
        simp only [decide_eq_true_eq, known]
        tauto
      rw [mergeAll_cons, inductionHypothesis _ later, same, length_mergeFirst, List.countP_cons]
      by_cases listed : IsKnown key base (key element)
      · simp [listed]
      · simp only [listed, if_false, not_false_eq_true, decide_true, if_true]
        omega

/-- Two sequences are the same up to order if their elements with each key are. -/
theorem perm_iff_filter_key [DecidableEq Element] (key : Element → Key) (xs ys : List Element) :
    xs.Perm ys ↔
      ∀ wanted, (xs.filter (key · = wanted)).Perm (ys.filter (key · = wanted)) := by
  constructor
  · intro perm wanted
    exact perm.filter _
  · intro perms
    rw [List.perm_iff_count]
    intro element
    have own := (perms (key element)).count_eq element
    rwa [List.count_filter (by simp), List.count_filter (by simp)] at own

/-- A map that tells the keys apart, on elements of one kind, commutes with merging. -/
theorem map_mergeAll (otherKey : Other → OtherKey) (otherMerge : Other → Other → Other)
    (f : Element → Other) (kind : Element → Prop)
    (keys : ∀ first element, kind first → kind element →
      (key first = key element ↔ otherKey (f first) = otherKey (f element)))
    (merges : ∀ first element, f (merge first element) = otherMerge (f first) (f element))
    (kept : ∀ first element, kind first → kind (merge first element))
    (base elements : List Element) (baseKind : ∀ first ∈ base, kind first)
    (elementsKind : ∀ element ∈ elements, kind element) :
    (mergeAll key merge base elements).map f =
      mergeAll otherKey otherMerge (base.map f) (elements.map f) := by
  have one : ∀ element, kind element → ∀ base : List Element, (∀ first ∈ base, kind first) →
      (mergeFirst key merge element base).map f =
          mergeFirst otherKey otherMerge (f element) (base.map f) ∧
        ∀ first ∈ mergeFirst key merge element base, kind first := by
    intro element isKind base baseKind
    induction base with
    | nil => exact ⟨rfl, by simpa [mergeFirst] using isKind⟩
    | cons first rest inductionHypothesis =>
        rw [List.forall_mem_cons] at baseKind
        obtain ⟨maps, later⟩ := inductionHypothesis baseKind.2
        have same := keys first element baseKind.1 isKind
        by_cases equal : key first = key element
        · rw [mergeFirst, if_pos equal, List.map_cons, List.map_cons, mergeFirst,
            if_pos (same.mp equal), merges]
          exact ⟨rfl, List.forall_mem_cons.mpr ⟨kept first element baseKind.1, baseKind.2⟩⟩
        · rw [mergeFirst, if_neg equal, List.map_cons, List.map_cons, mergeFirst,
            if_neg (mt same.mpr equal), maps]
          exact ⟨rfl, List.forall_mem_cons.mpr ⟨baseKind.1, later⟩⟩
  induction elements generalizing base with
  | nil => rfl
  | cons element elements inductionHypothesis =>
      rw [List.forall_mem_cons] at elementsKind
      obtain ⟨maps, merged⟩ := one element elementsKind.1 base baseKind
      rw [mergeAll_cons, inductionHypothesis _ merged elementsKind.2, maps, List.map_cons,
        mergeAll_cons]

end SmartDnsPlusUi.Table
