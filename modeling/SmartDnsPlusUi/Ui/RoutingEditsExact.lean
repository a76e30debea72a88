import Mathlib.Data.List.Perm.Basic
import SmartDnsPlusUi.Ui.RoutingEdits

/-!
# Which edits of the routing page stick

The arrows always do.  The line of a deleted rule is still there when another
rule is written alike, or when a managed rule is also among the detected ones; an
edit is lost with the copy that it changes; and a drop removes the managed rules
of other types.
-/

namespace SmartDnsPlusUi

open Text

/-! ### New orders -/

theorem perm_swapAt {Item : Type} (index : Nat) (list : List Item) :
    (swapAt index list).Perm list := by
  induction index, list using swapAt.induct with
  | case1 first second rest => exact List.Perm.swap first second rest
  | case2 index first rest inductionHypothesis => exact inductionHypothesis.cons first
  | case3 index list notZero notSucc => rw [swapAt] <;> assumption

theorem perm_moveTo {Item : Type} {source target : Nat} {list : List Item}
    (inside : source < list.length) (inside' : target < list.length) :
    (moveTo source target list).Perm list := by
  have erased : (list.eraseIdx source).length = list.length - 1 := List.length_eraseIdx_of_lt inside
  rw [moveTo, List.getElem?_eq_getElem inside]
  exact (List.perm_insertIdx _ _ (by omega)).trans (List.getElem_cons_eraseIdx_perm inside)

theorem perm_reordered {state : UiState} {action : RoutingAction}
    (offered : IsOffered state action) :
    (reordered (allRoutingItems state) action).Perm (allRoutingItems state) := by
  cases action with
  | delete shown => exact List.Perm.refl _
  | edit shown ruleType target value => exact List.Perm.refl _
  | moveUp index =>
      simp only [reordered]
      split
      · exact perm_swapAt _ _
      · exact List.Perm.refl _
  | moveDown index =>
      simp only [reordered]
      split
      · exact perm_swapAt _ _
      · exact List.Perm.refl _
  | drop source target =>
      simp only [reordered]
      split
      · exact List.Perm.refl _
      · exact perm_moveTo offered.1 offered.2

theorem asNameserver_of_mem {state : UiState} {shown : ShownRule}
    (membership : shown ∈ allRoutingItems state) : asNameserver shown = shown.rule := by
  have key : shown.rule.ruleType = "nameserver" := by
    simp only [allRoutingItems, mergedRoutingItems, List.mem_append, List.mem_map] at membership
    rcases membership with ⟨rule, inManaged, rfl⟩ | ⟨rule, inUnseen, rfl⟩
    · simpa using (List.mem_filter.mp inManaged).2
    · have inFilter := (List.mem_filter.mp (mem_of_mem_unseen inUnseen)).2
      simp only [List.mem_singleton, decide_eq_true_eq] at inFilter
      exact inFilter.1
  rw [asNameserver, ← key]

section Reorder

variable {state : UiState} (list : List ShownRule)

theorem map_asNameserver {list : List ShownRule} (perm : list.Perm (allRoutingItems state)) :
    list.map asNameserver = list.map (·.rule) :=
  List.map_congr_left fun _ membership => asNameserver_of_mem (perm.subset membership)

variable (plain : state.TypesPlain) (rest : List ManagedRoutingItem)
  (others : ∀ rule ∈ rest, rule.ruleType ≠ "nameserver" ∧ '|' ∉ rule.ruleType.toList ∧
    ' ' ∉ rule.ruleType.toList)
include plain others

theorem typesPlain_reordered :
    (state.setRoutingItems (list.map asNameserver ++ rest)).TypesPlain := by
  refine ⟨fun rule membership => ?_, plain.ip⟩
  simp only [UiState.setRoutingItems, List.mem_append, List.mem_map] at membership
  rcases membership with (⟨shown, -, rfl⟩ | inRest) | inDetected
  · show '|' ∉ "nameserver".toList ∧ ' ' ∉ "nameserver".toList
    decide
  · exact (others rule inRest).2
  · exact plain.routing rule (List.mem_append_right _ inDetected)

/-- Every detected nameserver rule is shown, so the new list is all of them. -/
theorem nameserverItems_reordered (perm : list.Perm (allRoutingItems state)) :
    (state.setRoutingItems (list.map asNameserver ++ rest)).nameserverItems =
      list.map (·.rule) := by
  have noOthers : rest.filter (decide <| ·.ruleType = "nameserver") = [] := by
    rw [List.filter_eq_nil_iff]
    intro rule membership
    simpa using (others rule membership).1
  have all : (list.map (·.rule)).filter (decide <| ·.ruleType = "nameserver") =
      list.map (·.rule) := by
    rw [List.filter_eq_self]
    intro rule membership
    obtain ⟨shown, inList, rfl⟩ := List.mem_map.mp membership
    rw [decide_eq_true_eq, ← asNameserver_of_mem (perm.subset inList), asNameserver]
  rw [UiState.nameserverItems_eq (typesPlain_reordered list plain rest others), UiState.itemsOf]
  simp only [UiState.setRoutingItems, map_asNameserver perm, List.filter_append,
    noOthers, all, List.append_nil]
  rw [unseen_of_seen, List.append_nil]
  intro rule membership
  have shown : routingKey rule ∈ state.nameserverItems.map routingKey := by
    rw [UiState.nameserverItems_eq plain, UiState.itemsOf, List.map_append, List.mem_append]
    exact key_mem_or_mem_unseen _ rule membership
  rw [← map_rule_allRoutingItems plain] at shown
  exact ((perm.map (·.rule)).map routingKey).mem_iff.mpr shown

theorem otherItems_reordered :
    (state.setRoutingItems (list.map asNameserver ++ rest)).otherItems =
      rest ++ unseen routingKey (rest.map routingKey)
        (state.detected.filter (·.ruleType ≠ "nameserver")) := by
  have none : (list.map asNameserver).filter (decide <| ·.ruleType ≠ "nameserver") = [] := by
    rw [List.filter_eq_nil_iff]
    intro rule membership
    obtain ⟨shown, -, rfl⟩ := List.mem_map.mp membership
    simp [asNameserver]
  have all : rest.filter (decide <| ·.ruleType ≠ "nameserver") = rest := by
    rw [List.filter_eq_self]
    intro rule membership
    simpa using (others rule membership).1
  rw [UiState.otherItems_eq (typesPlain_reordered list plain rest others), UiState.itemsOf]
  simp only [UiState.setRoutingItems, List.filter_append, none, all, List.nil_append]
  rfl

end Reorder

theorem perm_nameserverRuleLines {state other : UiState}
    (perm : state.nameserverItems.Perm other.nameserverItems) :
    (nameserverRuleLines state).Perm (nameserverRuleLines other) :=
  perm.flatMap_right _

namespace UiState

/-- The managed rules of other types, which the arrows keep. -/
def managedOthers (state : UiState) : List ManagedRoutingItem :=
  state.managed.routingItems.filter (·.ruleType ≠ "nameserver")

/-- The detected rules of other types, each key that was not seen once. -/
def detectedOthers (state : UiState) (seen : List Text) : List ManagedRoutingItem :=
  unseen routingKey seen (state.detected.filter (·.ruleType ≠ "nameserver"))

end UiState

theorem managedOthers_plain {state : UiState} (plain : state.TypesPlain) :
    ∀ rule ∈ state.managedOthers, rule.ruleType ≠ "nameserver" ∧
      '|' ∉ rule.ruleType.toList ∧ ' ' ∉ rule.ruleType.toList := by
  intro rule membership
  obtain ⟨inManaged, key⟩ := List.mem_filter.mp membership
  exact ⟨of_decide_eq_true key, plain.routing rule (List.mem_append_left _ inManaged)⟩

theorem syncRoutingFromList_does {state : UiState} (plain : state.TypesPlain)
    {list : List ShownRule} (perm : list.Perm (allRoutingItems state)) :
    otherRuleLines (syncRoutingFromList state list) = otherRuleLines state ∧
      (nameserverRuleLines (syncRoutingFromList state list)).Perm (nameserverRuleLines state) ∧
        (syncRoutingFromList state list).nameserverItems = list.map (·.rule) := by
  have items := nameserverItems_reordered list plain _ (managedOthers_plain plain) perm
  have others := otherItems_reordered list plain _ (managedOthers_plain plain)
  refine ⟨?_, perm_nameserverRuleLines ?_, items⟩
  · rw [otherRuleLines, otherRuleLines, UiState.otherItems_eq plain]
    exact congrArg _ others
  · apply List.Perm.trans (List.Perm.of_eq items)
    rw [← map_rule_allRoutingItems plain]
    exact perm.map _

theorem dropRoutingList_does {state : UiState} (plain : state.TypesPlain)
    {list : List ShownRule} (perm : list.Perm (allRoutingItems state)) :
    (nameserverRuleLines (dropRoutingList state list)).Perm (nameserverRuleLines state) ∧
      (dropRoutingList state list).nameserverItems = list.map (·.rule) := by
  have items := nameserverItems_reordered list plain [] (by simp) perm
  rw [List.append_nil] at items
  refine ⟨perm_nameserverRuleLines ?_, items⟩
  rw [dropRoutingList, items, ← map_rule_allRoutingItems plain]
  exact perm.map _

/-- The rules of other types have the lines that they have without the managed ones. -/
def OthersStay (state : UiState) : Prop :=
  (state.managedOthers ++ state.detectedOthers (state.managedOthers.map routingKey)).map
      ruleEntryLine = (state.detectedOthers []).map ruleEntryLine

/-- Detected rules that start with the managed ones stand in for them. -/
theorem othersStay_of_front {state : UiState}
    (front : state.managedOthers <+: state.detectedOthers []) : OthersStay state :=
  congrArg (List.map ruleEntryLine) ((append_unseen_eq_iff _ _).mpr front)

theorem dropRoutingList_others_iff {state : UiState} (plain : state.TypesPlain)
    (list : List ShownRule) :
    otherRuleLines (dropRoutingList state list) = otherRuleLines state ↔ OthersStay state := by
  have items := otherItems_reordered list plain [] (by simp)
  rw [List.append_nil, List.nil_append] at items
  rw [otherRuleLines, otherRuleLines, dropRoutingList, items, UiState.otherItems_eq plain]
  exact eq_comm

/-! ### Deleting -/

theorem ruleType_of_mem_allRoutingItems {state : UiState} {shown : ShownRule}
    (membership : shown ∈ allRoutingItems state) : shown.rule.ruleType = "nameserver" := by
  rw [← asNameserver_of_mem membership]
  rfl

section Delete

variable {state : UiState} (plain : state.TypesPlain) {shown : ShownRule}

theorem managed_removeRoutingRule :
    (removeRoutingRule state shown).managed.routingItems =
      state.managed.routingItems.filter (routingKey · ≠ routingKey shown.rule) := by
  simp only [removeRoutingRule, UiState.markRoutingDeleted]
  split
  · split <;> rfl
  · rfl

theorem routingItems_removeRoutingRule :
    (removeRoutingRule state shown).routingItems = state.routingItems := by
  simp only [removeRoutingRule, UiState.markRoutingDeleted]
  split
  · split <;> rfl
  · rfl

theorem ipRules_removeRoutingRule :
    (removeRoutingRule state shown).managed.ipRules = state.managed.ipRules := by
  simp only [removeRoutingRule, UiState.markRoutingDeleted]
  split
  · split <;> rfl
  · rfl

theorem mem_deleted_removeRoutingRule {key : Text} :
    key ∈ (removeRoutingRule state shown).deleted ↔
      key ∈ state.deleted ∨ shown.src = .mainConfig ∧ key = routingKey shown.rule := by
  unfold removeRoutingRule UiState.markRoutingDeleted
  by_cases source : shown.src = .mainConfig
  · by_cases present : routingKey shown.rule ∈ state.deleted
    · simp only [source, UiState.setRoutingItems, present, if_true, true_and]
      exact ⟨.inl, fun either => either.elim id fun same => same ▸ present⟩
    · simp [source, UiState.setRoutingItems, present]
  · simp [source, UiState.setRoutingItems]

/-- The managed nameserver rules that are left. -/
theorem mem_managed_removeRoutingRule {rule : ManagedRoutingItem} :
    rule ∈ (removeRoutingRule state shown).managed.routingItems.filter
        (·.ruleType = "nameserver") ↔
      rule ∈ state.managed.routingItems.filter (·.ruleType = "nameserver") ∧
        routingKey rule ≠ routingKey shown.rule := by
  rw [managed_removeRoutingRule, List.mem_filter, List.mem_filter, List.mem_filter,
    decide_eq_true_eq]
  tauto

/-- The detected rules of another key are as before. -/
theorem find?_detected_removeRoutingRule {key : Text} (other : key ≠ routingKey shown.rule) :
    ((removeRoutingRule state shown).detected.filter (·.ruleType = "nameserver")).find?
        (routingKey · = key) =
      (state.detected.filter (·.ruleType = "nameserver")).find? (routingKey · = key) := by
  rw [← List.head?_filter, ← List.head?_filter, UiState.detected, UiState.detected,
    routingItems_removeRoutingRule]
  simp only [List.filter_filter]
  congr 1
  refine List.filter_congr fun rule _ => ?_
  by_cases same : routingKey rule = key
  · have distinct : routingKey rule ≠ routingKey shown.rule := same ▸ other
    simp [mem_deleted_removeRoutingRule, distinct]
  · simp [same]

include plain

theorem typesPlain_removeRoutingRule : (removeRoutingRule state shown).TypesPlain := by
  refine ⟨fun rule membership => ?_, ?_⟩
  · rw [managed_removeRoutingRule, routingItems_removeRoutingRule] at membership
    rcases List.mem_append.mp membership with inManaged | inDetected
    · exact plain.routing rule (List.mem_append_left _ (List.mem_filter.mp inManaged).1)
    · exact plain.routing rule (List.mem_append_right _ inDetected)
  · rw [ipRules_removeRoutingRule]
    exact plain.ip

variable (offered : shown ∈ allRoutingItems state)
include offered

/-- A rule with the key of a shown rule is a nameserver rule. -/
theorem nameserver_of_routingKey {rule : ManagedRoutingItem}
    (membership : rule ∈ state.managed.routingItems ++ state.routingItems)
    (same : routingKey rule = routingKey shown.rule) : rule.ruleType = "nameserver" := by
  have key := ruleType_of_mem_allRoutingItems offered
  have free : '|' ∉ shown.rule.ruleType.toList := by
    rw [key]
    decide
  rw [← key]
  exact ruleType_eq_of_routingKey (plain.routing rule membership).1 free same

theorem otherItems_removeRoutingRule :
    (removeRoutingRule state shown).otherItems = state.otherItems := by
  have managed : (state.managed.routingItems.filter
      (routingKey · ≠ routingKey shown.rule)).filter (·.ruleType ≠ "nameserver") =
        state.managed.routingItems.filter (·.ruleType ≠ "nameserver") := by
    rw [List.filter_filter]
    refine List.filter_congr fun rule membership => ?_
    by_cases key : rule.ruleType = "nameserver"
    · simp [key]
    · have distinct : routingKey rule ≠ routingKey shown.rule := fun same =>
        key (nameserver_of_routingKey plain offered (List.mem_append_left _ membership) same)
      simp [key, distinct]
  have detected : (removeRoutingRule state shown).detected.filter (·.ruleType ≠ "nameserver") =
      state.detected.filter (·.ruleType ≠ "nameserver") := by
    rw [UiState.detected, UiState.detected, routingItems_removeRoutingRule, List.filter_filter,
      List.filter_filter]
    refine List.filter_congr fun rule membership => ?_
    by_cases key : rule.ruleType = "nameserver"
    · simp [key]
    · have distinct : routingKey rule ≠ routingKey shown.rule := fun same =>
        key (nameserver_of_routingKey plain offered (List.mem_append_right _ membership) same)
      simp [key, mem_deleted_removeRoutingRule, distinct]
  rw [UiState.otherItems_eq (typesPlain_removeRoutingRule plain), UiState.otherItems_eq plain,
    UiState.itemsOf, UiState.itemsOf, managed_removeRoutingRule]
  simp only [managed, detected]

/-- What is written of the key of the deleted rule: the first detected rule that has it, unless
the deletion was marked. -/
theorem find?_detected_of_key :
    ((removeRoutingRule state shown).detected.filter (·.ruleType = "nameserver")).find?
        (routingKey · = routingKey shown.rule) =
      if shown.src = .mainConfig then none
      else state.detected.find? (routingKey · = routingKey shown.rule) := by
  rw [← List.head?_filter]
  split_ifs with source
  · rw [List.head?_eq_none_iff, List.filter_eq_nil_iff]
    intro rule membership
    have notDeleted := (List.mem_filter.mp (List.mem_filter.mp membership).1).2
    simp only [decide_eq_true_eq, mem_deleted_removeRoutingRule, not_or] at notDeleted
    intro same
    exact notDeleted.2.2 ⟨source, of_decide_eq_true same⟩
  · have same : (removeRoutingRule state shown).detected = state.detected := by
      rw [UiState.detected, UiState.detected, routingItems_removeRoutingRule]
      simp [mem_deleted_removeRoutingRule, source]
    rw [same, ← List.head?_filter, List.filter_filter]
    congr 1
    refine List.filter_congr fun rule membership => ?_
    by_cases equal : routingKey rule = routingKey shown.rule
    · have type := nameserver_of_routingKey plain offered
        (List.mem_append_right _ (List.mem_filter.mp membership).1) equal
      simp [equal, type]
    · simp [equal]

/-- The rules that are written after the deletion. -/
theorem mem_nameserverItems_removeRoutingRule_iff {rule : ManagedRoutingItem} :
    rule ∈ (removeRoutingRule state shown).nameserverItems ↔
      rule ∈ state.nameserverItems ∧ routingKey rule ≠ routingKey shown.rule ∨
        shown.src ≠ .mainConfig ∧ routingKey rule = routingKey shown.rule ∧
          state.detected.find? (routingKey · = routingKey shown.rule) = some rule := by
  rw [UiState.nameserverItems_eq (typesPlain_removeRoutingRule plain),
    UiState.nameserverItems_eq plain, UiState.itemsOf, UiState.itemsOf, List.mem_append,
    List.mem_append, mem_unseen_iff, mem_unseen_iff, List.mem_map, List.mem_map,
    mem_managed_removeRoutingRule]
  by_cases same : routingKey rule = routingKey shown.rule
  · have none : ¬ ∃ other ∈ (removeRoutingRule state shown).managed.routingItems.filter
        (decide <| ·.ruleType = "nameserver"), routingKey other = routingKey rule := by
      rintro ⟨other, inManaged, equal⟩
      exact (mem_managed_removeRoutingRule.mp inManaged).2 (equal.trans same)
    have found := find?_detected_of_key plain offered
    rw [same] at none ⊢
    simp only [none, not_false_eq_true, true_and, found, ne_eq, not_true_eq_false, and_false,
      false_or]
    split_ifs with source
    · simp [source]
    · simp [source]
  · have seen : (∃ other ∈ (removeRoutingRule state shown).managed.routingItems.filter
        (decide <| ·.ruleType = "nameserver"), routingKey other = routingKey rule) ↔
        ∃ other ∈ state.managed.routingItems.filter (decide <| ·.ruleType = "nameserver"),
          routingKey other = routingKey rule := by
      refine exists_congr fun other => ?_
      rw [mem_managed_removeRoutingRule, and_assoc]
      refine and_congr_right fun _ => and_iff_right_of_imp fun equal => ?_
      exact fun key => same (equal.symm.trans key)
    rw [seen, find?_detected_removeRoutingRule same]
    tauto

end Delete

/-! ### What sticks -/

/-- A deleted rule had no line, or no rule that stays is written like it: neither one of
another key, nor, where it was a managed rule, the first detected rule of its key.  An edited
rule had no line and its new form is written already.  A drop finds that the rules of other
types do not need the managed ones. -/
def Sticks (state : UiState) : RoutingAction → Prop
  | .delete shown =>
      nameserverLines shown.rule = [] ∨
        (∀ rule ∈ state.nameserverItems, nameserverLines rule = nameserverLines shown.rule →
          routingKey rule = routingKey shown.rule) ∧
        (shown.src = .mainConfig ∨
          ∀ rule, state.detected.find? (routingKey · = routingKey shown.rule) = some rule →
            nameserverLines rule ≠ nameserverLines shown.rule)
  | .edit shown ruleType target value =>
      nameserverLines shown.rule = [] ∧
        Renders state ⟨ruleType, scriptTrim target, scriptTrim value⟩
  | .moveUp _ | .moveDown _ => True
  | .drop source target => source = target ∨ OthersStay state

theorem renders_shown_iff {state : UiState} (plain : state.TypesPlain) {shown : ShownRule}
    (offered : shown ∈ allRoutingItems state) :
    Renders state shown.rule ↔ nameserverLines shown.rule ≠ [] := by
  have membership : shown.rule ∈ state.nameserverItems := by
    rw [← map_rule_allRoutingItems plain]
    exact List.mem_map_of_mem offered
  rw [renders_nameserver_iff plain (ruleType_of_mem_allRoutingItems offered)]
  exact and_iff_left ⟨shown.rule, membership, rfl⟩

/-- Exactly when a deleted rule is gone from the text. -/
theorem not_renders_removeRoutingRule_iff {state : UiState} (plain : state.TypesPlain)
    {shown : ShownRule} (offered : shown ∈ allRoutingItems state) :
    ¬ Renders (removeRoutingRule state shown) shown.rule ↔ Sticks state (.delete shown) := by
  rw [renders_nameserver_iff (typesPlain_removeRoutingRule plain)
    (ruleType_of_mem_allRoutingItems offered), Sticks, not_and_or, not_not]
  refine or_congr_right ?_
  simp only [mem_nameserverItems_removeRoutingRule_iff plain offered]
  constructor
  · intro gone
    constructor
    · intro rule membership same
      by_contra other
      exact gone ⟨rule, .inl ⟨membership, other⟩, same⟩
    · refine or_iff_not_imp_left.mpr fun managed rule found same => ?_
      have key : routingKey rule = routingKey shown.rule :=
        of_decide_eq_true (List.find?_eq_some_iff_append.mp found).1
      exact gone ⟨rule, .inr ⟨managed, key, found⟩, same⟩
  · rintro ⟨others, first⟩ ⟨rule, ⟨membership, other⟩ | ⟨managed, -, found⟩, same⟩
    · exact other (others rule membership same)
    · exact first.resolve_left managed rule found same

/-- No action touches anything but the routing rules and the deleted keys. -/
theorem otherSections_performRouting (state : UiState) (action : RoutingAction) :
    otherSections (performRouting state action) = otherSections state := by
  cases action with
  | delete shown =>
      simp only [performRouting, removeRoutingRule, UiState.markRoutingDeleted]
      split
      · split <;> rfl
      · rfl
  | edit shown ruleType target value => rfl
  | moveUp index => rfl
  | moveDown index => rfl
  | drop source target =>
      simp only [performRouting]
      split <;> rfl

theorem doesWhatItShows_iff {state : UiState} (plain : state.TypesPlain) {action : RoutingAction}
    (offered : IsOffered state action) : DoesWhatItShows state action ↔ Sticks state action := by
  have perm := perm_reordered offered
  have sections := otherSections_performRouting state action
  cases action with
  | delete shown =>
      have others : otherRuleLines (removeRoutingRule state shown) = otherRuleLines state :=
        congrArg (List.map ruleEntryLine) (otherItems_removeRoutingRule plain offered)
      refine (and_iff_right sections).trans ((and_iff_right others).trans ?_)
      exact not_renders_removeRoutingRule_iff plain offered
  | edit shown ruleType target value =>
      simp only [DoesWhatItShows, performRouting, saveEditedRule, Sticks, true_and]
      rw [renders_shown_iff plain offered, not_not, and_comm]
  | moveUp index => exact iff_of_true ⟨sections, syncRoutingFromList_does plain perm⟩ trivial
  | moveDown index => exact iff_of_true ⟨sections, syncRoutingFromList_does plain perm⟩ trivial
  | drop source target =>
      refine (and_iff_right sections).trans ?_
      simp only [performRouting, Sticks, reordered] at perm ⊢
      by_cases same : source = target
      · simp only [same, if_true, true_or, iff_true]
        exact ⟨trivial, List.Perm.refl _, (map_rule_allRoutingItems plain).symm⟩
      · simp only [same, if_false, false_or] at perm ⊢
        rw [dropRoutingList_others_iff plain]
        exact and_iff_left (dropRoutingList_does plain perm)

/-- The first of two managed rules is dropped on the second, and the managed address rule is
also the first of the detected ones. -/
theorem doesWhatItShows_example :
    DoesWhatItShows
      { managed :=
          { routingItems :=
              [⟨"nameserver", "/a", "g"⟩, ⟨"nameserver", "/b", "g"⟩, ⟨"address", "/c", "#"⟩] }
        routingItems := [⟨"address", "/c", "#"⟩, ⟨"cname", "/d", "e"⟩] }
      (.drop 0 1) := by
  refine (doesWhatItShows_iff ⟨by decide, by decide⟩ ?_).mpr (.inr (othersStay_of_front ?_))
  · exact ⟨by decide, by decide⟩
  · exact ⟨[⟨"cname", "/d", "e"⟩], rfl⟩

/-- A drop removes a managed address rule. -/
theorem not_doesWhatItShows :
    ¬ ∀ (state : UiState) (action : RoutingAction), state.TypesPlain → IsOffered state action →
      DoesWhatItShows state action := by
  intro all
  have shows := all
    { managed :=
        { routingItems :=
            [⟨"nameserver", "/a", "g"⟩, ⟨"nameserver", "/b", "g"⟩, ⟨"address", "/c", "#"⟩] } }
    (.drop 0 1) ⟨by decide, by decide⟩ ⟨by decide, by decide⟩
  have others := shows.2.1
  revert others
  decide

end SmartDnsPlusUi
