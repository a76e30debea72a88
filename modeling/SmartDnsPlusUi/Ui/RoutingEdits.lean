import SmartDnsPlusUi.Config.AssetPages
import SmartDnsPlusUi.Ui.ManagedText

/-!
# Edits of the routing page

The page shows a merged copy of the managed nameserver rules and of the detected
ones, and each handler writes back in its own way: through a key, through the
copy, or by replacing the managed list.
-/

namespace SmartDnsPlusUi

open Text

/-- The `_src` of a shown rule. -/
inductive RuleSource where
  | managed
  | mainConfig
  deriving DecidableEq

structure ShownRule where
  rule : ManagedRoutingItem
  src : RuleSource
  deriving DecidableEq

def mergedRoutingItems (state : UiState) (types : List String) : List ShownRule :=
  let managed := state.managed.routingItems.filter (·.ruleType ∈ types)
  managed.map (⟨·, .managed⟩) ++
    (unseen routingKey (managed.map routingKey)
      (state.routingItems.filter fun rule =>
        rule.ruleType ∈ types ∧ routingKey rule ∉ state.deleted)).map (⟨·, .mainConfig⟩)

def allRoutingItems (state : UiState) : List ShownRule := mergedRoutingItems state ["nameserver"]

namespace UiState

def setRoutingItems (state : UiState) (items : List ManagedRoutingItem) : UiState :=
  { state with managed := { state.managed with routingItems := items } }

def markRoutingDeleted (state : UiState) (rule : ManagedRoutingItem) : UiState :=
  if routingKey rule ∈ state.deleted then state
  else { state with deleted := state.deleted ++ [routingKey rule] }

end UiState

def removeRoutingRule (state : UiState) (shown : ShownRule) : UiState :=
  let kept := state.setRoutingItems
    (state.managed.routingItems.filter (routingKey · ≠ routingKey shown.rule))
  if shown.src = .mainConfig then kept.markRoutingDeleted shown.rule else kept

/-- The handler of the save button: it changes the shown copy, and the page is
rendered again from a state that has not changed. -/
def saveEditedRule (state : UiState) (shown : ShownRule) (ruleType : String)
    (target value : Text) : UiState × ShownRule :=
  (state, { shown with rule := ⟨ruleType, scriptTrim target, scriptTrim value⟩ })

def asNameserver (shown : ShownRule) : ManagedRoutingItem :=
  { shown.rule with ruleType := "nameserver" }

/-- What the arrows write back: the list in its new order and the other managed
rules. -/
def syncRoutingFromList (state : UiState) (list : List ShownRule) : UiState :=
  state.setRoutingItems
    (list.map asNameserver ++ state.managed.routingItems.filter (·.ruleType ≠ "nameserver"))

/-- What a drop writes back. -/
def dropRoutingList (state : UiState) (list : List ShownRule) : UiState :=
  state.setRoutingItems (list.map asNameserver)

/-- `[list[i], list[i+1]] = [list[i+1], list[i]]`. -/
def swapAt {Item : Type} : Nat → List Item → List Item
  | 0, first :: second :: rest => second :: first :: rest
  | index + 1, first :: rest => first :: swapAt index rest
  | _, list => list

/-- `list.splice(source, 1)`, then `list.splice(target, 0, moved)`. -/
def moveTo {Item : Type} (source target : Nat) (list : List Item) : List Item :=
  match list[source]? with
  | some moved => (list.eraseIdx source).insertIdx target moved
  | none => list

inductive RoutingAction where
  | delete (shown : ShownRule)
  | edit (shown : ShownRule) (ruleType : String) (target value : Text)
  | moveUp (index : Nat)
  | moveDown (index : Nat)
  | drop (source target : Nat)

/-- The shown list in the order that the action gives it. -/
def reordered (list : List ShownRule) : RoutingAction → List ShownRule
  | .moveUp index => if 0 < index then swapAt (index - 1) list else list
  | .moveDown index => if index < list.length - 1 then swapAt index list else list
  | .drop source target => if source = target then list else moveTo source target list
  | _ => list

def performRouting (state : UiState) (action : RoutingAction) : UiState :=
  match action with
  | .delete shown => removeRoutingRule state shown
  | .edit shown ruleType target value => (saveEditedRule state shown ruleType target value).1
  | .moveUp _ | .moveDown _ => syncRoutingFromList state (reordered (allRoutingItems state) action)
  | .drop source target =>
      if source = target then state
      else dropRoutingList state (reordered (allRoutingItems state) action)

/-- The action is one that the shown list offers. -/
def IsOffered (state : UiState) : RoutingAction → Prop
  | .delete shown | .edit shown _ _ _ => shown ∈ allRoutingItems state
  | .moveUp index | .moveDown index => index < (allRoutingItems state).length
  | .drop source target =>
      source < (allRoutingItems state).length ∧ target < (allRoutingItems state).length

/-! ### What the text renders -/

/-- The lines that the text gives a rule. -/
def ruleLines (rule : ManagedRoutingItem) : List Text :=
  if rule.ruleType = "nameserver" then nameserverLines rule else [ruleEntryLine rule]

/-- The lines of the section of nameserver rules. -/
def nameserverRuleLines (state : UiState) : List Text :=
  state.nameserverItems.flatMap nameserverLines

/-- The lines of the section of other rules. -/
def otherRuleLines (state : UiState) : List Text := state.otherItems.map ruleEntryLine

/-- A line of the text reads like one of the rule's own, whichever rule it was written for. -/
def Renders (state : UiState) (rule : ManagedRoutingItem) : Prop :=
  ∃ line ∈ ruleLines rule, line ∈ managedTextLines state

/-- What the text is written from besides the routing rules. -/
def otherSections (state : UiState) : ManagedAssets × List ManagedDomainSet :=
  ({ state.managed with routingItems := [] }, state.ruleSetAssets)

/-- The action does what it shows, and leaves the lines of everything else alone. -/
def DoesWhatItShows (state : UiState) (action : RoutingAction) : Prop :=
  otherSections (performRouting state action) = otherSections state ∧
    otherRuleLines (performRouting state action) = otherRuleLines state ∧
    match action with
    | .delete shown => ¬ Renders (performRouting state action) shown.rule
    | .edit shown ruleType target value =>
        Renders (performRouting state action)
            (saveEditedRule state shown ruleType target value).2.rule ∧
          ¬ Renders (performRouting state action) shown.rule
    | _ =>
        (nameserverRuleLines (performRouting state action)).Perm (nameserverRuleLines state) ∧
          (performRouting state action).nameserverItems =
            (reordered (allRoutingItems state) action).map (·.rule)

/-! ### The two sections apart -/

/-- The types of rules come from fixed lists: those of routing rules contain no bar and no
space, and those of IP rules no space. -/
structure UiState.TypesPlain (state : UiState) : Prop where
  routing : ∀ rule ∈ state.managed.routingItems ++ state.routingItems,
    '|' ∉ rule.ruleType.toList ∧ ' ' ∉ rule.ruleType.toList
  ip : ∀ rule ∈ state.managed.ipRules, ' ' ∉ rule.ruleType.toList ∧ rule.ruleType ≠ "nameserver"

/-- The key of a rule starts with its type. -/
theorem ruleType_eq_of_routingKey {rule other : ManagedRoutingItem}
    (plain : '|' ∉ rule.ruleType.toList) (plain' : '|' ∉ other.ruleType.toList)
    (same : routingKey rule = routingKey other) : rule.ruleType = other.ruleType := by
  have type : ∀ rule : ManagedRoutingItem, '|' ∉ rule.ruleType.toList →
      (routingKey rule).takeWhile (· ≠ '|') = rule.ruleType.toList := by
    intro rule free
    rw [routingKey, List.takeWhile_append_of_pos]
    · simp
    · intro c membership
      rw [decide_eq_true_eq]
      rintro rfl
      exact free membership
  have types := congrArg (List.takeWhile (· ≠ '|')) same
  rw [type rule plain, type other plain'] at types
  exact String.toList_inj.mp types

namespace UiState

/-- The detected rules that the text can take. -/
def detected (state : UiState) : List ManagedRoutingItem :=
  state.routingItems.filter fun rule =>
    rule.ruleType ≠ "domain-set" ∧ routingKey rule ∉ state.deleted

/-- The rules of the selected types, first the managed ones. -/
def itemsOf (state : UiState) (selects : String → Bool) : List ManagedRoutingItem :=
  let managed := state.managed.routingItems.filter (selects ·.ruleType)
  managed ++ unseen routingKey (managed.map routingKey)
    (state.detected.filter (selects ·.ruleType))

variable {state : UiState} (plain : state.TypesPlain)
include plain

theorem filter_allRoutingItems (selects : String → Bool) :
    state.allRoutingItems.filter (selects ·.ruleType) = state.itemsOf selects := by
  have managedPlain : ∀ rule ∈ state.managed.routingItems, '|' ∉ rule.ruleType.toList :=
    fun rule membership => (plain.routing rule (List.mem_append_left _ membership)).1
  have detectedPlain : ∀ rule ∈ state.detected, '|' ∉ rule.ruleType.toList :=
    fun rule membership =>
      (plain.routing rule (List.mem_append_right _ (List.mem_filter.mp membership).1)).1
  have byKey : ∀ rule ∈ state.detected, ∀ other ∈ state.detected,
      routingKey rule = routingKey other → selects rule.ruleType = selects other.ruleType := by
    intro rule inRules other inOthers same
    rw [ruleType_eq_of_routingKey (detectedPlain rule inRules) (detectedPlain other inOthers) same]
  have split : state.allRoutingItems = state.managed.routingItems ++
      unseen routingKey (state.managed.routingItems.map routingKey) state.detected := rfl
  rw [split, List.filter_append, filter_unseen _ byKey, itemsOf]
  congr 1
  refine unseen_congr fun rule membership => ?_
  obtain ⟨inDetected, selected⟩ := List.mem_filter.mp membership
  simp only [List.mem_map, List.mem_filter]
  constructor
  · rintro ⟨other, inManaged, same⟩
    have types := ruleType_eq_of_routingKey (managedPlain other inManaged)
      (detectedPlain rule inDetected) same
    exact ⟨other, ⟨inManaged, by rw [types, selected]⟩, same⟩
  · rintro ⟨other, ⟨inManaged, -⟩, same⟩
    exact ⟨other, inManaged, same⟩

theorem nameserverItems_eq : state.nameserverItems = state.itemsOf (· = "nameserver") :=
  filter_allRoutingItems plain (· = "nameserver")

theorem otherItems_eq : state.otherItems = state.itemsOf (· ≠ "nameserver") :=
  filter_allRoutingItems plain (· ≠ "nameserver")

end UiState

/-- The page shows the nameserver rules that the text takes, in their order. -/
theorem map_rule_allRoutingItems {state : UiState} (plain : state.TypesPlain) :
    (allRoutingItems state).map (·.rule) = state.nameserverItems := by
  have managed : state.managed.routingItems.filter (·.ruleType ∈ ["nameserver"]) =
      state.managed.routingItems.filter (·.ruleType = "nameserver") := by
    simp only [List.mem_singleton]
  have detected : (state.routingItems.filter fun rule =>
      rule.ruleType ∈ ["nameserver"] ∧ routingKey rule ∉ state.deleted) =
        state.detected.filter (·.ruleType = "nameserver") := by
    rw [UiState.detected, List.filter_filter]
    refine List.filter_congr fun rule _ => ?_
    by_cases key : rule.ruleType = "nameserver" <;> simp [key]
  rw [UiState.nameserverItems_eq plain, allRoutingItems, mergedRoutingItems, managed, detected]
  simp [UiState.itemsOf, Function.comp_def]

/-! ### The lines of the nameserver rules -/

def firstWord (line : Text) : Text := line.takeWhile (· ≠ ' ')

theorem head?_of_firstWord {line : Text} (word : firstWord line = "nameserver".toList) :
    line.head? = some 'n' := by
  cases line with
  | nil => cases word
  | cons c rest =>
      rw [firstWord, List.takeWhile_cons] at word
      split at word
      · exact congrArg List.head? word
      · cases word

theorem firstWord_keyed {key : String} (free : ' ' ∉ key.toList) (argument : Text) :
    firstWord (keyed key argument) = key.toList := by
  rw [firstWord, keyed, List.takeWhile_append_of_pos]
  · simp
  · intro c membership
    rw [decide_eq_true_eq]
    exact ne_of_mem_of_not_mem membership free

theorem firstWord_of_mem_nameserverLines {rule : ManagedRoutingItem}
    (key : rule.ruleType = "nameserver") {line : Text} (own : line ∈ nameserverLines rule) :
    firstWord line = "nameserver".toList := by
  have free : ' ' ∉ "nameserver".toList := by decide
  unfold nameserverLines at own
  dsimp only at own
  split at own
  · cases own
  · rw [List.mem_singleton.mp own, nameserverLine]
    dsimp only
    rw [key]
    split
    · exact firstWord_keyed free _
    · exact firstWord_keyed free _

theorem firstWord_ruleEntryLine {rule : ManagedRoutingItem} (free : ' ' ∉ rule.ruleType.toList) :
    firstWord (ruleEntryLine rule) = rule.ruleType.toList := by
  unfold ruleEntryLine
  dsimp only
  split
  · exact firstWord_keyed free _
  · exact firstWord_keyed free _

theorem firstWord_ipRuleLine {rule : ManagedIpRule} (free : ' ' ∉ rule.ruleType.toList) :
    firstWord (ipRuleLine rule) = rule.ruleType.toList := by
  unfold ipRuleLine
  split
  · exact firstWord_keyed free _
  · exact firstWord_keyed free _

/-- A title is a comment and an empty line closes a section. -/
theorem mem_titledSection_iff {Item : Type} (title : Text) (comment : title.head? = some '#')
    {itemLines : Item → List Text} {last : List Text} (closes : ∀ line ∈ last, line = [])
    {items : List Item} {line : Text} (start : line.head? = some 'n') :
    line ∈ titledSection title itemLines last items ↔ ∃ item ∈ items, line ∈ itemLines item := by
  have untitled : line ≠ title := by
    rintro rfl
    rw [comment] at start
    cases start
  have before : line ∉ last := by
    intro listed
    rw [closes line listed] at start
    cases start
  by_cases empty : items = []
  · simp [titledSection, empty]
  · simp [titledSection, empty, untitled, before]

theorem firstWord_of_mem_groupLines {group : ManagedRuleGroup} {line : Text}
    (own : line ∈ groupLines group) : firstWord line ≠ "nameserver".toList := by
  have named : ∀ {key : String} (argument : Text), ' ' ∉ key.toList → key ≠ "nameserver" →
      firstWord (keyed key argument) ≠ "nameserver".toList := by
    intro key argument free other
    rw [firstWord_keyed free]
    exact mt String.toList_inj.mp other
  simp only [groupLines, List.cons_append, List.mem_cons, List.mem_append, List.mem_map,
    List.not_mem_nil, or_false] at own
  rcases own with rfl | ⟨value, -, rfl⟩ | rfl | rfl
  · unfold groupBeginLine
    split
    · exact named _ (by decide) (by decide)
    · exact named _ (by decide) (by decide)
  · exact named _ (by decide) (by decide)
  · decide
  · decide

/-- No line of another section reads like one of a nameserver rule. -/
theorem mem_managedTextLines_iff {state : UiState} (plain : state.TypesPlain) {line : Text}
    (word : firstWord line = "nameserver".toList) :
    line ∈ managedTextLines state ↔ line ∈ nameserverRuleLines state := by
  have other : ∀ {shown : Text}, firstWord shown ≠ "nameserver".toList → line ≠ shown := by
    rintro shown different rfl
    exact different word
  have blank : ∀ shown ∈ [([] : Text)], shown = [] := fun _ => List.mem_singleton.mp
  have none : ∀ shown ∈ ([] : List Text), shown = [] := List.forall_mem_nil _
  have start : line.head? = some 'n' := head?_of_firstWord word
  have header : line ∉ managedTextHeader := by
    intro listed
    have all : ∀ shown ∈ managedTextHeader, shown.head? ≠ some 'n' := by simp [managedTextHeader]
    exact all line listed start
  have entries : ∀ rule ∈ state.otherItems, line ≠ ruleEntryLine rule := by
    intro rule membership
    obtain ⟨inAll, type⟩ := List.mem_filter.mp membership
    have listed : rule ∈ state.managed.routingItems ++ state.routingItems := by
      rcases List.mem_append.mp inAll with own | detected
      · exact List.mem_append_left _ own
      · exact List.mem_append_right _ (List.mem_filter.mp (mem_of_mem_unseen detected)).1
    apply other
    rw [firstWord_ruleEntryLine (plain.routing rule listed).2]
    exact mt String.toList_inj.mp (of_decide_eq_true type)
  have rules : ∀ rule ∈ state.managed.ipRules, line ≠ ipRuleLine rule := by
    intro rule membership
    apply other
    rw [firstWord_ipRuleLine (plain.ip rule membership).1]
    exact mt String.toList_inj.mp (plain.ip rule membership).2
  have noEntry : ¬ ∃ rule ∈ state.otherItems, line = ruleEntryLine rule := by
    rintro ⟨rule, membership, same⟩
    exact entries rule membership same
  have noRule : ¬ ∃ rule ∈ state.managed.ipRules, line = ipRuleLine rule := by
    rintro ⟨rule, membership, same⟩
    exact rules rule membership same
  have sets : ∀ set : ManagedDomainSet, line ≠ domainSetLine set := by
    intro set
    apply other
    rw [domainSetLine_eq, firstWord_keyed (by decide)]
    decide
  have ipSets : ∀ set : ManagedIpSet, line ≠ ipSetLine set := by
    intro set
    apply other
    rw [ipSetLine_eq, firstWord_keyed (by decide)]
    decide
  have groups : ∀ group : ManagedRuleGroup, line ∉ groupLines group :=
    fun group own => firstWord_of_mem_groupLines own word
  have clients : ∀ rule : ManagedClientRule, line ≠ clientRuleLine rule := by
    intro rule
    apply other
    rw [clientRuleLine, firstWord_keyed (by decide)]
    decide
  simp only [managedTextLines, List.mem_append, header, false_or,
    mem_titledSection_iff "# ── 域名集合 ──" rfl blank start,
    mem_titledSection_iff "# ── IP 集合 ──" rfl blank start,
    mem_titledSection_iff "# ── 分流 ──" rfl blank start,
    mem_titledSection_iff "# ── 规则 ──" rfl blank start,
    mem_titledSection_iff "# ── 规则组 ──" rfl none start,
    mem_titledSection_iff "# ── 客户端规则 ──" rfl blank start,
    mem_titledSection_iff "# ── IP 规则 ──" rfl blank start,
    List.mem_singleton, sets, ipSets, groups, clients, and_false, exists_false, or_false]
  rw [or_iff_left noRule, or_iff_left noEntry, nameserverRuleLines, List.mem_flatMap]

/-- A nameserver rule has one line or none. -/
theorem renders_nameserver_iff {state : UiState} (plain : state.TypesPlain)
    {rule : ManagedRoutingItem} (key : rule.ruleType = "nameserver") :
    Renders state rule ↔ nameserverLines rule ≠ [] ∧
      ∃ item ∈ state.nameserverItems, nameserverLines item = nameserverLines rule := by
  have shape : ∀ item : ManagedRoutingItem,
      nameserverLines item = [] ∨ ∃ line, nameserverLines item = [line] := by
    intro item
    unfold nameserverLines
    dsimp only
    split
    · exact .inl rfl
    · exact .inr ⟨_, rfl⟩
  have written : Renders state rule ↔
      ∃ line ∈ nameserverLines rule, line ∈ nameserverRuleLines state := by
    rw [Renders, ruleLines, if_pos key]
    refine exists_congr fun line => and_congr_right fun own => ?_
    exact mem_managedTextLines_iff plain (firstWord_of_mem_nameserverLines key own)
  rw [written]
  rcases shape rule with none | ⟨line, one⟩
  · simp [none]
  · rw [one, nameserverRuleLines]
    simp only [List.mem_singleton, exists_eq_left, List.mem_flatMap, ne_eq, List.cons_ne_nil,
      not_false_eq_true, true_and]
    refine exists_congr fun item => and_congr_right fun _ => ?_
    rcases shape item with none | ⟨other, same⟩
    · simp [none]
    · simp [same, eq_comm]

end SmartDnsPlusUi
