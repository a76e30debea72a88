import SmartDnsPlusUi.Config.RulesReload
import SmartDnsPlusUi.Ui.RereadAssets

/-!
# The page's text carries the managed assets

A page that loaded parsed assets and whose configuration holds nothing else
writes a text.  The parser reads the same assets from it exactly when the line
of every asset is read back unchanged and none of these lines is continued.
-/

namespace SmartDnsPlusUi

open Text

/-- The nameserver rules moved to the front. -/
def ManagedAssets.nameserversFirst (assets : ManagedAssets) : ManagedAssets :=
  { assets with
    routingItems := assets.routingItems.filter (·.ruleType = "nameserver") ++
      assets.routingItems.filter (·.ruleType ≠ "nameserver") }

def ManagedRoutingItem.IsCarried (item : ManagedRoutingItem) : Prop :=
  if item.ruleType = "nameserver" then
    item.KeepsNameserver ∧
      endsWith '\\' (if item.value = [] then item.target else item.value) = false
  else item.KeepsEntry ∧ endsWith '\\' item.value = false

def ManagedIpRule.IsCarried (rule : ManagedIpRule) : Prop :=
  rule.groupName = [] ∧ rule.KeepsTarget ∧
    endsWith '\\' (if rule.options = [] then rule.target else rule.options) = false

def ManagedRuleGroup.IsCarried (group : ManagedRuleGroup) : Prop :=
  group.KeepsInherit ∧
    endsWith '\\' (if group.inherit = [] then group.name else group.inherit) = false ∧
    ∀ value ∈ group.matchers, endsWith '\\' value = false

/-- Client and IP rules stand outside the groups, the other lines are read back as
they were, and no line ends in a backslash. -/
structure ManagedAssets.IsCarried (assets : ManagedAssets) : Prop where
  domain_set : ∀ set ∈ assets.domainSets, set.KeepsOptions ∧ endsWith '\\' set.file = false
  ip_set : ∀ set ∈ assets.ipSets, set.KeepsOptions ∧ endsWith '\\' set.file = false
  routing : ∀ item ∈ assets.routingItems, item.IsCarried
  group : ∀ group ∈ assets.ruleGroups, group.IsCarried
  client : ∀ rule ∈ assets.clientRules, rule.groupName = [] ∧ endsWith '\\' rule.matcher = false
  ip : ∀ rule ∈ assets.ipRules, rule.IsCarried

/-- The line of every asset is read back unchanged. -/
structure ManagedAssets.KeepsAll (assets : ManagedAssets) : Prop where
  domain_set : ∀ set ∈ assets.domainSets, set.KeepsOptions
  ip_set : ∀ set ∈ assets.ipSets, set.KeepsOptions
  nameserver : ∀ item ∈ assets.routingItems, item.ruleType = "nameserver" → item.KeepsNameserver
  entry : ∀ item ∈ assets.routingItems, item.ruleType ≠ "nameserver" → item.KeepsEntry
  group : ∀ group ∈ assets.ruleGroups, group.KeepsInherit
  client : ∀ rule ∈ assets.clientRules, rule.groupName = []
  ip : ∀ rule ∈ assets.ipRules, rule.groupName = [] ∧ rule.KeepsTarget

/-! ### The lists, item by item -/

theorem flatMap_eq_self_iff {Item : Type} {f : Item → List Item} {items : List Item}
    (bounded : ∀ item ∈ items, (f item).length ≤ 1) :
    items.flatMap f = items ↔ ∀ item ∈ items, f item = [item] := by
  have single : items.flatMap (fun item => [item]) = items := by
    rw [← List.map_eq_flatMap, List.map_id']
  conv_lhs => rw [← single, List.flatMap_assoc]
  rw [flatMap_eq_iff (by simpa using bounded)]
  simp

theorem length_domainSetFrom_le (value : Text) : (domainSetFrom value).length ≤ 1 := by
  rw [domainSetFrom]
  split <;> simp

theorem length_ipSetFrom_le (value : Text) : (ipSetFrom value).length ≤ 1 := by
  rw [ipSetFrom]
  split <;> simp

theorem length_rereadNameserver_le (item : ManagedRoutingItem) :
    (rereadNameserver item).length ≤ 1 := by
  simp only [rereadNameserver]
  split <;> simp

/-- The two parts of the routing rules are told apart by their types. -/
theorem reread_routingItems_eq_iff (items : List ManagedRoutingItem) :
    (items.filter (·.ruleType = "nameserver")).flatMap rereadNameserver ++
        (items.filter (·.ruleType ≠ "nameserver")).map rereadRuleEntry =
      items.filter (·.ruleType = "nameserver") ++ items.filter (·.ruleType ≠ "nameserver") ↔
      (∀ item ∈ items, item.ruleType = "nameserver" → rereadNameserver item = [item]) ∧
        ∀ item ∈ items, item.ruleType ≠ "nameserver" → rereadRuleEntry item = item := by
  have lengths : ((items.filter (·.ruleType ≠ "nameserver")).map rereadRuleEntry).length =
      (items.filter (·.ruleType ≠ "nameserver")).length := List.length_map ..
  have split : (items.filter (·.ruleType = "nameserver")).flatMap rereadNameserver ++
        (items.filter (·.ruleType ≠ "nameserver")).map rereadRuleEntry =
      items.filter (·.ruleType = "nameserver") ++ items.filter (·.ruleType ≠ "nameserver") ↔
      (items.filter (·.ruleType = "nameserver")).flatMap rereadNameserver =
          items.filter (·.ruleType = "nameserver") ∧
        (items.filter (·.ruleType ≠ "nameserver")).map rereadRuleEntry =
          items.filter (·.ruleType ≠ "nameserver") :=
    ⟨fun same => List.append_inj' same lengths, fun both => by rw [both.1, both.2]⟩
  rw [split, map_eq_self_iff, flatMap_eq_self_iff fun item _ => length_rereadNameserver_le item]
  simp only [List.mem_filter, decide_eq_true_eq, and_imp]

theorem reread_eq_iff {assets : ManagedAssets} (parsed : IsParsed assets)
    (solid : ∀ item ∈ assets.routingItems, Solid item.target) :
    reread assets = assets.nameserversFirst ↔ assets.KeepsAll := by
  have domainSets : (assets.domainSets.flatMap fun set => domainSetFrom (domainSetArgument set)) =
      assets.domainSets ↔ ∀ set ∈ assets.domainSets, set.KeepsOptions := by
    rw [flatMap_eq_self_iff fun set _ => length_domainSetFrom_le _]
    refine forall₂_congr fun set membership => ?_
    obtain ⟨name, setType, file⟩ := parsed.domain_set set membership
    exact domainSetFrom_argument_eq_iff name setType file
  have ipSets : (assets.ipSets.flatMap fun set => ipSetFrom (ipSetArgument set)) =
      assets.ipSets ↔ ∀ set ∈ assets.ipSets, set.KeepsOptions := by
    rw [flatMap_eq_self_iff fun set _ => length_ipSetFrom_le _]
    refine forall₂_congr fun set membership => ?_
    obtain ⟨name, file⟩ := parsed.ip_set set membership
    exact ipSetFrom_argument_eq_iff name file
  have groups : assets.ruleGroups.map rereadGroup = assets.ruleGroups ↔
      ∀ group ∈ assets.ruleGroups, group.KeepsInherit := by
    rw [map_eq_self_iff]
    exact forall₂_congr fun group membership => rereadGroup_eq_iff (parsed.group group membership)
  have clients : assets.clientRules.map (fun rule => ⟨trim rule.matcher, []⟩) =
      assets.clientRules ↔ ∀ rule ∈ assets.clientRules, rule.groupName = [] := by
    rw [map_eq_self_iff]
    exact forall₂_congr fun rule membership => rereadClientRule_eq_iff parsed membership
  have ipRules : assets.ipRules.map rereadIpRule = assets.ipRules ↔
      ∀ rule ∈ assets.ipRules, rule.groupName = [] ∧ rule.KeepsTarget := by
    rw [map_eq_self_iff]
    exact forall₂_congr fun rule membership => rereadIpRule_eq_iff parsed membership
  have nameserver : (∀ item ∈ assets.routingItems, item.ruleType = "nameserver" →
      rereadNameserver item = [item]) ↔
        ∀ item ∈ assets.routingItems, item.ruleType = "nameserver" → item.KeepsNameserver :=
    forall₂_congr fun item membership => imp_congr_right fun _ =>
      rereadNameserver_eq_iff (solid item membership) (isRoutingPair_of_mem parsed membership)
  have entry : (∀ item ∈ assets.routingItems, item.ruleType ≠ "nameserver" →
      rereadRuleEntry item = item) ↔
        ∀ item ∈ assets.routingItems, item.ruleType ≠ "nameserver" → item.KeepsEntry :=
    forall₂_congr fun item membership => imp_congr_right fun _ =>
      rereadRuleEntry_eq_iff (solid item membership) (isRoutingPair_of_mem parsed membership)
  rw [reread, ManagedAssets.nameserversFirst, ManagedAssets.mk.injEq, groups, clients, ipRules,
    reread_routingItems_eq_iff, nameserver, entry, domainSets, ipSets]
  constructor
  · rintro ⟨group, client, ip, ⟨first, second⟩, domainSet, ipSet⟩
    exact ⟨domainSet, ipSet, first, second, group, client, ip⟩
  · rintro ⟨domainSet, ipSet, first, second, group, client, ip⟩
    exact ⟨group, client, ip, ⟨first, second⟩, domainSet, ipSet⟩

/-! ### Where the lines end -/

theorem endsWith_trim_gapped (suffix : Char) (target : Text) {value : Text}
    (trimmed : Trimmed value) :
    endsWith suffix (trim (target ++ gapped value)) =
      if value = [] then endsWith suffix (trim target) else endsWith suffix value := by
  unfold gapped
  split
  · rw [List.append_nil]
  · rw [endsWith_trim_append suffix target (by rwa [trim_space_cons, trim_eq_self trimmed]),
      trim_space_cons, trim_eq_self trimmed]

theorem endsWith_nameserverLine {item : ManagedRoutingItem}
    (routing : assetKeyword item.ruleType = .routing) (solid : Solid item.target)
    (trimmed : Trimmed item.value) :
    endsWith '\\' (trim (nameserverLine item)) =
      endsWith '\\' (if item.value = [] then item.target else item.value) := by
  obtain ⟨keyword, absent⟩ := isKeyword_of_assetKeyword (routing.trans_ne (by decide))
  rw [nameserverLine_eq, endsWith_trim_keyed keyword.token absent, nameserverArgument]
  split
  · rw [trim_eq_self solid.trimmed]
  · rw [← List.singleton_append, ← List.append_assoc, endsWith_trim_append '\\' _
      (by rwa [trim_eq_self trimmed]), trim_eq_self trimmed]

theorem endsWith_ruleEntryLine {item : ManagedRoutingItem}
    (routing : assetKeyword item.ruleType = .routing) (solid : Solid item.target)
    (trimmed : Trimmed item.value) :
    endsWith '\\' (trim (ruleEntryLine item)) = endsWith '\\' item.value := by
  obtain ⟨keyword, absent⟩ := isKeyword_of_assetKeyword (routing.trans_ne (by decide))
  have shape : ∃ target, ruleEntryArgument item = target ++ gapped item.value ∧ Solid target ∧
      endsWith '/' target = true := by
    cases ends : endsWith '/' item.target with
    | true => exact ⟨item.target, ruleEntryArgument_of_closed ends, solid, ends⟩
    | false =>
        have slashSolid : Solid (item.target ++ ['/']) :=
          (solid_append _ _).mpr ⟨solid, by decide⟩
        refine ⟨item.target ++ ['/'], ?_, slashSolid, ?_⟩
        · rw [ruleEntryArgument_of_open ends, List.append_assoc, List.singleton_append]
        · rw [endsWith_append _ _ (by simp)]
          rfl
  obtain ⟨target, equality, targetSolid, closed⟩ := shape
  have stops : endsWith '\\' target = false := by
    rw [endsWith, beq_iff_eq] at closed
    rw [endsWith, closed]
    rfl
  rw [ruleEntryLine_eq, endsWith_trim_keyed keyword.token absent, equality,
    endsWith_trim_gapped '\\' target trimmed, trim_eq_self targetSolid.trimmed, stops]
  split
  · rw [show item.value = [] by assumption, endsWith_nil]
  · rfl

theorem endsWith_ipRuleLine {assets : ManagedAssets} (parsed : IsParsed assets)
    {rule : ManagedIpRule} (membership : rule ∈ assets.ipRules)
    (ipRule : assetKeyword rule.ruleType = .ipRule) :
    endsWith '\\' (trim (ipRuleLine rule)) =
      endsWith '\\' (if rule.options = [] then rule.target else rule.options) := by
  obtain ⟨keyword, absent⟩ := isKeyword_of_assetKeyword (ipRule.trans_ne (by decide))
  obtain ⟨argument, trimmed, split⟩ := parsed.ip rule membership
  have options := trimmed_splitTargetOptions argument
  have target := splitTargetOptions_target trimmed
  simp only [split] at options target
  rw [ipRuleLine_eq_keyed, endsWith_trim_keyed keyword.token absent, ipRuleArgument_eq,
    endsWith_trim_gapped '\\' _ options]
  by_cases empty : rule.options = []
  · rw [if_pos empty, if_pos empty, target empty, trim_eq_self trimmed]
  · rw [if_neg empty, if_neg empty]

theorem endsWith_groupBeginLine {group : ManagedRuleGroup} (parsed : IsParsedGroup group) :
    endsWith '\\' (trim (groupBeginLine group)) =
      endsWith '\\' (if group.inherit = [] then group.name else group.inherit) := by
  rw [groupBeginLine_eq, endsWith_trim_keyed (by decide) (by decide), groupBeginArgument]
  split
  · rw [trim_eq_self parsed.name.trimmed]
  · rw [endsWith_trim_append '\\' _ (by rwa [trim_eq_self parsed.inherit.trimmed]),
      trim_eq_self parsed.inherit.trimmed]

/-- A keyword followed by a trimmed argument ends where the argument ends. -/
theorem endsWith_keyed {key : String} (token : IsToken key.toList) (absent : '\\' ∉ key.toList)
    {argument : Text} (trimmed : Trimmed argument) :
    endsWith '\\' (trim (keyed key argument)) = endsWith '\\' argument := by
  rw [endsWith_trim_keyed token absent, trim_eq_self trimmed]

theorem forall_writtenGroupLines_iff {group : ManagedRuleGroup} (parsed : IsParsedGroup group) :
    (∀ line ∈ writtenGroupLines group, endsWith '\\' (trim line) = false) ↔
      endsWith '\\' (if group.inherit = [] then group.name else group.inherit) = false ∧
        ∀ value ∈ group.matchers, endsWith '\\' value = false := by
  have last : endsWith '\\' (trim ("group-end" : Text)) = false := by decide
  have matchers : (∀ line ∈ group.matchers.map (keyed "group-match"),
      endsWith '\\' (trim line) = false) ↔ ∀ value ∈ group.matchers, endsWith '\\' value = false := by
    rw [List.forall_mem_map]
    refine forall₂_congr fun value membership => ?_
    rw [endsWith_keyed (by decide) (by decide) (parsed.matchers value membership).1]
  rw [writtenGroupLines, List.cons_append, List.forall_mem_cons, List.forall_mem_append, matchers,
    endsWith_groupBeginLine parsed, List.forall_mem_singleton, last]
  simp

theorem forall_nameserverLines_iff {item : ManagedRoutingItem}
    (routing : assetKeyword item.ruleType = .routing) (solid : Solid item.target)
    (trimmed : Trimmed item.value) (keeps : item.KeepsNameserver) :
    (∀ line ∈ nameserverLines item, endsWith '\\' (trim line) = false) ↔
      endsWith '\\' (if item.value = [] then item.target else item.value) = false := by
  obtain ⟨nonempty, same, -⟩ := keeps
  simp only [nameserverLines, same, if_neg nonempty, List.forall_mem_singleton]
  rw [endsWith_nameserverLine routing solid trimmed]

theorem isCarried_iff {assets : ManagedAssets} (parsed : IsParsed assets)
    (single : IsSingleLine assets) (solid : ∀ item ∈ assets.routingItems, Solid item.target) :
    assets.IsCarried ↔
      assets.KeepsAll ∧ ∀ line ∈ writtenLines assets, endsWith '\\' (trim line) = false := by
  have domainSets : (∀ line ∈ assets.domainSets.map domainSetLine,
      endsWith '\\' (trim line) = false) ↔
        ∀ set ∈ assets.domainSets, endsWith '\\' set.file = false := by
    rw [List.forall_mem_map]
    refine forall₂_congr fun set membership => ?_
    rw [endsWith_domainSetLine (parsed.domain_set set membership).2.2]
  have ipSets : (∀ line ∈ assets.ipSets.map ipSetLine, endsWith '\\' (trim line) = false) ↔
      ∀ set ∈ assets.ipSets, endsWith '\\' set.file = false := by
    rw [List.forall_mem_map]
    refine forall₂_congr fun set membership => ?_
    rw [endsWith_ipSetLine (parsed.ip_set set membership).2]
  have entry : (∀ line ∈ (assets.routingItems.filter (·.ruleType ≠ "nameserver")).map ruleEntryLine,
      endsWith '\\' (trim line) = false) ↔
        ∀ item ∈ assets.routingItems, item.ruleType ≠ "nameserver" →
          endsWith '\\' item.value = false := by
    simp only [List.forall_mem_map, List.mem_filter, decide_eq_true_eq, and_imp]
    refine forall₂_congr fun item membership => imp_congr_right fun _ => ?_
    rw [endsWith_ruleEntryLine (single.routing_type item membership) (solid item membership)
      (isRoutingPair_of_mem parsed membership).trimmed]
  have groups : (∀ line ∈ assets.ruleGroups.flatMap writtenGroupLines,
      endsWith '\\' (trim line) = false) ↔ ∀ group ∈ assets.ruleGroups,
        endsWith '\\' (if group.inherit = [] then group.name else group.inherit) = false ∧
          ∀ value ∈ group.matchers, endsWith '\\' value = false := by
    rw [List.forall_mem_flatMap]
    exact forall₂_congr fun group membership =>
      forall_writtenGroupLines_iff (parsed.group group membership)
  have clients : (∀ line ∈ assets.clientRules.map clientRuleLine,
      endsWith '\\' (trim line) = false) ↔
        ∀ rule ∈ assets.clientRules, endsWith '\\' rule.matcher = false := by
    rw [List.forall_mem_map]
    refine forall₂_congr fun rule membership => ?_
    rw [clientRuleLine, endsWith_keyed (by decide) (by decide) (parsed.client rule membership).1]
  have ipRules : (∀ line ∈ assets.ipRules.map ipRuleLine, endsWith '\\' (trim line) = false) ↔
      ∀ rule ∈ assets.ipRules,
        endsWith '\\' (if rule.options = [] then rule.target else rule.options) = false := by
    rw [List.forall_mem_map]
    refine forall₂_congr fun rule membership => ?_
    rw [endsWith_ipRuleLine parsed membership (single.ip_type rule membership)]
  have nameserver : (∀ item ∈ assets.routingItems, item.ruleType = "nameserver" →
      item.KeepsNameserver) → ((∀ line ∈
        (assets.routingItems.filter (·.ruleType = "nameserver")).flatMap nameserverLines,
        endsWith '\\' (trim line) = false) ↔
          ∀ item ∈ assets.routingItems, item.ruleType = "nameserver" →
            endsWith '\\' (if item.value = [] then item.target else item.value) = false) := by
    intro keeps
    rw [List.forall_mem_flatMap]
    simp only [List.mem_filter, decide_eq_true_eq, and_imp]
    exact forall₂_congr fun item membership => forall_congr' fun key =>
      forall_nameserverLines_iff (single.routing_type item membership) (solid item membership)
        (isRoutingPair_of_mem parsed membership).trimmed (keeps item membership key)
  simp only [writtenLines, List.forall_mem_append, domainSets, ipSets, entry, groups, clients,
    ipRules]
  constructor
  · intro carried
    have first : ∀ item ∈ assets.routingItems, item.ruleType = "nameserver" →
        item.KeepsNameserver ∧
          endsWith '\\' (if item.value = [] then item.target else item.value) = false := by
      intro item membership key
      simpa [ManagedRoutingItem.IsCarried, key] using carried.routing item membership
    have second : ∀ item ∈ assets.routingItems, item.ruleType ≠ "nameserver" →
        item.KeepsEntry ∧ endsWith '\\' item.value = false := by
      intro item membership key
      simpa [ManagedRoutingItem.IsCarried, key] using carried.routing item membership
    have keeps : assets.KeepsAll :=
      { domain_set := fun set membership => (carried.domain_set set membership).1
        ip_set := fun set membership => (carried.ip_set set membership).1
        nameserver := fun item membership key => (first item membership key).1
        entry := fun item membership key => (second item membership key).1
        group := fun group membership => (carried.group group membership).1
        client := fun rule membership => (carried.client rule membership).1
        ip := fun rule membership =>
          ⟨(carried.ip rule membership).1, (carried.ip rule membership).2.1⟩ }
    rw [nameserver keeps.nameserver]
    exact ⟨keeps, ⟨⟨⟨⟨⟨fun set membership => (carried.domain_set set membership).2,
      fun set membership => (carried.ip_set set membership).2⟩,
      fun item membership key => (first item membership key).2⟩,
      fun item membership key => (second item membership key).2⟩,
      fun group membership => (carried.group group membership).2⟩,
      fun rule membership => (carried.client rule membership).2⟩,
      fun rule membership => (carried.ip rule membership).2.2⟩
  · rintro ⟨keeps, plain⟩
    rw [nameserver keeps.nameserver] at plain
    obtain ⟨⟨⟨⟨⟨⟨domainSet, ipSet⟩, first⟩, second⟩, group⟩, client⟩, ip⟩ := plain
    refine ⟨fun set membership => ⟨keeps.domain_set set membership, domainSet set membership⟩,
      fun set membership => ⟨keeps.ip_set set membership, ipSet set membership⟩, ?_,
      fun each membership => ⟨keeps.group each membership, group each membership⟩,
      fun rule membership => ⟨keeps.client rule membership, client rule membership⟩,
      fun rule membership => ⟨(keeps.ip rule membership).1, (keeps.ip rule membership).2,
        ip rule membership⟩⟩
    intro item membership
    unfold ManagedRoutingItem.IsCarried
    split
    · exact ⟨keeps.nameserver item membership (by assumption), first item membership (by assumption)⟩
    · exact ⟨keeps.entry item membership (by assumption), second item membership (by assumption)⟩

/-! ### Accounting for backslashes -/

theorem isWritable_parse (text : Text) : IsWritable (parseManagedAssetsFromText text) where
  toIsSingleLine := isSingleLine_parse text
  set_type := fun set membership => ((isParsed_parse text).domain_set set membership).2.1.1
  group := by
    intro group membership
    have parsed := (isParsed_parse text).group group membership
    exact ⟨parsed.name.no_newline, parsed.inherit.no_newline,
      fun value own => (parsed.matchers value own).2⟩
  client := fun rule membership => ((isParsed_parse text).client rule membership).2

theorem countIn_nameserverLines_le (item : ManagedRoutingItem)
    (keyword : '\\' ∉ item.ruleType.toList) :
    countIn '\\' (nameserverLines item) ≤ item.backslashes := by
  have shorter := (scriptTrim_isInfix item.target).sublist.count_le '\\'
  simp only [nameserverLines]
  split
  · simp
  · rw [countIn_cons, countIn_nil, 
      count_nameserverLine { item with target := scriptTrim item.target } keyword]
    simp only [ManagedRoutingItem.backslashes]
    omega

theorem countIn_writtenGroupLines (group : ManagedRuleGroup) :
    countIn '\\' (writtenGroupLines group) = group.backslashes := by
  have option : (" -inherit " : Text).count '\\' = 0 := by decide
  have last : ("group-end" : Text).count '\\' = 0 := by decide
  have argument : (groupBeginArgument group).count '\\' =
      group.name.count '\\' + group.inherit.count '\\' := by
    unfold groupBeginArgument
    by_cases empty : group.inherit = []
    · simp [empty]
    · rw [if_neg empty, List.count_append, List.count_append, option, Nat.add_zero]
  have matchers : countIn '\\' (group.matchers.map (keyed "group-match")) =
      countIn '\\' group.matchers := by
    rw [countIn_map]
    exact total_congr _ fun value _ => count_backslash_keyed (by decide) value
  rw [writtenGroupLines, List.cons_append, countIn_cons, countIn_append, countIn_cons, countIn_nil,
    groupBeginLine_eq, count_backslash_keyed (by decide), argument, matchers, last,
    ManagedRuleGroup.backslashes]
  rfl

theorem total_backslashes_split (items : List ManagedRoutingItem) :
    total (·.backslashes) (items.filter (·.ruleType = "nameserver")) +
        total (·.backslashes) (items.filter (·.ruleType ≠ "nameserver")) =
      total (·.backslashes) items := by
  have split := total_filter ManagedRoutingItem.backslashes
    (fun item => decide (item.ruleType = "nameserver")) items
  simp only [← decide_not] at split
  exact split

/-- The written lines hold no backslash that the assets do not hold. -/
theorem countIn_writtenLines_le {assets : ManagedAssets} (single : IsSingleLine assets) :
    countIn '\\' (writtenLines assets) ≤ assets.allBackslashes := by
  have routing : ∀ item ∈ assets.routingItems, '\\' ∉ item.ruleType.toList :=
    fun item membership => (isKeyword_of_assetKeyword
      ((single.routing_type item membership).trans_ne (by decide))).2
  have ip : ∀ rule ∈ assets.ipRules, '\\' ∉ rule.ruleType.toList := fun rule membership =>
    (isKeyword_of_assetKeyword ((single.ip_type rule membership).trans_ne (by decide))).2
  have split := total_backslashes_split assets.routingItems
  have first : countIn '\\' ((assets.routingItems.filter
      (·.ruleType = "nameserver")).flatMap nameserverLines) ≤
        total (·.backslashes) (assets.routingItems.filter (·.ruleType = "nameserver")) := by
    rw [countIn, total_flatMap]
    exact total_le fun item membership =>
      countIn_nameserverLines_le item (routing item (List.mem_filter.mp membership).1)
  have second : total (fun item => (ruleEntryLine item).count '\\')
      (assets.routingItems.filter (·.ruleType ≠ "nameserver")) =
        total (·.backslashes) (assets.routingItems.filter (·.ruleType ≠ "nameserver")) :=
    total_congr _ fun item membership =>
      count_ruleEntryLine item (routing item (List.mem_filter.mp membership).1)
  have third := total_congr assets.ipRules fun rule membership =>
    rule.core.count_line (ip rule membership)
  have groups : countIn '\\' (assets.ruleGroups.flatMap writtenGroupLines) =
      total (·.backslashes) assets.ruleGroups := by
    rw [countIn, total_flatMap]
    exact total_congr _ fun group _ => countIn_writtenGroupLines group
  have client : '\\' ∉ "client-rules".toList := by decide
  have clients := total_congr assets.clientRules fun rule (_ : rule ∈ assets.clientRules) =>
    count_backslash_keyed client rule.matcher
  have sets := countIn_setPage assets
  simp only [countIn_append, countIn_map] at sets
  simp only [writtenLines, countIn_append, countIn_map, groups, second, ipRuleLine_eq, third,
    clientRuleLine, clients, ManagedAssets.allBackslashes, ManagedAssets.backslashes]
  omega

theorem allBackslashes_nameserversFirst (assets : ManagedAssets) :
    assets.nameserversFirst.allBackslashes = assets.allBackslashes := by
  have split := total_backslashes_split assets.routingItems
  simp only [ManagedAssets.nameserversFirst, ManagedAssets.allBackslashes,
    ManagedAssets.backslashes, total_append]
  omega

/-- A text from which all assets are read has no continued line. -/
theorem plain_of_carried {state : UiState} (adds : state.AddsNothing)
    (writable : IsWritable state.managed)
    (carried : parseManagedAssetsFromText (buildManagedText state) =
      state.managed.nameserversFirst) :
    ∀ line ∈ writtenLines state.managed, endsWith '\\' (trim line) = false := by
  intro line membership
  by_contra ends
  rw [Bool.not_eq_false] at ends
  have content := contentOf_buildManagedText adds writable
  have lost := countIn_logicalLines_lt (content ▸ List.mem_map_of_mem membership) ends
  have read := allBackslashes_parse_le (buildManagedText state)
  have written := countIn_writtenLines_le writable.toIsSingleLine
  rw [content, countIn_map_trim (by simp)] at lost
  rw [carried, allBackslashes_nameserversFirst] at read
  omega

/-! ### What is carried -/

/-- Where the routing targets are free of white space, the page's text carries parsed
assets exactly when they are carried item by item. -/
theorem buildManagedText_carries_iff {state : UiState} {text : Text}
    (loaded : state.managed = parseManagedAssetsFromText text) (adds : state.AddsNothing)
    (solid : ∀ item ∈ state.managed.routingItems, Solid item.target) :
    parseManagedAssetsFromText (buildManagedText state) = state.managed.nameserversFirst ↔
      state.managed.IsCarried := by
  have writable : IsWritable state.managed := loaded ▸ isWritable_parse text
  have parsed : IsParsed state.managed := loaded ▸ isParsed_parse text
  rw [isCarried_iff parsed writable.toIsSingleLine solid]
  constructor
  · intro carried
    have plain := plain_of_carried adds writable carried
    rw [parse_buildManagedText adds writable plain, reread_eq_iff parsed solid] at carried
    exact ⟨carried, plain⟩
  · rintro ⟨keeps, plain⟩
    rw [parse_buildManagedText adds writable plain, reread_eq_iff parsed solid]
    exact keeps

def carriedAssets : ManagedAssets :=
  { clientRules := [⟨"10.0.0.1", []⟩], routingItems := [⟨"nameserver", "/a", "b"⟩] }

theorem buildManagedText_carries_example :
    parseManagedAssetsFromText (buildManagedText { managed := carriedAssets }) =
      carriedAssets.nameserversFirst := by
  have loaded : carriedAssets =
      parseManagedAssetsFromText "client-rules 10.0.0.1\nnameserver /a/b" := by decide
  have carried : carriedAssets.IsCarried :=
    { domain_set := by simp [carriedAssets]
      ip_set := by simp [carriedAssets]
      routing := List.forall_mem_singleton.mpr
        ⟨⟨by decide, by decide, by decide, by decide⟩, by decide⟩
      group := by simp [carriedAssets]
      client := List.forall_mem_singleton.mpr ⟨rfl, by decide⟩
      ip := by simp [carriedAssets] }
  exact (@buildManagedText_carries_iff { managed := carriedAssets } _ loaded
    ⟨by simp, by simp⟩ (List.forall_mem_singleton.mpr (by decide))).mpr carried

/-- The client rule of a group is written behind the groups and loses its group. -/
theorem not_buildManagedText_carries :
    ¬ ∀ (state : UiState) (text : Text), state.managed = parseManagedAssetsFromText text →
      state.ruleSetAssets = [] → state.routingItems = [] → state.deleted = [] →
      (∀ item ∈ state.managed.routingItems,
        (Solid item.target ∧ '/' ∉ item.target.tail.dropLast) ∧ '/' ∉ item.value) →
      parseManagedAssetsFromText (buildManagedText state) = state.managed.nameserversFirst := by
  intro all
  let state : UiState :=
    { managed :=
        { ruleGroups := [⟨"kids", [], []⟩], clientRules := [⟨"10.0.0.1", "kids"⟩] } }
  have loaded : state.managed =
      parseManagedAssetsFromText "group-begin kids\nclient-rules 10.0.0.1\ngroup-end" := by
    decide
  have writable : IsWritable state.managed := loaded ▸ isWritable_parse _
  have carried := all state _ loaded rfl rfl rfl (by simp [state])
  rw [parse_buildManagedText ⟨by simp [state], by simp [state]⟩ writable (by decide)] at carried
  have clients := congrArg ManagedAssets.clientRules carried
  revert clients
  decide

end SmartDnsPlusUi
