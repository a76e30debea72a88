import SmartDnsPlusUi.Config.RulesRoundTrip
import SmartDnsPlusUi.Config.ParsedAssets
import SmartDnsPlusUi.Ui.ManagedText

/-!
# Reading the page's rules text

When the detected lists add nothing, the content of the written text is one line
for each asset and three kinds of lines for each group.  Without a continued line
the parser reads each of them back on its own, as no group is left open.
-/

namespace SmartDnsPlusUi

open Text

/-! ### The written lines -/

/-- Every detected set and rule is a managed one already. -/
structure UiState.AddsNothing (state : UiState) : Prop where
  sets : ∀ asset ∈ state.ruleSetAssets, asset.name ∈ state.managed.domainSets.map (·.name)
  items : ∀ rule ∈ state.routingItems, rule.ruleType ≠ "domain-set" →
    routingKey rule ∈ state.managed.routingItems.map routingKey

theorem UiState.AddsNothing.allDomainSets_eq {state : UiState} (adds : state.AddsNothing) :
    state.allDomainSets = state.managed.domainSets := by
  rw [UiState.allDomainSets, unseen_of_seen adds.sets, List.map_nil, List.append_nil]

theorem UiState.AddsNothing.allRoutingItems_eq {state : UiState} (adds : state.AddsNothing) :
    state.allRoutingItems = state.managed.routingItems := by
  rw [UiState.allRoutingItems, unseen_of_seen, List.append_nil]
  intro rule membership
  simp only [List.mem_filter, decide_eq_true_eq] at membership
  exact adds.items rule membership.1 membership.2.1

/-- The lines of a group without the empty line after it. -/
def writtenGroupLines (group : ManagedRuleGroup) : List Text :=
  groupBeginLine group :: group.matchers.map (keyed "group-match") ++ [("group-end" : Text)]

/-- The lines of the text that are not titles, comments or empty. -/
def writtenLines (assets : ManagedAssets) : List Text :=
  assets.domainSets.map domainSetLine ++ assets.ipSets.map ipSetLine ++
    (assets.routingItems.filter (·.ruleType = "nameserver")).flatMap nameserverLines ++
    (assets.routingItems.filter (·.ruleType ≠ "nameserver")).map ruleEntryLine ++
    assets.ruleGroups.flatMap writtenGroupLines ++ assets.clientRules.map clientRuleLine ++
    assets.ipRules.map ipRuleLine

/-- The rules and sets are as `IsSingleLine` says, the types of the sets are
named, and no group or client rule contains a line feed. -/
structure IsWritable (assets : ManagedAssets) : Prop extends IsSingleLine assets where
  set_type : ∀ set ∈ assets.domainSets, set.setType ≠ []
  group : ∀ group ∈ assets.ruleGroups, '\n' ∉ group.name ∧ '\n' ∉ group.inherit ∧
    ∀ value ∈ group.matchers, '\n' ∉ value
  client : ∀ rule ∈ assets.clientRules, '\n' ∉ rule.matcher

/-- The argument of `groupBeginLine`. -/
def groupBeginArgument (group : ManagedRuleGroup) : Text :=
  if group.inherit = [] then group.name else group.name ++ (" -inherit " : Text) ++ group.inherit

theorem groupBeginLine_eq (group : ManagedRuleGroup) :
    groupBeginLine group = keyed "group-begin" (groupBeginArgument group) := by
  unfold groupBeginLine groupBeginArgument
  split <;> rfl

section Sections

variable {Item : Type} {title : Text} {itemLines : Item → List Text} {last : List Text}
  (banner : IsBanner title) (blank : ∀ line ∈ last, line = [])
include banner blank

theorem contentLines_titledSection (items : List Item) :
    contentLines (titledSection title itemLines last items) =
      contentLines (items.flatMap itemLines) := by
  have comment : contentLines [title] = [] := contentLines_of_skipped (by simp [banner.1])
  have closing : contentLines last = [] :=
    contentLines_of_skipped fun line membership => .inl (blank line membership)
  by_cases empty : items = []
  · simp [titledSection, empty]
  · rw [titledSection, if_neg empty, contentLines_append, contentLines_cons, comment, closing]
    simp

theorem not_mem_titledSection {items : List Item}
    (free : ∀ line ∈ items.flatMap itemLines, '\n' ∉ line) :
    ∀ line ∈ titledSection title itemLines last items, '\n' ∉ line := by
  intro line membership
  by_cases empty : items = []
  · simp [titledSection, empty] at membership
  · simp only [titledSection, if_neg empty, List.cons_append, List.mem_cons,
      List.mem_append] at membership
    rcases membership with rfl | listed | closing
    · exact banner.2
    · exact free line listed
    · simp [blank line closing]

end Sections

theorem contentLines_groupLines (group : ManagedRuleGroup) :
    contentLines (groupLines group) = contentLines (writtenGroupLines group) := by
  have blank : contentLines [[]] = [] := by decide
  have split : groupLines group = writtenGroupLines group ++ [[]] := by
    simp [groupLines, writtenGroupLines]
  rw [split, contentLines_append, blank, List.append_nil]

namespace IsWritable

variable {assets : ManagedAssets} (writable : IsWritable assets)
include writable

theorem isPageLine_nameserver : ∀ item ∈ assets.routingItems, ∀ line ∈ nameserverLines item,
    IsPageLine line := by
  intro item membership line own
  have keyword := (isKeyword_of_assetKeyword
    ((writable.routing_type item membership).trans_ne (by decide))).1
  obtain ⟨target, value⟩ := writable.routing item membership
  have trimmed : '\n' ∉ scriptTrim item.target := fun present =>
    target ((scriptTrim_isInfix item.target).subset present)
  simp only [nameserverLines] at own
  split at own
  · cases own
  · rw [List.mem_singleton.mp own]
    exact isPageLine_nameserverLine keyword trimmed value

theorem isPageLine_group : ∀ group ∈ assets.ruleGroups, ∀ line ∈ writtenGroupLines group,
    IsPageLine line := by
  intro group membership line own
  obtain ⟨name, inherited, matchers⟩ := writable.group group membership
  have option : '\n' ∉ (" -inherit " : Text) := by decide
  have argument : '\n' ∉ groupBeginArgument group := by
    unfold groupBeginArgument
    split
    · exact name
    · simp only [List.mem_append, not_or]
      exact ⟨⟨name, option⟩, inherited⟩
  simp only [writtenGroupLines, List.cons_append, List.mem_cons, List.mem_append, List.mem_map,
    List.not_mem_nil, or_false] at own
  rcases own with rfl | ⟨value, valueMem, rfl⟩ | rfl
  · rw [groupBeginLine_eq]
    exact isPageLine_keyed ⟨by decide, by decide⟩ argument
  · exact isPageLine_keyed ⟨by decide, by decide⟩ (matchers value valueMem)
  · exact ⟨⟨by decide, by decide, by decide⟩, by decide⟩

theorem isPageLine_written : ∀ line ∈ writtenLines assets, IsPageLine line := by
  intro line membership
  simp only [writtenLines, List.mem_append, List.mem_map, List.mem_flatMap,
    List.mem_filter] at membership
  rcases membership with
    (((((⟨set, setMem, rfl⟩ | ⟨set, setMem, rfl⟩) | ⟨item, itemMem, own⟩) |
      ⟨item, itemMem, rfl⟩) | ⟨group, groupMem, own⟩) | ⟨rule, ruleMem, rfl⟩) |
      ⟨rule, ruleMem, rfl⟩
  · obtain ⟨name, setType, file⟩ := writable.domain_set set setMem
    exact isPageLine_domainSetLine name setType file
  · obtain ⟨name, file⟩ := writable.ip_set set setMem
    exact isPageLine_ipSetLine name file
  · exact writable.isPageLine_nameserver item itemMem.1 line own
  · exact (writable.isPageLine_routing item itemMem.1).2
  · exact writable.isPageLine_group group groupMem line own
  · exact isPageLine_keyed ⟨by decide, by decide⟩ (writable.client rule ruleMem)
  · exact writable.isPageLine_ip rule ruleMem

end IsWritable

theorem isBanner_header : ∀ line ∈ managedTextHeader, IsBanner line := by
  simp [managedTextHeader, IsBanner]

/-- What the server's line readers see of the text. -/
theorem contentOf_buildManagedText {state : UiState} (adds : state.AddsNothing)
    (writable : IsWritable state.managed) :
    contentOf (buildManagedText state) = (writtenLines state.managed).map trim := by
  have pages := writable.isPageLine_written
  have header : contentLines managedTextHeader = [] :=
    contentLines_of_skipped fun line membership => (isBanner_header line membership).1
  have listed : state.allDomainSets.flatMap
      (fun set => [domainSetLine { set with setType := orList set.setType }]) =
        state.managed.domainSets.map domainSetLine := by
    rw [adds.allDomainSets_eq, ← List.map_eq_flatMap]
    refine List.map_congr_left fun set membership => ?_
    rw [orList, if_neg (writable.set_type set membership)]
  have groups : contentLines (state.managed.ruleGroups.flatMap groupLines) =
      contentLines (state.managed.ruleGroups.flatMap writtenGroupLines) := by
    simp only [contentLines_flatMap, contentLines_groupLines]
  have groupFree : ∀ line ∈ state.managed.ruleGroups.flatMap groupLines, '\n' ∉ line := by
    intro line membership
    obtain ⟨group, groupMem, own⟩ := List.mem_flatMap.mp membership
    have split : groupLines group = writtenGroupLines group ++ [[]] := by
      simp [groupLines, writtenGroupLines]
    rw [split, List.mem_append, List.mem_singleton] at own
    rcases own with written | rfl
    · exact (writable.isPageLine_group group groupMem line written).no_newline
    · simp
  have free : ∀ line ∈ writtenLines state.managed, '\n' ∉ line :=
    fun line membership => (pages line membership).no_newline
  simp only [writtenLines, List.mem_append, or_imp, forall_and] at free
  rw [buildManagedText_eq, contentOf_unlines, ← contentLines_eq_map_trim pages]
  · simp only [managedTextLines, UiState.nameserverItems, UiState.otherItems,
      adds.allRoutingItems_eq, contentLines_append, header]
    rw [contentLines_titledSection (by decide) (by simp),
      contentLines_titledSection (by decide) (by simp),
      contentLines_titledSection (by decide) (by simp),
      contentLines_titledSection (by decide) (by simp),
      contentLines_titledSection (by decide) (by simp),
      contentLines_titledSection (by decide) (by simp),
      contentLines_titledSection (by decide) (by simp), listed, groups]
    simp only [writtenLines, contentLines_append, ← List.map_eq_flatMap, List.nil_append]
  · simp only [managedTextLines, UiState.nameserverItems, UiState.otherItems,
      adds.allRoutingItems_eq, List.mem_append, or_imp, forall_and]
    obtain ⟨⟨⟨⟨⟨⟨sets, ipSets⟩, nameserver⟩, others⟩, -⟩, clients⟩, ipRules⟩ := free
    refine ⟨⟨⟨⟨⟨⟨⟨fun line membership => (isBanner_header line membership).2, ?_⟩, ?_⟩, ?_⟩, ?_⟩, ?_⟩, ?_⟩, ?_⟩ <;>
      refine not_mem_titledSection (by decide) (by simp) ?_
    · rwa [listed]
    · rwa [← List.map_eq_flatMap]
    · exact nameserver
    · rwa [← List.map_eq_flatMap]
    · exact groupFree
    · rwa [← List.map_eq_flatMap]
    · rwa [← List.map_eq_flatMap]

theorem directives_buildManagedText {state : UiState} (adds : state.AddsNothing)
    (writable : IsWritable state.managed)
    (plain : ∀ line ∈ writtenLines state.managed, endsWith '\\' (trim line) = false) :
    directives (buildManagedText state) = (writtenLines state.managed).map splitDirective := by
  have content := contentOf_buildManagedText adds writable
  rw [directives_eq_map, logicalLines_eq_contentOf, content, List.map_map]
  · exact List.map_congr_left fun line _ => splitDirective_trim line
  · rw [content]
    simpa using plain

/-! ### Reading them back -/

def ManagedAssets.append (assets other : ManagedAssets) : ManagedAssets where
  ruleGroups := assets.ruleGroups ++ other.ruleGroups
  clientRules := assets.clientRules ++ other.clientRules
  ipRules := assets.ipRules ++ other.ipRules
  routingItems := assets.routingItems ++ other.routingItems
  domainSets := assets.domainSets ++ other.domainSets
  ipSets := assets.ipSets ++ other.ipSets

/-- Outside groups these lines add exactly these assets, and leave no group open. -/
def Reads (ls : List Text) (assets : ManagedAssets) : Prop :=
  ∀ before : ManagedAssets,
    (ls.map splitDirective).foldl scanDirective ⟨before, none⟩ = ⟨before.append assets, none⟩

theorem Reads.nil : Reads [] {} := fun before => by simp [ManagedAssets.append]

theorem Reads.append {ls rest : List Text} {assets other : ManagedAssets}
    (first : Reads ls assets) (second : Reads rest other) :
    Reads (ls ++ rest) (assets.append other) := by
  intro before
  rw [List.map_append, List.foldl_append, first, second]
  simp [ManagedAssets.append]

theorem Reads.keyed {key : String} (token : IsToken key.toList) {argument : Text}
    {assets : ManagedAssets}
    (step : ∀ before : ManagedAssets, scanDirective ⟨before, none⟩ ⟨key, trim argument⟩ =
      ⟨before.append assets, none⟩) :
    Reads [keyed key argument] assets := by
  intro before
  rw [List.map_cons, List.map_nil, List.foldl_cons, List.foldl_nil, splitDirective_keyed token,
    step]

@[simp] theorem parseNamedOption_trim (value name : Text) :
    parseNamedOption (trim value) name = parseNamedOption value name := by
  rw [parseNamedOption, splitWhitespace_trim, parseNamedOption]

@[simp] theorem domainSetFrom_trim (value : Text) :
    domainSetFrom (trim value) = domainSetFrom value := by
  simp only [domainSetFrom, parseNamedOption_trim]

@[simp] theorem ipSetFrom_trim (value : Text) : ipSetFrom (trim value) = ipSetFrom value := by
  simp only [ipSetFrom, parseNamedOption_trim]

@[simp] theorem beginGroup_trim (value : Text) : beginGroup (trim value) = beginGroup value := by
  simp [beginGroup, splitWhitespace_trim]

section Collections

variable {Item : Type}

/-- The six ways to add something to the assets are alike: each adds to one list. -/
theorem Reads.flatMap (items : List Item) {itemLines : Item → List Text}
    {assets : Item → ManagedAssets} (all : List Item → ManagedAssets) (start : all [] = {})
    (more : ∀ item rest, all (item :: rest) = (assets item).append (all rest))
    (each : ∀ item ∈ items, Reads (itemLines item) (assets item)) :
    Reads (items.flatMap itemLines) (all items) := by
  induction items with
  | nil => exact start ▸ Reads.nil
  | cons item items inductionHypothesis =>
      simp only [List.mem_cons, forall_eq_or_imp] at each
      rw [List.flatMap_cons, more]
      exact each.1.append (inductionHypothesis each.2)

end Collections

theorem reads_domainSetLine (set : ManagedDomainSet) :
    Reads [domainSetLine set] { domainSets := domainSetFrom (domainSetArgument set) } := by
  rw [domainSetLine_eq]
  exact Reads.keyed (by decide) fun before => by
    simp [scanDirective, assetKeyword, ManagedAssets.append]

theorem reads_ipSetLine (set : ManagedIpSet) :
    Reads [ipSetLine set] { ipSets := ipSetFrom (ipSetArgument set) } := by
  rw [ipSetLine_eq]
  exact Reads.keyed (by decide) fun before => by
    simp [scanDirective, assetKeyword, ManagedAssets.append]

theorem reads_routing {key : String} (routing : assetKeyword key = .routing) (argument : Text) :
    Reads [keyed key argument]
      { routingItems := [⟨key, (splitTargetValue argument).1, (splitTargetValue argument).2⟩] } :=
  Reads.keyed (isKeyword_of_assetKeyword (routing.trans_ne (by decide))).1.token fun before => by
    simp [scanDirective, routing, ManagedAssets.append]

theorem reads_ipRule {key : String} (ipRule : assetKeyword key = .ipRule) (argument : Text) :
    Reads [keyed key argument]
      { ipRules :=
          [⟨key, (splitTargetOptions argument).1, (splitTargetOptions argument).2, []⟩] } :=
  Reads.keyed (isKeyword_of_assetKeyword (ipRule.trans_ne (by decide))).1.token fun before => by
    simp [scanDirective, ipRule, ManagedAssets.append, AssetScan.groupName]

theorem reads_clientRuleLine (rule : ManagedClientRule) :
    Reads [clientRuleLine rule] { clientRules := [⟨trim rule.matcher, []⟩] } :=
  Reads.keyed (by decide) fun before => by
    simp [scanDirective, assetKeyword, ManagedAssets.append, AssetScan.groupName]

/-- The group that its lines are read back as. -/
def rereadGroup (group : ManagedRuleGroup) : ManagedRuleGroup :=
  { beginGroup (groupBeginArgument group) with matchers := group.matchers.map trim }

/-- In an open group the matcher lines are collected one by one. -/
theorem foldl_matcherLines (values : List Text) (assets : ManagedAssets)
    (group : ManagedRuleGroup) :
    ((values.map (keyed "group-match")).map splitDirective).foldl scanDirective
        ⟨assets, some group⟩ =
      ⟨assets, some { group with matchers := group.matchers ++ values.map trim }⟩ := by
  induction values generalizing group with
  | nil => simp
  | cons value values inductionHypothesis =>
      rw [List.map_cons, List.map_cons, List.foldl_cons, splitDirective_keyed (by decide)]
      simp only [scanDirective, assetKeyword, Option.map_some]
      rw [inductionHypothesis]
      simp

theorem reads_groupLines (group : ManagedRuleGroup) :
    Reads (writtenGroupLines group) { ruleGroups := [rereadGroup group] } := by
  intro before
  have ends : splitDirective ("group-end" : Text) = ⟨"group-end", []⟩ := by decide
  rw [writtenGroupLines, groupBeginLine_eq, List.map_append, List.map_cons, List.foldl_append,
    List.foldl_cons, splitDirective_keyed (by decide)]
  simp only [scanDirective, assetKeyword, beginGroup_trim]
  rw [foldl_matcherLines, List.map_cons, List.map_nil, List.foldl_cons, List.foldl_nil, ends]
  simp [scanDirective, assetKeyword, ManagedAssets.append, rereadGroup, beginGroup]

/-- The argument of `nameserverLine`. -/
def nameserverArgument (item : ManagedRoutingItem) : Text :=
  if item.value = [] then item.target else item.target ++ '/' :: item.value

/-- The argument of `ruleEntryLine`. -/
def ruleEntryArgument (item : ManagedRoutingItem) : Text :=
  let target := if endsWith '/' item.target then item.target else item.target ++ ['/']
  if item.value = [] then target else target ++ ' ' :: item.value

theorem nameserverLine_eq (item : ManagedRoutingItem) :
    nameserverLine item = keyed item.ruleType (nameserverArgument item) := by
  unfold nameserverLine nameserverArgument
  split <;> rfl

theorem ruleEntryLine_eq (item : ManagedRoutingItem) :
    ruleEntryLine item = keyed item.ruleType (ruleEntryArgument item) := by
  simp only [ruleEntryLine, ruleEntryArgument]
  split <;> rfl

def rereadRouting (ruleType : String) (argument : Text) : ManagedRoutingItem :=
  ⟨ruleType, (splitTargetValue argument).1, (splitTargetValue argument).2⟩

def rereadNameserver (item : ManagedRoutingItem) : List ManagedRoutingItem :=
  let target := scriptTrim item.target
  if target = [] then [] else [rereadRouting item.ruleType (nameserverArgument { item with target })]

def rereadRuleEntry (item : ManagedRoutingItem) : ManagedRoutingItem :=
  rereadRouting item.ruleType (ruleEntryArgument item)

def rereadIpRule (rule : ManagedIpRule) : ManagedIpRule :=
  let parts := splitTargetOptions (ipRuleArgument rule)
  ⟨rule.ruleType, parts.1, parts.2, []⟩

/-- The assets that the written lines are read back as. -/
def reread (assets : ManagedAssets) : ManagedAssets where
  ruleGroups := assets.ruleGroups.map rereadGroup
  clientRules := assets.clientRules.map fun rule => ⟨trim rule.matcher, []⟩
  ipRules := assets.ipRules.map rereadIpRule
  routingItems :=
    (assets.routingItems.filter (·.ruleType = "nameserver")).flatMap rereadNameserver ++
      (assets.routingItems.filter (·.ruleType ≠ "nameserver")).map rereadRuleEntry
  domainSets := assets.domainSets.flatMap fun set => domainSetFrom (domainSetArgument set)
  ipSets := assets.ipSets.flatMap fun set => ipSetFrom (ipSetArgument set)

theorem reads_nameserverLines {item : ManagedRoutingItem}
    (routing : assetKeyword item.ruleType = .routing) :
    Reads (nameserverLines item) { routingItems := rereadNameserver item } := by
  simp only [nameserverLines, rereadNameserver]
  by_cases empty : scriptTrim item.target = []
  · rw [if_pos empty, if_pos empty]
    exact Reads.nil
  · rw [if_neg empty, if_neg empty, nameserverLine_eq]
    exact reads_routing routing _

theorem reads_writtenLines {assets : ManagedAssets} (single : IsSingleLine assets) :
    Reads (writtenLines assets) (reread assets) := by
  have nameserver : ∀ item ∈ assets.routingItems.filter (·.ruleType = "nameserver"),
      assetKeyword item.ruleType = .routing := fun item membership =>
    single.routing_type item (List.mem_filter.mp membership).1
  have others : ∀ item ∈ assets.routingItems.filter (·.ruleType ≠ "nameserver"),
      assetKeyword item.ruleType = .routing := fun item membership =>
    single.routing_type item (List.mem_filter.mp membership).1
  have domainSets := Reads.flatMap assets.domainSets
    (fun sets => { domainSets := sets.flatMap fun set => domainSetFrom (domainSetArgument set) })
    rfl (fun _ _ => by simp [ManagedAssets.append]) fun set _ => reads_domainSetLine set
  have ipSets := Reads.flatMap assets.ipSets
    (fun sets => { ipSets := sets.flatMap fun set => ipSetFrom (ipSetArgument set) })
    rfl (fun _ _ => by simp [ManagedAssets.append]) fun set _ => reads_ipSetLine set
  have first := Reads.flatMap _ (fun items => { routingItems := items.flatMap rereadNameserver })
    rfl (fun _ _ => by simp [ManagedAssets.append])
    fun item membership => reads_nameserverLines (nameserver item membership)
  have second := Reads.flatMap _
    (fun items => { routingItems := items.map rereadRuleEntry })
    rfl (fun _ _ => by simp [ManagedAssets.append, rereadRuleEntry, rereadRouting])
    fun item membership => reads_routing (others item membership) (ruleEntryArgument item)
  have groups := Reads.flatMap assets.ruleGroups
    (fun groups => { ruleGroups := groups.map rereadGroup })
    rfl (fun _ _ => by simp [ManagedAssets.append]) fun group _ => reads_groupLines group
  have clients := Reads.flatMap assets.clientRules
    (fun rules => { clientRules := rules.map fun rule => ⟨trim rule.matcher, []⟩ })
    rfl (fun _ _ => by simp [ManagedAssets.append]) fun rule _ => reads_clientRuleLine rule
  have ipRules := Reads.flatMap assets.ipRules
    (fun rules => { ipRules := rules.map rereadIpRule })
    rfl (fun _ _ => by simp [ManagedAssets.append, rereadIpRule])
    fun rule membership => reads_ipRule (single.ip_type rule membership) (ipRuleArgument rule)
  have all := (((((domainSets.append ipSets).append first).append second).append groups).append
    clients).append ipRules
  simpa [writtenLines, reread, ManagedAssets.append, List.map_eq_flatMap, ruleEntryLine_eq,
    ipRuleLine_eq_keyed] using all

/-- Without a continued line the text is read back line by line. -/
theorem parse_buildManagedText {state : UiState} (adds : state.AddsNothing)
    (writable : IsWritable state.managed)
    (plain : ∀ line ∈ writtenLines state.managed, endsWith '\\' (trim line) = false) :
    parseManagedAssetsFromText (buildManagedText state) = reread state.managed := by
  have read := reads_writtenLines writable.toIsSingleLine {}
  unfold parseManagedAssetsFromText
  rw [directives_buildManagedText adds writable plain, read]
  simp [AssetScan.close, ManagedAssets.append]

end SmartDnsPlusUi
