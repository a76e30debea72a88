import SmartDnsPlusUi.Config.AssetScan
import SmartDnsPlusUi.Config.Pages

/-!
# What the three asset pages contain

A line written by `keyed` is read back as its keyword and its argument.  The
content of a rendered page is the list of its section lines.
-/

namespace SmartDnsPlusUi

open Text

/-- A word that no reader takes for a comment. -/
structure IsKeyword (key : Text) : Prop where
  token : IsToken key
  no_comment : key.head? ≠ some '#'

/-- A line that is content by itself. -/
structure IsPageLine (line : Text) : Prop where
  logical : IsLogical (trim line)
  no_newline : '\n' ∉ line

theorem isKeyword_of_assetKeyword {key : String} (known : assetKeyword key ≠ .other) :
    IsKeyword key.toList ∧ '\\' ∉ key.toList := by
  unfold assetKeyword at known
  split at known <;> first | (exfalso; exact known rfl) | exact ⟨⟨by decide, by decide⟩, by decide⟩

/-! ### One line -/

theorem trim_keyed {key : String} (token : IsToken key.toList) (argument : Text) :
    trim (keyed key argument) =
      if trim argument = [] then key.toList else key.toList ++ ' ' :: trimEnd argument := by
  have head : ∀ c ∈ (keyed key argument).head?, isWhitespace c = false := by
    obtain ⟨c, rest, equality⟩ := List.exists_cons_of_ne_nil token.1
    have solid := token.2
    rw [equality, solid_cons] at solid
    simpa [keyed, equality] using solid.1
  have gap : trim (' ' :: argument) = trim argument :=
    trim_append_blank_left (w := [' ']) (by simp) argument
  have inner := trimEnd_append [' '] argument
  rw [List.singleton_append] at inner
  rw [trim, trimStart_of_head head, keyed, trimEnd_append, gap]
  by_cases empty : trim argument = []
  · rw [if_pos empty, if_pos empty, trimEnd_of_last token.trimmed.2]
  · rw [if_neg empty, if_neg empty, inner, if_neg empty]
    rfl

theorem splitDirective_keyed {key : String} (token : IsToken key.toList) (argument : Text) :
    splitDirective (keyed key argument) = ⟨key, trim argument⟩ := by
  rw [splitDirective, trim_keyed token]
  by_cases empty : trim argument = []
  · simp [empty, splitFirst_of_solid token.2, trim_eq_self token.trimmed]
  · rw [if_neg empty, splitFirst_append_cons token.2 (by simp)]
    simp [trim_eq_self token.trimmed, trim_trimEnd]

theorem splitDirective_trim (line : Text) : splitDirective (trim line) = splitDirective line := by
  simp [splitDirective]

theorem isLogical_keyed {key : String} (keyword : IsKeyword key.toList) (argument : Text) :
    IsLogical (trim (keyed key argument)) := by
  obtain ⟨c, rest, equality⟩ := List.exists_cons_of_ne_nil keyword.token.1
  have noComment := keyword.no_comment
  refine ⟨trimmed_trim _, ?_, ?_⟩
  · rw [trim_keyed keyword.token]
    split <;> simp [equality]
  · rw [trim_keyed keyword.token]
    split <;> simpa [equality] using noComment

theorem isPageLine_keyed {key : String} (keyword : IsKeyword key.toList) {argument : Text}
    (free : '\n' ∉ argument) : IsPageLine (keyed key argument) := by
  refine ⟨isLogical_keyed keyword argument, ?_⟩
  have solid : '\n' ∉ key.toList := fun present => by simpa using keyword.token.2 _ present
  simp [keyed, solid, free]

theorem contentLines_eq_map_trim {ls : List Text} (plain : ∀ line ∈ ls, IsPageLine line) :
    contentLines ls = ls.map trim := by
  rw [← contentLines_map_trim, contentLines_of_isLogical]
  intro line membership
  obtain ⟨raw, rawMem, rfl⟩ := List.mem_map.mp membership
  exact (plain raw rawMem).logical

/-! ### Directives of a text -/

theorem mem_directives_iff {text : Text} {directive : Directive} :
    directive ∈ directives text ↔ ∃ line ∈ logicalLines text, splitDirective line = directive := by
  rw [directives_eq_map, List.mem_map]

theorem trimmed_value_of_mem {text : Text} {directive : Directive}
    (membership : directive ∈ directives text) : Trimmed directive.value := by
  obtain ⟨line, -, rfl⟩ := mem_directives_iff.mp membership
  exact trimmed_trim _

theorem not_mem_value_of_mem {text : Text} {directive : Directive}
    (membership : directive ∈ directives text) : '\n' ∉ directive.value := by
  obtain ⟨line, lineMem, rfl⟩ := mem_directives_iff.mp membership
  intro present
  apply not_mem_of_mem_logicalLines lineMem
  have tail := mem_of_mem_trim present
  rcases splitFirst_cases (trim line) with ⟨-, split⟩ | ⟨word, c, rest, equality, -, -, split⟩
  · simp [split] at tail
  · rw [split] at tail
    apply mem_of_mem_trim
    rw [equality]
    simp [tail]

/-- Splitting a line and writing it again keeps its characters other than white
space. -/
theorem count_splitDirective {pattern : Char} (solid : isWhitespace pattern = false)
    (line : Text) :
    (splitDirective line).key.toList.count pattern + (splitDirective line).value.count pattern =
      line.count pattern := by
  simp only [splitDirective]
  rw [String.toList_ofList, count_trim solid, count_trim solid, count_splitFirst solid,
    count_trim solid]

theorem count_keyed {pattern : Char} (solid : isWhitespace pattern = false) (key : String)
    (argument : Text) :
    (keyed key argument).count pattern = key.toList.count pattern + argument.count pattern := by
  have other : ' ' ≠ pattern := by
    rintro rfl
    simp at solid
  simp [keyed, other]

/-! ### The pages -/

theorem forall_isPageLine_map_filter {Item : Type} {items : List Item} {line : Item → Text}
    (plain : ∀ item ∈ items, IsPageLine (line item)) (p : Item → Bool) :
    ∀ written ∈ (items.filter p).map line, IsPageLine written := by
  intro written membership
  obtain ⟨item, itemMem, rfl⟩ := List.mem_map.mp membership
  exact plain item (List.mem_filter.mp itemMem).1

theorem forall_isPageLine_map {Item : Type} {items : List Item} {line : Item → Text}
    (plain : ∀ item ∈ items, IsPageLine (line item)) :
    ∀ written ∈ items.map line, IsPageLine written := by
  simpa using plain

theorem contentOf_renderRoutingItemsText {assets : ManagedAssets}
    (plain : ∀ item ∈ assets.routingItems, IsPageLine (nameserverLine item)) :
    contentOf (renderRoutingItemsText assets) =
      ((assets.routingItems.filter (·.ruleType = "nameserver")).map nameserverLine).map trim := by
  have pages := forall_isPageLine_map_filter plain (·.ruleType = "nameserver")
  rw [renderRoutingItemsText, contentOf_closePage (by decide), contentLines_titled (by decide),
    contentLines_eq_map_trim pages]
  exact not_mem_titled (by decide) fun line membership => (pages line membership).no_newline

theorem contentOf_renderRuleEntriesText {assets : ManagedAssets}
    (routing : ∀ item ∈ assets.routingItems, IsPageLine (ruleEntryLine item))
    (ip : ∀ rule ∈ assets.ipRules, IsPageLine (ipRuleLine rule)) :
    contentOf (renderRuleEntriesText assets) =
      ((assets.routingItems.filter (·.ruleType ≠ "nameserver")).map ruleEntryLine ++
        assets.ipRules.map ipRuleLine).map trim := by
  have first := forall_isPageLine_map_filter routing (·.ruleType ≠ "nameserver")
  have second := forall_isPageLine_map ip
  rw [renderRuleEntriesText]
  simp only [List.append_assoc]
  rw [contentOf_closePage (by decide), contentLines_append, contentLines_titled (by decide),
    contentLines_titled (by decide), contentLines_eq_map_trim first,
    contentLines_eq_map_trim second, List.map_append]
  intro line membership
  rcases List.mem_append.mp membership with domain | listed
  · exact not_mem_titled (by decide) (fun line own => (first line own).no_newline) line domain
  · exact not_mem_titled (by decide) (fun line own => (second line own).no_newline) line listed

theorem contentOf_renderSetsText {assets : ManagedAssets}
    (domain : ∀ set ∈ assets.domainSets, IsPageLine (domainSetLine set))
    (ip : ∀ set ∈ assets.ipSets, IsPageLine (ipSetLine set)) :
    contentOf (renderSetsText assets) =
      (assets.domainSets.map domainSetLine ++ assets.ipSets.map ipSetLine).map trim := by
  have first := forall_isPageLine_map domain
  have second := forall_isPageLine_map ip
  rw [renderSetsText]
  simp only [List.append_assoc]
  rw [contentOf_closePage (by decide), contentLines_append, contentLines_titled (by decide),
    contentLines_titled (by decide), contentLines_eq_map_trim first,
    contentLines_eq_map_trim second, List.map_append]
  intro line membership
  rcases List.mem_append.mp membership with domain | listed
  · exact not_mem_titled (by decide) (fun line own => (first line own).no_newline) line domain
  · exact not_mem_titled (by decide) (fun line own => (second line own).no_newline) line listed

/-! ### The lines of parsed assets -/

/-- The argument of `domainSetLine`. -/
def domainSetArgument (set : ManagedDomainSet) : Text :=
  ("-name " : Text) ++ set.name ++ (" -type " : Text) ++ set.setType ++ (" -file " : Text) ++
    set.file

/-- The argument of `ipSetLine`. -/
def ipSetArgument (set : ManagedIpSet) : Text :=
  ("-name " : Text) ++ set.name ++ (" -file " : Text) ++ set.file

/-- The argument of `ipRuleLine`. -/
def ipRuleArgument (rule : ManagedIpRule) : Text :=
  if rule.options = [] then rule.target else rule.target ++ ' ' :: rule.options

def IpRuleCore.line (core : IpRuleCore) : Text :=
  if core.options = [] then keyed core.ruleType core.target
  else keyed core.ruleType (core.target ++ ' ' :: core.options)

theorem domainSetLine_eq (set : ManagedDomainSet) :
    domainSetLine set = keyed "domain-set" (domainSetArgument set) := by
  have opening : ("domain-set -name " : Text) = keyed "domain-set" "-name " := by decide
  unfold domainSetLine domainSetArgument
  rw [opening]
  simp only [keyed, List.append_assoc, List.cons_append]

theorem ipSetLine_eq (set : ManagedIpSet) :
    ipSetLine set = keyed "ip-set" (ipSetArgument set) := by
  have opening : ("ip-set -name " : Text) = keyed "ip-set" "-name " := by decide
  unfold ipSetLine ipSetArgument
  rw [opening]
  simp only [keyed, List.append_assoc, List.cons_append]

theorem ipRuleLine_eq_keyed (rule : ManagedIpRule) :
    ipRuleLine rule = keyed rule.ruleType (ipRuleArgument rule) := by
  unfold ipRuleLine ipRuleArgument
  split <;> rfl

theorem ipRuleLine_eq (rule : ManagedIpRule) : ipRuleLine rule = rule.core.line := rfl

theorem isPageLine_nameserverLine {item : ManagedRoutingItem}
    (keyword : IsKeyword item.ruleType.toList) (target : '\n' ∉ item.target)
    (value : '\n' ∉ item.value) : IsPageLine (nameserverLine item) := by
  rw [nameserverLine]
  split
  · exact isPageLine_keyed keyword target
  · exact isPageLine_keyed keyword (by simp [target, value])

theorem isPageLine_ruleEntryLine {item : ManagedRoutingItem}
    (keyword : IsKeyword item.ruleType.toList) (target : '\n' ∉ item.target)
    (value : '\n' ∉ item.value) : IsPageLine (ruleEntryLine item) := by
  have closed : '\n' ∉ if endsWith '/' item.target then item.target else item.target ++ ['/'] := by
    split <;> simp [target]
  simp only [ruleEntryLine]
  split
  · exact isPageLine_keyed keyword closed
  · exact isPageLine_keyed keyword (by simpa [value] using closed)

theorem isPageLine_core {core : IpRuleCore} (keyword : IsKeyword core.ruleType.toList)
    (target : '\n' ∉ core.target) (options : '\n' ∉ core.options) : IsPageLine core.line := by
  rw [IpRuleCore.line]
  split
  · exact isPageLine_keyed keyword target
  · exact isPageLine_keyed keyword (by simp [target, options])

theorem isPageLine_domainSetLine {set : ManagedDomainSet} (name : '\n' ∉ set.name)
    (setType : '\n' ∉ set.setType) (file : '\n' ∉ set.file) :
    IsPageLine (domainSetLine set) := by
  have first : '\n' ∉ ("-name " : Text) := by decide
  have second : '\n' ∉ (" -type " : Text) := by decide
  have third : '\n' ∉ (" -file " : Text) := by decide
  have free : '\n' ∉ domainSetArgument set := by
    unfold domainSetArgument
    simp only [List.mem_append, not_or]
    exact ⟨⟨⟨⟨⟨first, name⟩, second⟩, setType⟩, third⟩, file⟩
  have keyword : IsKeyword "domain-set".toList := ⟨by decide, by decide⟩
  rw [domainSetLine_eq]
  exact isPageLine_keyed keyword free

theorem isPageLine_ipSetLine {set : ManagedIpSet} (name : '\n' ∉ set.name)
    (file : '\n' ∉ set.file) : IsPageLine (ipSetLine set) := by
  have first : '\n' ∉ ("-name " : Text) := by decide
  have second : '\n' ∉ (" -file " : Text) := by decide
  have free : '\n' ∉ ipSetArgument set := by
    unfold ipSetArgument
    simp only [List.mem_append, not_or]
    exact ⟨⟨⟨first, name⟩, second⟩, file⟩
  have keyword : IsKeyword "ip-set".toList := ⟨by decide, by decide⟩
  rw [ipSetLine_eq]
  exact isPageLine_keyed keyword free

theorem eq_of_mem_routingOf {directive : Directive} {item : ManagedRoutingItem}
    (membership : item ∈ routingOf directive) :
    assetKeyword directive.key = .routing ∧
      item = ⟨directive.key, (splitTargetValue directive.value).1,
        (splitTargetValue directive.value).2⟩ := by
  by_cases routing : assetKeyword directive.key = .routing
  · simpa [routingOf, routing] using membership
  · simp [routingOf, routing] at membership

theorem eq_of_mem_ipRuleOf {directive : Directive} {core : IpRuleCore}
    (membership : core ∈ ipRuleOf directive) :
    assetKeyword directive.key = .ipRule ∧
      core = ⟨directive.key, (splitTargetOptions directive.value).1,
        (splitTargetOptions directive.value).2⟩ := by
  by_cases ipRule : assetKeyword directive.key = .ipRule
  · simpa [ipRuleOf, ipRule] using membership
  · simp [ipRuleOf, ipRule] at membership

theorem parseNamedOption_token {value name word : Text}
    (found : parseNamedOption value name = some word) : IsToken word :=
  token_of_mem_splitWhitespace (lookupOption_mem found)

/-- A set is pushed when its definition names it. -/
theorem domainSetFrom_eq (value : Text) :
    domainSetFrom value = (parseNamedOption value "-name").toList.map fun name =>
      { name
        file := (parseNamedOption value "-file").getD []
        setType := (parseNamedOption value "-type").getD "list" } := by
  unfold domainSetFrom
  cases found : parseNamedOption value "-name" with
  | none => rfl
  | some name => simp only [Option.getD_some, if_neg (parseNamedOption_token found).1]; rfl

theorem ipSetFrom_eq (value : Text) :
    ipSetFrom value = (parseNamedOption value "-name").toList.map fun name =>
      { name, file := (parseNamedOption value "-file").getD [] } := by
  unfold ipSetFrom
  cases found : parseNamedOption value "-name" with
  | none => rfl
  | some name => simp only [Option.getD_some, if_neg (parseNamedOption_token found).1]; rfl

theorem not_mem_of_parseNamedOption {value name word : Text}
    (found : parseNamedOption value name = some word) : '\n' ∉ word := fun present => by
  simpa using (parseNamedOption_token found).2 '\n' present

theorem not_mem_parseNamedOption {value name fallback : Text} (free : '\n' ∉ fallback) :
    '\n' ∉ (parseNamedOption value name).getD fallback := by
  cases found : parseNamedOption value name with
  | none => exact free
  | some word =>
      intro present
      have solid := (parseNamedOption_token found).2 '\n' present
      simp at solid

/-- The keys of parsed rules are keywords without backslash. -/
theorem keyword_of_parsed_routing {text : Text} :
    ∀ item ∈ (parseManagedAssetsFromText text).routingItems,
      assetKeyword item.ruleType = .routing := by
  intro item membership
  rw [parse_routingItems, List.mem_flatMap] at membership
  obtain ⟨directive, -, own⟩ := membership
  obtain ⟨routing, rfl⟩ := eq_of_mem_routingOf own
  exact routing

theorem keyword_of_parsed_ip {text : Text} :
    ∀ rule ∈ (parseManagedAssetsFromText text).ipRules, assetKeyword rule.ruleType = .ipRule := by
  intro rule membership
  have core := List.mem_map_of_mem (f := ManagedIpRule.core) membership
  rw [parse_ipRuleCores, List.mem_flatMap] at core
  obtain ⟨directive, -, own⟩ := core
  obtain ⟨ipRule, equality⟩ := eq_of_mem_ipRuleOf own
  have key : rule.ruleType = directive.key := congrArg IpRuleCore.ruleType equality
  rw [key]
  exact ipRule

theorem not_mem_of_parsed_domainSet {text : Text} :
    ∀ set ∈ (parseManagedAssetsFromText text).domainSets,
      '\n' ∉ set.name ∧ '\n' ∉ set.setType ∧ '\n' ∉ set.file := by
  intro set membership
  rw [parse_domainSets, List.mem_flatMap] at membership
  obtain ⟨directive, -, own⟩ := membership
  unfold domainSetOf at own
  split at own
  · rw [domainSetFrom_eq, List.mem_map] at own
    obtain ⟨name, nameMem, rfl⟩ := own
    exact ⟨not_mem_of_parseNamedOption (Option.mem_toList.mp nameMem),
      not_mem_parseNamedOption (by decide), not_mem_parseNamedOption (by simp)⟩
  · simp at own

theorem not_mem_of_parsed_ipSet {text : Text} :
    ∀ set ∈ (parseManagedAssetsFromText text).ipSets, '\n' ∉ set.name ∧ '\n' ∉ set.file := by
  intro set membership
  rw [parse_ipSets, List.mem_flatMap] at membership
  obtain ⟨directive, -, own⟩ := membership
  unfold ipSetOf at own
  split at own
  · rw [ipSetFrom_eq, List.mem_map] at own
    obtain ⟨name, nameMem, rfl⟩ := own
    exact ⟨not_mem_of_parseNamedOption (Option.mem_toList.mp nameMem),
      not_mem_parseNamedOption (by simp)⟩
  · simp at own

/-! ### Assets whose fields stay on their lines -/

/-- The rule types are known ones and no field contains a line feed. -/
structure IsSingleLine (assets : ManagedAssets) : Prop where
  routing_type : ∀ item ∈ assets.routingItems, assetKeyword item.ruleType = .routing
  ip_type : ∀ rule ∈ assets.ipRules, assetKeyword rule.ruleType = .ipRule
  routing : ∀ item ∈ assets.routingItems, '\n' ∉ item.target ∧ '\n' ∉ item.value
  ip : ∀ rule ∈ assets.ipRules, '\n' ∉ rule.target ∧ '\n' ∉ rule.options
  domain_set : ∀ set ∈ assets.domainSets, '\n' ∉ set.name ∧ '\n' ∉ set.setType ∧ '\n' ∉ set.file
  ip_set : ∀ set ∈ assets.ipSets, '\n' ∉ set.name ∧ '\n' ∉ set.file

/-- What the parser collects stays on its lines. -/
theorem isSingleLine_parse (text : Text) : IsSingleLine (parseManagedAssetsFromText text) where
  routing_type := keyword_of_parsed_routing
  ip_type := keyword_of_parsed_ip
  routing := by
    intro item membership
    rw [parse_routingItems, List.mem_flatMap] at membership
    obtain ⟨directive, directiveMem, own⟩ := membership
    obtain ⟨-, rfl⟩ := eq_of_mem_routingOf own
    have free := not_mem_value_of_mem directiveMem
    exact ⟨fun present => free (mem_of_mem_splitTargetValue (.inl present)),
      fun present => free (mem_of_mem_splitTargetValue (.inr present))⟩
  ip := by
    intro rule membership
    have core := List.mem_map_of_mem (f := ManagedIpRule.core) membership
    rw [parse_ipRuleCores, List.mem_flatMap] at core
    obtain ⟨directive, directiveMem, own⟩ := core
    obtain ⟨-, equality⟩ := eq_of_mem_ipRuleOf own
    have free := not_mem_value_of_mem directiveMem
    have target : rule.target = (splitTargetOptions directive.value).1 :=
      congrArg IpRuleCore.target equality
    have options : rule.options = (splitTargetOptions directive.value).2 :=
      congrArg IpRuleCore.options equality
    rw [target, options]
    exact ⟨fun present => free (mem_of_mem_splitTargetOptions (.inl present)),
      fun present => free (mem_of_mem_splitTargetOptions (.inr present))⟩
  domain_set := not_mem_of_parsed_domainSet
  ip_set := not_mem_of_parsed_ipSet

/-- The lines of the rules page. -/
def rulesPageLines (assets : ManagedAssets) : List Text :=
  (assets.routingItems.filter (·.ruleType ≠ "nameserver")).map ruleEntryLine ++
    assets.ipRules.map ipRuleLine

/-- The lines of the three pages, in the order in which a reload reads them. -/
def pageLines (assets : ManagedAssets) : List Text :=
  (assets.routingItems.filter (·.ruleType = "nameserver")).map nameserverLine ++
    rulesPageLines assets ++ (assets.domainSets.map domainSetLine ++ assets.ipSets.map ipSetLine)

namespace IsSingleLine

variable {assets : ManagedAssets} (single : IsSingleLine assets)
include single

theorem isPageLine_routing : ∀ item ∈ assets.routingItems,
    IsPageLine (nameserverLine item) ∧ IsPageLine (ruleEntryLine item) := by
  intro item membership
  have keyword := (isKeyword_of_assetKeyword
    ((single.routing_type item membership).trans_ne (by decide))).1
  obtain ⟨target, value⟩ := single.routing item membership
  exact ⟨isPageLine_nameserverLine keyword target value,
    isPageLine_ruleEntryLine keyword target value⟩

theorem isPageLine_ip : ∀ rule ∈ assets.ipRules, IsPageLine (ipRuleLine rule) := by
  intro rule membership
  have keyword := (isKeyword_of_assetKeyword
    ((single.ip_type rule membership).trans_ne (by decide))).1
  obtain ⟨target, options⟩ := single.ip rule membership
  have line : IsPageLine rule.core.line := isPageLine_core keyword target options
  exact line

theorem contentOf_pages :
    contentOf (renderRoutingItemsText assets) =
        ((assets.routingItems.filter (·.ruleType = "nameserver")).map nameserverLine).map trim ∧
      contentOf (renderRuleEntriesText assets) = (rulesPageLines assets).map trim ∧
      contentOf (renderSetsText assets) =
        (assets.domainSets.map domainSetLine ++ assets.ipSets.map ipSetLine).map trim := by
  refine ⟨contentOf_renderRoutingItemsText fun item membership =>
      (single.isPageLine_routing item membership).1,
    contentOf_renderRuleEntriesText (fun item membership =>
      (single.isPageLine_routing item membership).2) single.isPageLine_ip,
    contentOf_renderSetsText ?_ ?_⟩
  · intro set membership
    obtain ⟨name, setType, file⟩ := single.domain_set set membership
    exact isPageLine_domainSetLine name setType file
  · intro set membership
    obtain ⟨name, file⟩ := single.ip_set set membership
    exact isPageLine_ipSetLine name file

theorem mem_contentOf_iff {line : Text} :
    line ∈ (pageLines assets).map trim ↔
      line ∈ contentOf (renderRoutingItemsText assets) ∨
        line ∈ contentOf (renderRuleEntriesText assets) ∨
        line ∈ contentOf (renderSetsText assets) := by
  obtain ⟨routingPage, rulesPage, setsPage⟩ := single.contentOf_pages
  rw [routingPage, rulesPage, setsPage]
  simp only [pageLines, List.map_append, List.mem_append, or_assoc]

end IsSingleLine

end SmartDnsPlusUi
