import SmartDnsPlusUi.Config.Backslashes
import SmartDnsPlusUi.Config.Routing

/-!
# Saving and reloading rules and sets

The text that the UI reloads is the three pages joined together.  Each written
line is read back as the asset it was written from, and the reloaded assets are
the saved ones exactly when no written line ends in a backslash.
-/

namespace SmartDnsPlusUi

open Text

/-- The rules text that a reload joins from the pages of these assets. -/
def reloadedRulesText (assets : ManagedAssets) : Text :=
  joinNonemptySections
    [renderRoutingItemsText assets, renderRuleEntriesText assets, renderSetsText assets]

/-- The words that a set definition takes for option names. -/
def optionWords : List Text := ["-name", "-type", "-file"]

/-- An argument `/T/V`. -/
def IsSlashForm (value : Text) : Prop :=
  ∃ target tail, value = '/' :: (target ++ '/' :: tail) ∧ IsToken target ∧ '/' ∉ target ∧
    '/' ∉ tail

/-- The rules texts that are meant to survive a save. -/
structure RegularRules (text : Text) : Prop where
  not_continued : ∀ line ∈ logicalLines text, endsWith '\\' line = false
  routing : ∀ directive ∈ directives text, IsRoutingKey directive.key →
    IsSlashForm directive.value
  ip : ∀ directive ∈ directives text, assetKeyword directive.key = .ipRule →
    directive.value.head? ≠ some '/'
  domain_set : ∀ set ∈ (parseManagedAssetsFromText text).domainSets,
    set.name ∉ optionWords ∧ set.setType ∉ optionWords ∧ set.file ∉ optionWords
  ip_set : ∀ set ∈ (parseManagedAssetsFromText text).ipSets,
    set.name ∉ optionWords ∧ set.file ∉ optionWords

/-- The reloaded assets are the saved ones, the nameserver rules in front. -/
structure Reloads (saved reloaded : ManagedAssets) : Prop where
  domain_sets : reloaded.domainSets = saved.domainSets
  ip_sets : reloaded.ipSets = saved.ipSets
  ip_rules : reloaded.ipRules.map ManagedIpRule.core = saved.ipRules.map ManagedIpRule.core
  routing_items : reloaded.routingItems =
    saved.routingItems.filter (·.ruleType = "nameserver") ++
      saved.routingItems.filter (·.ruleType ≠ "nameserver")

/-! ### Reading one written line back -/

/-- What a line contributes to the assets, groups apart. -/
structure Contribution where
  routing : List ManagedRoutingItem := []
  ipRules : List IpRuleCore := []
  domainSets : List ManagedDomainSet := []
  ipSets : List ManagedIpSet := []

def contributionOf (line : Text) : Contribution :=
  let directive := splitDirective line
  ⟨routingOf directive, ipRuleOf directive, domainSetOf directive, ipSetOf directive⟩

theorem contributionOf_keyed {key : String} (known : assetKeyword key ≠ .other)
    (argument : Text) :
    contributionOf (trim (keyed key argument)) =
      let directive : Directive := ⟨key, trim argument⟩
      ⟨routingOf directive, ipRuleOf directive, domainSetOf directive, ipSetOf directive⟩ := by
  rw [contributionOf, splitDirective_trim,
    splitDirective_keyed (isKeyword_of_assetKeyword known).1.token]

theorem contributionOf_routing {key : String} (routing : assetKeyword key = .routing)
    (argument : Text) :
    contributionOf (trim (keyed key argument)) =
      { routing := [⟨key, (splitTargetValue argument).1, (splitTargetValue argument).2⟩] } := by
  rw [contributionOf_keyed (routing.trans_ne (by decide))]
  simp [routingOf, ipRuleOf, domainSetOf, ipSetOf, routing]

theorem contributionOf_ipRule {key : String} (ipRule : assetKeyword key = .ipRule)
    (argument : Text) :
    contributionOf (trim (keyed key argument)) =
      { ipRules := [⟨key, (splitTargetOptions argument).1, (splitTargetOptions argument).2⟩] } := by
  rw [contributionOf_keyed (ipRule.trans_ne (by decide))]
  simp [routingOf, ipRuleOf, domainSetOf, ipSetOf, ipRule]

theorem splitTargetValue_of_token {target : Text} (token : IsToken target) (noSlash : '/' ∉ target) :
    splitTargetValue ('/' :: target) = ('/' :: target, []) := by
  have solid : Solid ('/' :: target) := by simp [token.2]
  have single : ∀ rest, '/' :: target = '/' :: rest → '/' ∉ rest := by
    rintro rest equality
    obtain rfl : target = rest := by simpa using equality
    exact noSlash
  have noGap : splitAtFirst "/ " target = none := by
    rw [splitAtFirst_eq_none_iff]
    rintro ⟨a, b, equality⟩
    rw [← equality] at noSlash
    simp at noSlash
  rw [splitTargetValue_of_single_slash solid.trimmed single,
    splitTargetOptions_of_no_gap solid.trimmed noGap, splitFirst_of_solid solid]
  simp [trim_eq_self solid.trimmed]

/-- The item of a slash form, written on either page, is read back. -/
theorem contributionOf_routing_line {key : String} (routing : assetKeyword key = .routing)
    {target tail : Text} (token : IsToken target) (noSlash : '/' ∉ target) (free : '/' ∉ tail) :
    contributionOf (trim (nameserverLine ⟨key, '/' :: target, trim tail⟩)) =
        { routing := [⟨key, '/' :: target, trim tail⟩] } ∧
      contributionOf (trim (ruleEntryLine ⟨key, '/' :: target, trim tail⟩)) =
        { routing := [⟨key, '/' :: target, trim tail⟩] } := by
  have inner : '/' ∉ trim tail := fun present => free (mem_of_mem_trim present)
  have closed : endsWith '/' ('/' :: target) = false := (endsWith_slash_cons noSlash).mpr token.1
  constructor
  · unfold nameserverLine
    by_cases empty : trim tail = []
    · simp only [empty, if_true]
      rw [contributionOf_routing routing, splitTargetValue_of_token token noSlash]
    · simp only [empty, if_false]
      rw [contributionOf_routing routing, List.cons_append,
        splitTargetValue_of_last_slash target inner, trim_trim]
  · unfold ruleEntryLine
    simp only [closed, Bool.false_eq_true, if_false]
    by_cases empty : trim tail = []
    · simp only [empty, if_true]
      rw [contributionOf_routing routing, List.cons_append,
        splitTargetValue_of_last_slash target (by simp), trim_nil]
    · simp only [empty, if_false]
      have shape : '/' :: target ++ ['/'] ++ ' ' :: trim tail =
          '/' :: (target ++ '/' :: (' ' :: trim tail)) := by simp
      rw [contributionOf_routing routing, shape,
        splitTargetValue_of_last_slash target (by simpa using inner), trim_space_cons, trim_trim]

/-- The two parts of an IP rule's argument, written with one space between
them, are split again in the same place. -/
theorem splitTargetOptions_rejoined {value : Text} (trimmed : Trimmed value)
    (noSlash : value.head? ≠ some '/') :
    let parts := splitTargetOptions value
    splitTargetOptions (if parts.2 = [] then parts.1 else parts.1 ++ ' ' :: parts.2) = parts := by
  rcases splitFirst_cases value with ⟨solid, split⟩ | ⟨word, c, rest, rfl, solid, space, split⟩
  · simp [splitTargetOptions_of_no_slash trimmed noSlash, split, trim_eq_self trimmed]
  · have nonempty : word ≠ [] := by
      rintro rfl
      have first := trimmed.1 c (by simp)
      simp [space] at first
    obtain ⟨d, tail, rfl⟩ := List.exists_cons_of_ne_nil nonempty
    have notSlash : d ≠ '/' := by simpa using noSlash
    simp only [splitTargetOptions_of_no_slash trimmed noSlash, split,
      trim_eq_self solid.trimmed]
    by_cases empty : trim rest = []
    · rw [if_pos empty, splitTargetOptions_of_no_slash solid.trimmed (by simpa using notSlash),
        splitFirst_of_solid solid]
      simp [trim_eq_self solid.trimmed, empty]
    · have whole : Trimmed (d :: tail ++ ' ' :: trim rest) := by
        simpa using solid.trimmed.append (trimmed_trim rest) [' '] (by simp) empty
      rw [if_neg empty, splitTargetOptions_of_no_slash whole (by simpa using notSlash),
        splitFirst_append_cons solid (by simp)]
      simp [trim_eq_self solid.trimmed]

theorem contributionOf_ip_line {key : String} (ipRule : assetKeyword key = .ipRule)
    {value : Text} (trimmed : Trimmed value) (noSlash : value.head? ≠ some '/') :
    let core : IpRuleCore := ⟨key, (splitTargetOptions value).1, (splitTargetOptions value).2⟩
    contributionOf (trim core.line) = { ipRules := [core] } := by
  have rejoined := splitTargetOptions_rejoined trimmed noSlash
  have line : ∀ target options : Text, IpRuleCore.line ⟨key, target, options⟩ =
      keyed key (if options = [] then target else target ++ ' ' :: options) := by
    intro target options
    unfold IpRuleCore.line
    split <;> rfl
  simp only [line]
  rw [contributionOf_ipRule ipRule]
  simp only [rejoined]

/-- Looking up the three options of a set definition. -/
theorem lookupOption_three {p q r name setType : Text} {f : List Text}
    (distinct : p ≠ q ∧ p ≠ r ∧ q ≠ r) (nameFree : name ∉ [p, q, r])
    (typeFree : setType ∉ [p, q, r]) :
    let tokens := p :: name :: q :: setType :: r :: f
    lookupOption p tokens = some name ∧ lookupOption q tokens = some setType ∧
      lookupOption r tokens = f.head? := by
  simp only [List.mem_cons, List.not_mem_nil, or_false, not_or] at nameFree typeFree
  simp [lookupOption, distinct, nameFree, typeFree]

theorem lookupOption_two {p r name : Text} {f : List Text} (distinct : p ≠ r)
    (nameFree : name ∉ [p, r]) :
    let tokens := p :: name :: r :: f
    lookupOption p tokens = some name ∧ lookupOption r tokens = f.head? := by
  simp only [List.mem_cons, List.not_mem_nil, or_false, not_or] at nameFree
  simp [lookupOption, distinct, nameFree]

theorem splitWhitespace_append_space (s t : Text) :
    splitWhitespace (s ++ ' ' :: t) = splitWhitespace s ++ splitWhitespace t :=
  splitWhitespace_append_cons s t (by simp)

theorem splitWhitespace_domainSetArgument {set : ManagedDomainSet} (name : IsToken set.name)
    (setType : IsToken set.setType) :
    splitWhitespace (domainSetArgument set) =
      "-name".toList :: set.name :: "-type".toList :: set.setType :: "-file".toList ::
        splitWhitespace set.file := by
  have first : ("-name " : Text) = "-name".toList ++ ' ' :: [] := by decide
  have second : (" -type " : Text) = ' ' :: ("-type".toList ++ ' ' :: []) := by decide
  have third : (" -file " : Text) = ' ' :: ("-file".toList ++ ' ' :: []) := by decide
  have tokens : IsToken "-name".toList ∧ IsToken "-type".toList ∧ IsToken "-file".toList := by
    decide
  unfold domainSetArgument
  rw [first, second, third]
  simp only [List.append_assoc, List.cons_append, List.nil_append]
  rw [splitWhitespace_append_space, splitWhitespace_append_space, splitWhitespace_append_space,
    splitWhitespace_append_space, splitWhitespace_append_space, splitWhitespace_of_token name,
    splitWhitespace_of_token setType, splitWhitespace_of_token tokens.1,
    splitWhitespace_of_token tokens.2.1, splitWhitespace_of_token tokens.2.2]
  rfl

theorem splitWhitespace_ipSetArgument {set : ManagedIpSet} (name : IsToken set.name) :
    splitWhitespace (ipSetArgument set) =
      "-name".toList :: set.name :: "-file".toList :: splitWhitespace set.file := by
  have first : ("-name " : Text) = "-name".toList ++ ' ' :: [] := by decide
  have second : (" -file " : Text) = ' ' :: ("-file".toList ++ ' ' :: []) := by decide
  have tokens : IsToken "-name".toList ∧ IsToken "-file".toList := by decide
  unfold ipSetArgument
  rw [first, second]
  simp only [List.append_assoc, List.cons_append, List.nil_append]
  rw [splitWhitespace_append_space, splitWhitespace_append_space, splitWhitespace_append_space,
    splitWhitespace_of_token name, splitWhitespace_of_token tokens.1,
    splitWhitespace_of_token tokens.2]
  rfl

/-- A file name is one word or missing. -/
theorem head?_splitWhitespace_getD {file : Text} (solid : Solid file) :
    (splitWhitespace file).head?.getD [] = file := by
  by_cases empty : file = []
  · simp [empty]
  · simp [splitWhitespace_of_token ⟨empty, solid⟩]

theorem contributionOf_domainSetLine {set : ManagedDomainSet} (name : IsToken set.name)
    (setType : IsToken set.setType) (file : Solid set.file) (nameFree : set.name ∉ optionWords)
    (typeFree : set.setType ∉ optionWords) :
    contributionOf (trim (domainSetLine set)) = { domainSets := [set] } := by
  have options : ∀ word, parseNamedOption (trim (domainSetArgument set)) word =
      lookupOption word ("-name".toList :: set.name :: "-type".toList :: set.setType ::
        "-file".toList :: splitWhitespace set.file) := fun word => by
    rw [parseNamedOption, splitWhitespace_trim, splitWhitespace_domainSetArgument name setType]
  obtain ⟨nameFound, typeFound, fileFound⟩ := lookupOption_three
    (f := splitWhitespace set.file) (by decide) nameFree typeFree
  have domainSets : domainSetFrom (trim (domainSetArgument set)) = [set] := by
    rw [domainSetFrom_eq, options, options, options, nameFound, typeFound, fileFound,
      head?_splitWhitespace_getD file]
    rfl
  have known : assetKeyword "domain-set" = .domainSet := rfl
  rw [domainSetLine_eq, contributionOf_keyed (by rw [known]; decide)]
  simp only [routingOf, ipRuleOf, domainSetOf, ipSetOf, known, domainSets]
  rfl

theorem contributionOf_ipSetLine {set : ManagedIpSet} (name : IsToken set.name)
    (file : Solid set.file) (nameFree : set.name ∉ optionWords) :
    contributionOf (trim (ipSetLine set)) = { ipSets := [set] } := by
  have options : ∀ word, parseNamedOption (trim (ipSetArgument set)) word =
      lookupOption word ("-name".toList :: set.name :: "-file".toList ::
        splitWhitespace set.file) := fun word => by
    rw [parseNamedOption, splitWhitespace_trim, splitWhitespace_ipSetArgument name]
  have free : set.name ∉ [("-name" : Text), ("-file" : Text)] := fun present => nameFree (by
    simp only [optionWords, List.mem_cons] at present ⊢
    tauto)
  obtain ⟨nameFound, fileFound⟩ := lookupOption_two
    (f := splitWhitespace set.file) (by decide) free
  have ipSets : ipSetFrom (trim (ipSetArgument set)) = [set] := by
    rw [ipSetFrom_eq, options, options, nameFound, fileFound, head?_splitWhitespace_getD file]
    rfl
  have known : assetKeyword "ip-set" = .ipSet := rfl
  rw [ipSetLine_eq, contributionOf_keyed (by rw [known]; decide)]
  simp only [routingOf, ipRuleOf, domainSetOf, ipSetOf, known, ipSets]
  rfl

/-! ### Reading the pages back -/

theorem parse_congr {text other : Text} (same : logicalLines text = logicalLines other) :
    parseManagedAssetsFromText text = parseManagedAssetsFromText other := by
  unfold parseManagedAssetsFromText
  rw [directives_eq_map, directives_eq_map, same]

theorem logicalLines_reloadedRulesText (assets : ManagedAssets) :
    logicalLines (reloadedRulesText assets) =
      logicalLines (renderRoutingItemsText assets) ++
        (logicalLines (renderRuleEntriesText assets) ++ logicalLines (renderSetsText assets)) := by
  simp [reloadedRulesText, logicalLines_joinNonemptySections]

theorem logicalLines_reloaded {assets : ManagedAssets} (single : IsSingleLine assets)
    (plain : ∀ line ∈ pageLines assets, endsWith '\\' (trim line) = false) :
    logicalLines (reloadedRulesText assets) = (pageLines assets).map trim := by
  have pages : ∀ line ∈ (pageLines assets).map trim, endsWith '\\' line = false := by
    simpa using plain
  have each : ∀ line, _ → line ∈ (pageLines assets).map trim :=
    fun _ => single.mem_contentOf_iff.mpr
  obtain ⟨routingPage, rulesPage, setsPage⟩ := single.contentOf_pages
  rw [logicalLines_reloadedRulesText,
    logicalLines_eq_contentOf fun line own => pages line (each line (.inl own)),
    logicalLines_eq_contentOf fun line own => pages line (each line (.inr (.inl own))),
    logicalLines_eq_contentOf fun line own => pages line (each line (.inr (.inr own))),
    routingPage, rulesPage, setsPage]
  simp [pageLines]

theorem Reloads.backslashes {saved reloaded : ManagedAssets} (reloads : Reloads saved reloaded) :
    reloaded.backslashes = saved.backslashes := by
  have items := total_filter ManagedRoutingItem.backslashes
    (fun item => decide (item.ruleType = "nameserver")) saved.routingItems
  simp only [← decide_not] at items
  have cores := congrArg (total IpRuleCore.backslashes) reloads.ip_rules
  rw [total_map, total_map] at cores
  rw [ManagedAssets.backslashes, ManagedAssets.backslashes, reloads.domain_sets,
    reloads.ip_sets, cores, reloads.routing_items, total_append]
  exact congrArg (fun sum => sum + _ + _ + _) items

/-- A reload reads the backslashes of the merged lines, page by page. -/
theorem backslashes_reloadedRulesText_le (assets : ManagedAssets) :
    (parseManagedAssetsFromText (reloadedRulesText assets)).backslashes ≤
      countIn '\\' (logicalLines (renderRoutingItemsText assets)) +
        (countIn '\\' (logicalLines (renderRuleEntriesText assets)) +
          countIn '\\' (logicalLines (renderSetsText assets))) := by
  have read := backslashes_parse_le (reloadedRulesText assets)
  rwa [logicalLines_reloadedRulesText, countIn_append, countIn_append] at read

/-- A reload reads no backslash that was not written. -/
theorem backslashes_reloaded_le (text : Text) :
    (parseManagedAssetsFromText
        (reloadedRulesText (parseManagedAssetsFromText text))).backslashes ≤
      (parseManagedAssetsFromText text).backslashes := by
  have saved := countIn_pages (isSingleLine_parse text)
  have read := backslashes_reloadedRulesText_le (parseManagedAssetsFromText text)
  have routing := countIn_logicalLines_le
    (renderRoutingItemsText (parseManagedAssetsFromText text))
  have entries := countIn_logicalLines_le
    (renderRuleEntriesText (parseManagedAssetsFromText text))
  have sets := countIn_logicalLines_le (renderSetsText (parseManagedAssetsFromText text))
  omega

/-- A continued line costs a backslash, so one that reads them all has none. -/
theorem plain_of_backslashes {text : Text}
    (same : (parseManagedAssetsFromText
        (reloadedRulesText (parseManagedAssetsFromText text))).backslashes =
      (parseManagedAssetsFromText text).backslashes) :
    ∀ line ∈ pageLines (parseManagedAssetsFromText text), endsWith '\\' (trim line) = false := by
  intro line membership
  by_contra ends
  rw [Bool.not_eq_false] at ends
  have saved := countIn_pages (isSingleLine_parse text)
  have read := backslashes_reloadedRulesText_le (parseManagedAssetsFromText text)
  have routing := countIn_logicalLines_le
    (renderRoutingItemsText (parseManagedAssetsFromText text))
  have entries := countIn_logicalLines_le
    (renderRuleEntriesText (parseManagedAssetsFromText text))
  have sets := countIn_logicalLines_le (renderSetsText (parseManagedAssetsFromText text))
  have written := List.mem_map_of_mem (f := trim) membership
  rcases (isSingleLine_parse text).mem_contentOf_iff.mp written with own | own | own
  · have lost := countIn_logicalLines_lt own ends
    omega
  · have lost := countIn_logicalLines_lt own ends
    omega
  · have lost := countIn_logicalLines_lt own ends
    omega

/-! ### Regular texts -/

/-- The four lists of the parsed assets, collected line by line. -/
theorem parse_eq_contributions (text : Text) :
    (parseManagedAssetsFromText text).routingItems =
        ((logicalLines text).map contributionOf).flatMap (·.routing) ∧
      (parseManagedAssetsFromText text).ipRules.map ManagedIpRule.core =
        ((logicalLines text).map contributionOf).flatMap (·.ipRules) ∧
      (parseManagedAssetsFromText text).domainSets =
        ((logicalLines text).map contributionOf).flatMap (·.domainSets) ∧
      (parseManagedAssetsFromText text).ipSets =
        ((logicalLines text).map contributionOf).flatMap (·.ipSets) := by
  rw [parse_routingItems, parse_ipRuleCores, parse_domainSets, parse_ipSets, directives_eq_map]
  simp [List.flatMap_map, contributionOf]

namespace RegularRules

variable {text : Text} (regular : RegularRules text)
include regular

theorem contributionOf_routing_item :
    ∀ item ∈ (parseManagedAssetsFromText text).routingItems,
      contributionOf (trim (nameserverLine item)) = { routing := [item] } ∧
        contributionOf (trim (ruleEntryLine item)) = { routing := [item] } := by
  intro item membership
  rw [parse_routingItems, List.mem_flatMap] at membership
  obtain ⟨directive, directiveMem, own⟩ := membership
  obtain ⟨routing, rfl⟩ := eq_of_mem_routingOf own
  obtain ⟨target, tail, form, token, noSlash, free⟩ :=
    regular.routing directive directiveMem ((assetKeyword_eq_routing_iff _).mp routing)
  rw [form, splitTargetValue_of_last_slash target free]
  exact contributionOf_routing_line routing token noSlash free

theorem contributionOf_ip_rule :
    ∀ rule ∈ (parseManagedAssetsFromText text).ipRules,
      contributionOf (trim (ipRuleLine rule)) = { ipRules := [rule.core] } := by
  intro rule membership
  have core := List.mem_map_of_mem (f := ManagedIpRule.core) membership
  rw [parse_ipRuleCores, List.mem_flatMap] at core
  obtain ⟨directive, directiveMem, own⟩ := core
  obtain ⟨ipRule, equality⟩ := eq_of_mem_ipRuleOf own
  rw [ipRuleLine_eq, equality]
  exact contributionOf_ip_line ipRule (trimmed_value_of_mem directiveMem)
    (regular.ip directive directiveMem ipRule)

theorem contributionOf_domain_set :
    ∀ set ∈ (parseManagedAssetsFromText text).domainSets,
      contributionOf (trim (domainSetLine set)) = { domainSets := [set] } := by
  intro set membership
  have free := regular.domain_set set membership
  rw [parse_domainSets, List.mem_flatMap] at membership
  obtain ⟨directive, -, own⟩ := membership
  unfold domainSetOf at own
  split at own
  · rw [domainSetFrom_eq, List.mem_map] at own
    obtain ⟨name, nameMem, rfl⟩ := own
    refine contributionOf_domainSetLine (parseNamedOption_token (Option.mem_toList.mp nameMem))
      ?_ ?_ free.1 free.2.1
    · cases found : parseNamedOption directive.value "-type" with
      | none => exact show IsToken ("list" : Text) by decide
      | some word => exact parseNamedOption_token found
    · cases found : parseNamedOption directive.value "-file" with
      | none => exact solid_nil
      | some word => exact (parseNamedOption_token found).2
  · simp at own

theorem contributionOf_ip_set :
    ∀ set ∈ (parseManagedAssetsFromText text).ipSets,
      contributionOf (trim (ipSetLine set)) = { ipSets := [set] } := by
  intro set membership
  have free := regular.ip_set set membership
  rw [parse_ipSets, List.mem_flatMap] at membership
  obtain ⟨directive, -, own⟩ := membership
  unfold ipSetOf at own
  split at own
  · rw [ipSetFrom_eq, List.mem_map] at own
    obtain ⟨name, nameMem, rfl⟩ := own
    refine contributionOf_ipSetLine (parseNamedOption_token (Option.mem_toList.mp nameMem))
      ?_ free.1
    cases found : parseNamedOption directive.value "-file" with
    | none => exact solid_nil
    | some word => exact (parseNamedOption_token found).2
  · simp at own

/-- Every line of the pages is read back as the asset it was written from. -/
theorem map_contributionOf_pageLines :
    ((pageLines (parseManagedAssetsFromText text)).map trim).map contributionOf =
      ((parseManagedAssetsFromText text).routingItems.filter (·.ruleType = "nameserver")).map
          (fun item => { routing := [item] }) ++
        (((parseManagedAssetsFromText text).routingItems.filter (·.ruleType ≠ "nameserver")).map
            (fun item => { routing := [item] }) ++
          (parseManagedAssetsFromText text).ipRules.map (fun rule => { ipRules := [rule.core] })) ++
        ((parseManagedAssetsFromText text).domainSets.map (fun set => { domainSets := [set] }) ++
          (parseManagedAssetsFromText text).ipSets.map (fun set => { ipSets := [set] })) := by
  simp only [pageLines, rulesPageLines, List.map_append, List.map_map]
  refine congrArg₂ (· ++ ·) (congrArg₂ (· ++ ·) ?_ (congrArg₂ (· ++ ·) ?_ ?_))
    (congrArg₂ (· ++ ·) ?_ ?_)
  · exact List.map_congr_left fun item membership =>
      (regular.contributionOf_routing_item item (List.mem_filter.mp membership).1).1
  · exact List.map_congr_left fun item membership =>
      (regular.contributionOf_routing_item item (List.mem_filter.mp membership).1).2
  · exact List.map_congr_left regular.contributionOf_ip_rule
  · exact List.map_congr_left regular.contributionOf_domain_set
  · exact List.map_congr_left regular.contributionOf_ip_set

theorem reloads_of_plain
    (plain : ∀ line ∈ pageLines (parseManagedAssetsFromText text),
      endsWith '\\' (trim line) = false) :
    Reloads (parseManagedAssetsFromText text)
      (parseManagedAssetsFromText (reloadedRulesText (parseManagedAssetsFromText text))) := by
  obtain ⟨routing, ipRules, domainSets, ipSets⟩ :=
    parse_eq_contributions (reloadedRulesText (parseManagedAssetsFromText text))
  have read := regular.map_contributionOf_pageLines
  rw [← logicalLines_reloaded (isSingleLine_parse text) plain] at read
  rw [read] at routing ipRules domainSets ipSets
  constructor
  · rw [domainSets]
    simp [List.flatMap_map]
  · rw [ipSets]
    simp [List.flatMap_map]
  · rw [ipRules]
    simp [List.flatMap_map, ← List.map_eq_flatMap]
  · rw [routing]
    simp [List.flatMap_map]

end RegularRules

end SmartDnsPlusUi
