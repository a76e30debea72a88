import SmartDnsPlusUi.Config.Backslashes
import SmartDnsPlusUi.Config.GroupScope

/-!
# Parsed assets

The shape of what the parser collects, groups and client rules included, and
the backslashes that it can have collected from a text.
-/

namespace SmartDnsPlusUi

open Text

/-- Names and options of a group are words, and its matchers lines. -/
structure IsParsedGroup (group : ManagedRuleGroup) : Prop where
  name : Solid group.name
  inherit : Solid group.inherit
  inherit_of_no_name : group.name = [] → group.inherit = []
  matchers : ∀ value ∈ group.matchers, Trimmed value ∧ '\n' ∉ value

/-- The shape of the parts that are no routing rules. -/
structure IsParsed (assets : ManagedAssets) : Prop where
  domain_set : ∀ set ∈ assets.domainSets, IsToken set.name ∧ IsToken set.setType ∧ Solid set.file
  ip_set : ∀ set ∈ assets.ipSets, IsToken set.name ∧ Solid set.file
  routing : ∀ item ∈ assets.routingItems, ∃ value, Trimmed value ∧
    splitTargetValue value = (item.target, item.value)
  ip : ∀ rule ∈ assets.ipRules, ∃ value, Trimmed value ∧
    splitTargetOptions value = (rule.target, rule.options)
  group : ∀ group ∈ assets.ruleGroups, IsParsedGroup group
  client : ∀ rule ∈ assets.clientRules, Trimmed rule.matcher ∧ '\n' ∉ rule.matcher

/-! ### Groups and client rules -/

/-- What holds of a group when it is begun, and is kept by each matcher, holds of
every group that is listed or open. -/
theorem forall_groups_scan {P : ManagedRuleGroup → Prop} {ds : List Directive}
    (begins : ∀ directive ∈ ds, P (beginGroup directive.value))
    (adds : ∀ directive ∈ ds, ∀ group, P group → P (group.addMatcher directive.value))
    {scan : AssetScan}
    (holds : ∀ group ∈ scan.assets.ruleGroups ++ scan.inGroup.toList, P group) :
    ∀ group ∈ (ds.foldl scanDirective scan).assets.ruleGroups ++
      (ds.foldl scanDirective scan).inGroup.toList, P group := by
  induction ds generalizing scan with
  | nil => exact holds
  | cons directive ds inductionHypothesis =>
      simp only [List.mem_cons, forall_eq_or_imp] at begins adds
      refine inductionHypothesis begins.2 adds.2 ?_
      obtain ⟨assets, inGroup⟩ := scan
      simp only [List.mem_append, Option.mem_toList] at holds ⊢
      cases keyword : assetKeyword directive.key with
      | groupBegin =>
          simp only [scanDirective, keyword]
          rintro group (listed | isOpen)
          · exact holds group (.inl listed)
          · exact Option.some.inj isOpen ▸ begins.1
      | groupMatch =>
          simp only [scanDirective, keyword]
          rintro group (listed | isOpen)
          · exact holds group (.inl listed)
          · obtain ⟨before, same, rfl⟩ := Option.map_eq_some_iff.mp isOpen
            exact adds.1 before (holds before (.inr same))
      | groupEnd =>
          cases inGroup with
          | none => simpa [scanDirective, keyword] using holds
          | some ended =>
              simp only [scanDirective, keyword, List.mem_append, List.mem_singleton]
              rintro group ((listed | rfl) | isOpen)
              · exact holds group (.inl listed)
              · exact holds group (.inr rfl)
              · cases isOpen
      | _ => simpa [scanDirective, keyword] using holds

theorem isParsedGroup_beginGroup (value : Text) : IsParsedGroup (beginGroup value) := by
  have words := @token_of_mem_splitWhitespace value
  refine ⟨?_, ?_, ?_, by simp [beginGroup]⟩
  · cases found : splitWhitespace value with
    | nil => simp [beginGroup, found]
    | cons word rest =>
        have token := words (found ▸ List.mem_cons_self)
        simpa [beginGroup, found, trim_eq_self token.trimmed] using token.2
  · unfold beginGroup
    cases found : parseNamedOption value "-inherit" with
    | none => exact solid_nil
    | some word => exact (parseNamedOption_token found).2
  · cases found : splitWhitespace value with
    | nil =>
        intro _
        simp [beginGroup, parseNamedOption, found, lookupOption]
    | cons word rest =>
        have token := words (found ▸ List.mem_cons_self)
        intro empty
        exact absurd (by simpa [beginGroup, found, trim_eq_self token.trimmed] using empty) token.1

theorem IsParsedGroup.addMatcher {group : ManagedRuleGroup} (parsed : IsParsedGroup group)
    {value : Text} (trimmed : Trimmed value) (free : '\n' ∉ value) :
    IsParsedGroup (group.addMatcher value) := by
  refine ⟨parsed.name, parsed.inherit, parsed.inherit_of_no_name, fun matcher membership => ?_⟩
  simp only [ManagedRuleGroup.addMatcher, List.mem_append, List.mem_singleton] at membership
  rcases membership with earlier | rfl
  · exact parsed.matchers matcher earlier
  · exact ⟨trimmed, free⟩

theorem isParsedGroup_parse (text : Text) :
    ∀ group ∈ (parseManagedAssetsFromText text).ruleGroups, IsParsedGroup group := by
  rw [parse_ruleGroups]
  exact forall_groups_scan (fun directive _ => isParsedGroup_beginGroup directive.value)
    (fun directive membership group parsed => parsed.addMatcher
      (trimmed_value_of_mem membership) (not_mem_value_of_mem membership)) (by simp)

theorem isParsed_parse (text : Text) : IsParsed (parseManagedAssetsFromText text) where
  domain_set := by
    intro set membership
    rw [parse_domainSets, List.mem_flatMap] at membership
    obtain ⟨directive, -, own⟩ := membership
    unfold domainSetOf at own
    split at own
    · rw [domainSetFrom_eq, List.mem_map] at own
      obtain ⟨name, nameMem, rfl⟩ := own
      refine ⟨parseNamedOption_token (Option.mem_toList.mp nameMem), ?_, ?_⟩
      · cases found : parseNamedOption directive.value "-type" with
        | none => exact show IsToken ("list" : Text) by decide
        | some word => exact parseNamedOption_token found
      · cases found : parseNamedOption directive.value "-file" with
        | none => exact solid_nil
        | some word => exact (parseNamedOption_token found).2
    · cases own
  ip_set := by
    intro set membership
    rw [parse_ipSets, List.mem_flatMap] at membership
    obtain ⟨directive, -, own⟩ := membership
    unfold ipSetOf at own
    split at own
    · rw [ipSetFrom_eq, List.mem_map] at own
      obtain ⟨name, nameMem, rfl⟩ := own
      refine ⟨parseNamedOption_token (Option.mem_toList.mp nameMem), ?_⟩
      cases found : parseNamedOption directive.value "-file" with
      | none => exact solid_nil
      | some word => exact (parseNamedOption_token found).2
    · cases own
  routing := by
    intro item membership
    rw [parse_routingItems, List.mem_flatMap] at membership
    obtain ⟨directive, directiveMem, own⟩ := membership
    obtain ⟨-, rfl⟩ := eq_of_mem_routingOf own
    exact ⟨directive.value, trimmed_value_of_mem directiveMem, rfl⟩
  ip := by
    intro rule membership
    have core := List.mem_map_of_mem (f := ManagedIpRule.core) membership
    rw [parse_ipRuleCores, List.mem_flatMap] at core
    obtain ⟨directive, directiveMem, own⟩ := core
    obtain ⟨-, equality⟩ := eq_of_mem_ipRuleOf own
    have target : rule.target = (splitTargetOptions directive.value).1 :=
      congrArg IpRuleCore.target equality
    have options : rule.options = (splitTargetOptions directive.value).2 :=
      congrArg IpRuleCore.options equality
    exact ⟨directive.value, trimmed_value_of_mem directiveMem, by rw [target, options]⟩
  group := isParsedGroup_parse text
  client := by
    intro rule membership
    have matcher := List.mem_map_of_mem (f := (·.matcher)) membership
    rw [parse_clientMatchers, List.mem_flatMap] at matcher
    obtain ⟨directive, directiveMem, own⟩ := matcher
    split at own
    · rw [List.mem_singleton.mp own]
      exact ⟨trimmed_value_of_mem directiveMem, not_mem_value_of_mem directiveMem⟩
    · cases own

/-! ### Backslashes -/

def ManagedRuleGroup.backslashes (group : ManagedRuleGroup) : Nat :=
  group.name.count '\\' + group.inherit.count '\\' + countIn '\\' group.matchers

/-- The backslashes in the fields of all six lists. -/
def ManagedAssets.allBackslashes (assets : ManagedAssets) : Nat :=
  assets.backslashes + total (·.backslashes) assets.ruleGroups +
    total (·.matcher.count '\\') assets.clientRules

def AssetScan.allBackslashes (scan : AssetScan) : Nat :=
  scan.assets.allBackslashes + total (·.backslashes) scan.inGroup.toList

theorem backslashes_beginGroup_le (value : Text) :
    (beginGroup value).backslashes ≤ value.count '\\' := by
  have words := countIn_splitWhitespace isWhitespace_backslash value
  have picked := total_lookupOption_le ["-inherit".toList] (by decide) (splitWhitespace value)
  simp only [total_cons, total_nil, Nat.add_zero] at picked
  have inherited : (beginGroup value).inherit.count '\\' ≤
      countIn '\\' (splitWhitespace value).tail := by
    rw [beginGroup, countIn_toList_getD _ (by simp)]
    exact picked
  have name : (beginGroup value).name.count '\\' + countIn '\\' (splitWhitespace value).tail =
      countIn '\\' (splitWhitespace value) := by
    rw [beginGroup, count_trim isWhitespace_backslash]
    cases splitWhitespace value <;> simp
  have none : countIn '\\' (beginGroup value).matchers = 0 := rfl
  rw [ManagedRuleGroup.backslashes]
  omega

theorem allBackslashes_scanDirective_le (scan : AssetScan) (directive : Directive) :
    (scanDirective scan directive).allBackslashes ≤
      scan.allBackslashes + directive.value.count '\\' := by
  obtain ⟨assets, inGroup⟩ := scan
  have begins := backslashes_beginGroup_le directive.value
  have routing := count_splitTargetValue_le isWhitespace_backslash directive.value
  have ipRule := count_splitTargetOptions_le isWhitespace_backslash directive.value
  have domainSet := total_domainSetFrom_le directive.value
  have ipSet := total_ipSetFrom_le directive.value
  unfold AssetScan.allBackslashes ManagedAssets.allBackslashes ManagedAssets.backslashes
  cases keyword : assetKeyword directive.key with
  | groupBegin =>
      simp only [scanDirective, keyword, Option.toList_some, total_cons, total_nil]
      omega
  | groupMatch =>
      cases inGroup with
      | none => simp [scanDirective, keyword]
      | some group =>
          simp only [scanDirective, keyword, Option.map_some, Option.toList_some, total_cons,
            total_nil, ManagedRuleGroup.backslashes, countIn_append, countIn_cons, countIn_nil]
          omega
  | groupEnd =>
      cases inGroup with
      | none => simp [scanDirective, keyword]
      | some group =>
          simp only [scanDirective, keyword, Option.toList_some, Option.toList_none,
            total_append, total_cons, total_nil]
          omega
  | clientRules =>
      simp only [scanDirective, keyword, total_append, total_cons, total_nil]
      omega
  | ipRule =>
      simp only [scanDirective, keyword, total_append, total_cons, total_nil,
        ManagedIpRule.core, IpRuleCore.backslashes]
      omega
  | routing =>
      simp only [scanDirective, keyword, total_append, total_cons, total_nil,
        ManagedRoutingItem.backslashes]
      omega
  | domainSet =>
      simp only [scanDirective, keyword, total_append]
      omega
  | ipSet =>
      simp only [scanDirective, keyword, total_append]
      omega
  | other => simp [scanDirective, keyword]

theorem allBackslashes_foldl_le (ds : List Directive) (scan : AssetScan) :
    (ds.foldl scanDirective scan).allBackslashes ≤
      scan.allBackslashes + total (·.value.count '\\') ds := by
  induction ds generalizing scan with
  | nil => simp
  | cons directive ds inductionHypothesis =>
      have step := allBackslashes_scanDirective_le scan directive
      have later := inductionHypothesis (scanDirective scan directive)
      rw [List.foldl_cons, total_cons]
      omega

theorem AssetScan.allBackslashes_close (scan : AssetScan) :
    scan.close.allBackslashes = scan.allBackslashes := by
  obtain ⟨assets, inGroup⟩ := scan
  cases inGroup with
  | none => simp [AssetScan.close, AssetScan.allBackslashes]
  | some group =>
      simp only [AssetScan.close, AssetScan.allBackslashes, ManagedAssets.allBackslashes,
        ManagedAssets.backslashes, Option.toList_some, total_append, total_cons, total_nil]
      omega

/-- The parser invents no backslash. -/
theorem allBackslashes_parse_le (text : Text) :
    (parseManagedAssetsFromText text).allBackslashes ≤ countIn '\\' (logicalLines text) := by
  have run := allBackslashes_foldl_le (directives text) {}
  have start : ({} : AssetScan).allBackslashes = 0 := rfl
  have values : total (·.value.count '\\') (directives text) ≤ countIn '\\' (logicalLines text) := by
    rw [directives_eq_map, total_map, countIn]
    refine total_le fun line _ => ?_
    have split := count_splitDirective isWhitespace_backslash line
    omega
  rw [parseManagedAssetsFromText, AssetScan.allBackslashes_close]
  omega

end SmartDnsPlusUi
