import SmartDnsPlusUi.Config.Assets
import SmartDnsPlusUi.Text.Collect

/-!
# What the asset parser collects

Each directive contributes to at most one of the six lists, and apart from the
group it is scoped to its contribution does not depend on the directives around
it.
-/

namespace SmartDnsPlusUi

open Text

/-- An IP rule without the group it is scoped to. -/
structure IpRuleCore where
  ruleType : String
  target : Text
  options : Text
  deriving DecidableEq

def ManagedIpRule.core (rule : ManagedIpRule) : IpRuleCore :=
  ⟨rule.ruleType, rule.target, rule.options⟩

def routingOf (directive : Directive) : List ManagedRoutingItem :=
  if assetKeyword directive.key = .routing then
    let parts := splitTargetValue directive.value
    [⟨directive.key, parts.1, parts.2⟩]
  else []

def ipRuleOf (directive : Directive) : List IpRuleCore :=
  if assetKeyword directive.key = .ipRule then
    let parts := splitTargetOptions directive.value
    [⟨directive.key, parts.1, parts.2⟩]
  else []

def domainSetOf (directive : Directive) : List ManagedDomainSet :=
  if assetKeyword directive.key = .domainSet then domainSetFrom directive.value else []

def ipSetOf (directive : Directive) : List ManagedIpSet :=
  if assetKeyword directive.key = .ipSet then ipSetFrom directive.value else []

def clientRuleOf (groupName : Text) (directive : Directive) : List ManagedClientRule :=
  if assetKeyword directive.key = .clientRules then [⟨directive.value, groupName⟩] else []

def endedGroup (inGroup : Option ManagedRuleGroup) (directive : Directive) :
    List ManagedRuleGroup :=
  if assetKeyword directive.key = .groupEnd then inGroup.toList else []

def groupAfter (inGroup : Option ManagedRuleGroup) (directive : Directive) :
    Option ManagedRuleGroup :=
  match assetKeyword directive.key with
  | .groupBegin => some (beginGroup directive.value)
  | .groupMatch =>
      inGroup.map fun group => { group with matchers := group.matchers ++ [directive.value] }
  | .groupEnd => none
  | _ => inGroup

/-- One step of the parser, component by component. -/
theorem scanDirective_eq (scan : AssetScan) (directive : Directive) :
    scanDirective scan directive =
      { assets :=
          { ruleGroups := scan.assets.ruleGroups ++ endedGroup scan.inGroup directive
            clientRules := scan.assets.clientRules ++ clientRuleOf scan.groupName directive
            ipRules := scan.assets.ipRules ++ (ipRuleOf directive).map fun core =>
              ⟨core.ruleType, core.target, core.options, scan.groupName⟩
            routingItems := scan.assets.routingItems ++ routingOf directive
            domainSets := scan.assets.domainSets ++ domainSetOf directive
            ipSets := scan.assets.ipSets ++ ipSetOf directive }
        inGroup := groupAfter scan.inGroup directive } := by
  obtain ⟨assets, inGroup⟩ := scan
  unfold scanDirective endedGroup clientRuleOf ipRuleOf routingOf domainSetOf ipSetOf groupAfter
  cases keyword : assetKeyword directive.key with
  | groupEnd => cases inGroup <;> simp
  | _ => simp

theorem scanDirective_ipRuleCores (scan : AssetScan) (directive : Directive) :
    (scanDirective scan directive).assets.ipRules.map ManagedIpRule.core =
      scan.assets.ipRules.map ManagedIpRule.core ++ ipRuleOf directive := by
  rw [scanDirective_eq, List.map_append, List.map_map]
  congr 1
  exact List.map_id _

/-- Closing the group left open at the end of the text touches the groups
only. -/
theorem AssetScan.close_eq (scan : AssetScan) :
    ∃ groups, scan.close = { scan.assets with ruleGroups := groups } := by
  unfold AssetScan.close
  split
  · exact ⟨_, rfl⟩
  · exact ⟨scan.assets.ruleGroups, rfl⟩

theorem parseManagedAssetsFromText_eq (text : Text) :
    ∃ groups, parseManagedAssetsFromText text =
      { ((directives text).foldl scanDirective {}).assets with ruleGroups := groups } :=
  AssetScan.close_eq _

theorem parse_routingItems (text : Text) :
    (parseManagedAssetsFromText text).routingItems = (directives text).flatMap routingOf := by
  obtain ⟨groups, equality⟩ := parseManagedAssetsFromText_eq text
  rw [equality]
  simpa using foldl_append_flatMap scanDirective (·.assets.routingItems) routingOf
    (fun scan directive => by rw [scanDirective_eq]) {} (directives text)

theorem parse_domainSets (text : Text) :
    (parseManagedAssetsFromText text).domainSets = (directives text).flatMap domainSetOf := by
  obtain ⟨groups, equality⟩ := parseManagedAssetsFromText_eq text
  rw [equality]
  simpa using foldl_append_flatMap scanDirective (·.assets.domainSets) domainSetOf
    (fun scan directive => by rw [scanDirective_eq]) {} (directives text)

theorem parse_ipSets (text : Text) :
    (parseManagedAssetsFromText text).ipSets = (directives text).flatMap ipSetOf := by
  obtain ⟨groups, equality⟩ := parseManagedAssetsFromText_eq text
  rw [equality]
  simpa using foldl_append_flatMap scanDirective (·.assets.ipSets) ipSetOf
    (fun scan directive => by rw [scanDirective_eq]) {} (directives text)

theorem parse_ipRuleCores (text : Text) :
    (parseManagedAssetsFromText text).ipRules.map ManagedIpRule.core =
      (directives text).flatMap ipRuleOf := by
  obtain ⟨groups, equality⟩ := parseManagedAssetsFromText_eq text
  rw [equality]
  simpa using foldl_append_flatMap scanDirective
    (·.assets.ipRules.map ManagedIpRule.core) ipRuleOf scanDirective_ipRuleCores {} (directives text)

/-! ### Group scope -/

theorem groupAfter_none {directive : Directive}
    (keeps : assetKeyword directive.key ≠ .groupBegin) : groupAfter none directive = none := by
  unfold groupAfter
  split <;> simp_all

/-- Without `group-begin` no group is ever open. -/
theorem foldl_scanDirective_of_no_group {ds : List Directive}
    (none : ∀ directive ∈ ds, assetKeyword directive.key ≠ .groupBegin) {scan : AssetScan}
    (closed : scan.inGroup = Option.none) :
    (ds.foldl scanDirective scan).inGroup = Option.none ∧
      (ds.foldl scanDirective scan).assets.ruleGroups = scan.assets.ruleGroups ∧
      (ds.foldl scanDirective scan).assets.ipRules =
        scan.assets.ipRules ++ (ds.flatMap ipRuleOf).map fun core =>
          ⟨core.ruleType, core.target, core.options, []⟩ := by
  induction ds generalizing scan with
  | nil => simp [closed]
  | cons directive ds inductionHypothesis =>
      simp only [List.mem_cons, forall_eq_or_imp] at none
      have step : (scanDirective scan directive).inGroup = Option.none := by
        rw [scanDirective_eq, closed]
        exact groupAfter_none none.1
      obtain ⟨stillClosed, groups, rules⟩ := inductionHypothesis none.2 step
      rw [List.foldl_cons]
      refine ⟨stillClosed, ?_, ?_⟩
      · rw [groups, scanDirective_eq, closed]
        simp [endedGroup]
      · rw [rules, scanDirective_eq, List.flatMap_cons, List.map_append, List.append_assoc]
        simp [AssetScan.groupName, closed]

theorem parse_of_no_group {text : Text}
    (none : ∀ directive ∈ directives text, assetKeyword directive.key ≠ .groupBegin) :
    (parseManagedAssetsFromText text).ruleGroups = [] ∧
      (parseManagedAssetsFromText text).ipRules =
        ((directives text).flatMap ipRuleOf).map fun core =>
          ⟨core.ruleType, core.target, core.options, []⟩ := by
  have start : ({} : AssetScan).inGroup = Option.none := rfl
  obtain ⟨closed, groups, rules⟩ := foldl_scanDirective_of_no_group none start
  simp [parseManagedAssetsFromText, AssetScan.close, closed, groups, rules]

/-- A group that was begun is open or already listed. -/
theorem foldl_scanDirective_keeps_group (ds : List Directive) {scan : AssetScan}
    (begun : scan.inGroup ≠ none ∨ scan.assets.ruleGroups ≠ []) :
    (ds.foldl scanDirective scan).inGroup ≠ none ∨
      (ds.foldl scanDirective scan).assets.ruleGroups ≠ [] := by
  induction ds generalizing scan with
  | nil => exact begun
  | cons directive ds inductionHypothesis =>
      rw [List.foldl_cons]
      apply inductionHypothesis
      rw [scanDirective_eq]
      rcases begun with open_ | listed
      · by_cases ends : assetKeyword directive.key = .groupEnd
        · right
          obtain ⟨group, equality⟩ := Option.ne_none_iff_exists'.mp open_
          simp [endedGroup, ends, equality]
        · left
          unfold groupAfter
          split <;> simp_all
      · exact .inr (by simp [listed])

theorem parse_ruleGroups_ne_nil {text : Text} {directive : Directive}
    (membership : directive ∈ directives text) (begins : assetKeyword directive.key = .groupBegin) :
    (parseManagedAssetsFromText text).ruleGroups ≠ [] := by
  obtain ⟨before, after, equality⟩ := List.append_of_mem membership
  have begun : (((directives text).foldl scanDirective {}).inGroup ≠ none ∨
      ((directives text).foldl scanDirective {}).assets.ruleGroups ≠ []) := by
    rw [equality, List.foldl_append, List.foldl_cons]
    apply foldl_scanDirective_keeps_group
    left
    rw [scanDirective_eq]
    simp [groupAfter, begins]
  unfold parseManagedAssetsFromText AssetScan.close
  split
  · simp
  · simp_all

theorem parse_clientMatchers (text : Text) :
    (parseManagedAssetsFromText text).clientRules.map (·.matcher) =
      (directives text).flatMap fun directive =>
        if assetKeyword directive.key = .clientRules then [directive.value] else [] := by
  have matchers : ∀ (scan : AssetScan) (directive : Directive),
      (scanDirective scan directive).assets.clientRules.map (·.matcher) =
        scan.assets.clientRules.map (·.matcher) ++
          if assetKeyword directive.key = .clientRules then [directive.value] else [] := by
    intro scan directive
    rw [scanDirective_eq]
    by_cases client : assetKeyword directive.key = .clientRules <;> simp [clientRuleOf, client]
  obtain ⟨groups, equality⟩ := parseManagedAssetsFromText_eq text
  rw [equality]
  simpa using foldl_append_flatMap scanDirective (·.assets.clientRules.map (·.matcher)) _
    matchers {} (directives text)

theorem parse_clientRules_eq_nil_iff (text : Text) :
    (parseManagedAssetsFromText text).clientRules = [] ↔
      ∀ directive ∈ directives text, assetKeyword directive.key ≠ .clientRules := by
  rw [← List.map_eq_nil_iff (f := (·.matcher)), parse_clientMatchers]
  simp

end SmartDnsPlusUi
