import Mathlib.Data.List.Nodup
import SmartDnsPlusUi.Config.AssetPages

/-!
# Accounting for backslashes

Parsing copies the backslashes of the logical lines into the assets and invents
none; the three pages hold the backslashes of the assets they render.  With the
loss at every continued line this bounds what a page with one can give back.
-/

namespace SmartDnsPlusUi

open Text

def ManagedRoutingItem.backslashes (item : ManagedRoutingItem) : Nat :=
  item.target.count '\\' + item.value.count '\\'

def IpRuleCore.backslashes (core : IpRuleCore) : Nat :=
  core.target.count '\\' + core.options.count '\\'

def ManagedDomainSet.backslashes (set : ManagedDomainSet) : Nat :=
  set.name.count '\\' + set.file.count '\\' + set.setType.count '\\'

def ManagedIpSet.backslashes (set : ManagedIpSet) : Nat :=
  set.name.count '\\' + set.file.count '\\'

/-- The backslashes in the fields that a save writes. -/
def ManagedAssets.backslashes (assets : ManagedAssets) : Nat :=
  total (·.backslashes) assets.routingItems + total (·.core.backslashes) assets.ipRules +
    total (·.backslashes) assets.domainSets + total (·.backslashes) assets.ipSets

/-! ### Parsing -/

/-- Options with different names pick different words. -/
theorem total_lookupOption_le (names : List Text) (distinct : names.Nodup) (tokens : List Text) :
    total (fun name => countIn '\\' (lookupOption name tokens).toList) names ≤
      countIn '\\' tokens.tail := by
  induction tokens generalizing names with
  | nil => simp [lookupOption, total]
  | cons token rest inductionHypothesis =>
      have others : ∀ names : List Text, names.Nodup → token ∉ names →
          total (fun name => countIn '\\' (lookupOption name (token :: rest)).toList) names ≤
            countIn '\\' rest.tail := by
        intro names distinct fresh
        have same := total_congr names fun name membership => by
          have other : token ≠ name := fun same => fresh (same ▸ membership)
          exact congrArg (fun found => countIn '\\' (Option.toList found))
            (show lookupOption name (token :: rest) = lookupOption name rest by
              rw [lookupOption, if_neg other])
        exact same.trans_le (inductionHypothesis names distinct)
      by_cases present : token ∈ names
      · -- this name picks the next word, the others search after it
        obtain ⟨front, back, rfl⟩ := List.append_of_mem present
        have fresh : token ∉ front ++ back ∧ (front ++ back).Nodup := by
          have := List.nodup_middle.mp distinct
          simpa using this
        have rest_le := others (front ++ back) fresh.2 fresh.1
        have own : lookupOption token (token :: rest) = rest.head? := by simp [lookupOption]
        have split : countIn '\\' rest = countIn '\\' rest.head?.toList + countIn '\\' rest.tail := by
          cases rest <;> simp
        simp only [total_append, total_cons, own, List.tail_cons] at rest_le ⊢
        omega
      · have rest_le := others names distinct present
        have shorter : countIn '\\' rest.tail ≤ countIn '\\' rest := by
          cases rest <;> simp
        simp only [List.tail_cons]
        omega

theorem countIn_toList_getD (found : Option Text) {fallback : Text} (none : '\\' ∉ fallback) :
    (found.getD fallback).count '\\' = countIn '\\' found.toList := by
  cases found with
  | none => simpa using List.count_eq_zero_of_not_mem none
  | some word => simp

theorem total_options_le (value : Text) (names : List Text) (distinct : names.Nodup) :
    total (fun name => countIn '\\' (parseNamedOption value name).toList) names ≤
      value.count '\\' := by
  have picked := total_lookupOption_le names distinct (splitWhitespace value)
  have words := countIn_splitWhitespace isWhitespace_backslash value
  have shorter : countIn '\\' (splitWhitespace value).tail ≤ countIn '\\' (splitWhitespace value) := by
    cases splitWhitespace value <;> simp
  unfold parseNamedOption
  omega

theorem total_domainSetFrom_le (value : Text) :
    total (·.backslashes) (domainSetFrom value) ≤ value.count '\\' := by
  have options := total_options_le value ["-name", "-file", "-type"] (by decide)
  rw [domainSetFrom_eq]
  cases found : parseNamedOption value "-name" with
  | none => simp
  | some name =>
      simp only [total_cons, total_nil, found, Option.toList_some, countIn_cons,
        countIn_nil] at options
      simp only [Option.toList_some, List.map_cons, List.map_nil, total_cons, total_nil,
        ManagedDomainSet.backslashes]
      rw [countIn_toList_getD _ (by simp), countIn_toList_getD _ (by decide)]
      omega

theorem total_ipSetFrom_le (value : Text) :
    total (·.backslashes) (ipSetFrom value) ≤ value.count '\\' := by
  have options := total_options_le value ["-name", "-file"] (by decide)
  rw [ipSetFrom_eq]
  cases found : parseNamedOption value "-name" with
  | none => simp
  | some name =>
      simp only [total_cons, total_nil, found, Option.toList_some, countIn_cons,
        countIn_nil] at options
      simp only [Option.toList_some, List.map_cons, List.map_nil, total_cons, total_nil,
        ManagedIpSet.backslashes]
      rw [countIn_toList_getD _ (by simp)]
      omega

/-- The backslashes of everything one directive contributes. -/
theorem backslashes_of_directive_le (directive : Directive) :
    total (·.backslashes) (routingOf directive) + total (·.backslashes) (ipRuleOf directive) +
        total (·.backslashes) (domainSetOf directive) +
        total (·.backslashes) (ipSetOf directive) ≤
      directive.value.count '\\' := by
  unfold routingOf ipRuleOf domainSetOf ipSetOf
  have routing := count_splitTargetValue_le isWhitespace_backslash directive.value
  have ipRule := count_splitTargetOptions_le isWhitespace_backslash directive.value
  have domainSet := total_domainSetFrom_le directive.value
  have ipSet := total_ipSetFrom_le directive.value
  cases keyword : assetKeyword directive.key <;>
    simp [ManagedRoutingItem.backslashes, IpRuleCore.backslashes] <;> omega

theorem backslashes_parse_le (text : Text) :
    (parseManagedAssetsFromText text).backslashes ≤ countIn '\\' (logicalLines text) := by
  have cores : total (·.core.backslashes) (parseManagedAssetsFromText text).ipRules =
      total (·.backslashes) ((directives text).flatMap ipRuleOf) := by
    rw [← parse_ipRuleCores, total_map]
  have lines_ : total (fun directive => directive.value.count '\\') (directives text) ≤
      countIn '\\' (logicalLines text) := by
    rw [directives_eq_map, total_map, countIn]
    apply total_le
    intro line _
    have split := count_splitDirective isWhitespace_backslash line
    omega
  have each := total_le fun directive (_ : directive ∈ directives text) =>
    backslashes_of_directive_le directive
  simp only [total_add] at each
  rw [ManagedAssets.backslashes, cores, parse_routingItems, parse_domainSets, parse_ipSets,
    total_flatMap, total_flatMap, total_flatMap, total_flatMap]
  omega

/-! ### Rendering -/

theorem count_backslash_keyed {key : String} (keyword : '\\' ∉ key.toList) (argument : Text) :
    (keyed key argument).count '\\' = argument.count '\\' := by
  rw [count_keyed (by simp), List.count_eq_zero_of_not_mem keyword, Nat.zero_add]

theorem count_nameserverLine (item : ManagedRoutingItem) (keyword : '\\' ∉ item.ruleType.toList) :
    (nameserverLine item).count '\\' = item.backslashes := by
  unfold nameserverLine ManagedRoutingItem.backslashes
  by_cases empty : item.value = [] <;> simp [count_backslash_keyed keyword, empty]

theorem count_ruleEntryLine (item : ManagedRoutingItem) (keyword : '\\' ∉ item.ruleType.toList) :
    (ruleEntryLine item).count '\\' = item.backslashes := by
  unfold ruleEntryLine ManagedRoutingItem.backslashes
  by_cases ends : endsWith '/' item.target = true <;> by_cases empty : item.value = [] <;>
    simp [count_backslash_keyed keyword, ends, empty]

theorem IpRuleCore.count_line (core : IpRuleCore) (keyword : '\\' ∉ core.ruleType.toList) :
    core.line.count '\\' = core.backslashes := by
  unfold IpRuleCore.line IpRuleCore.backslashes
  by_cases empty : core.options = [] <;> simp [count_backslash_keyed keyword, empty]

/-- The pages of the routing and IP rules hold the backslashes of the rules. -/
theorem countIn_rulePages {assets : ManagedAssets}
    (routing : ∀ item ∈ assets.routingItems, '\\' ∉ item.ruleType.toList)
    (ip : ∀ rule ∈ assets.ipRules, '\\' ∉ rule.ruleType.toList) :
    countIn '\\' ((assets.routingItems.filter (·.ruleType = "nameserver")).map nameserverLine) +
        countIn '\\' ((assets.routingItems.filter (·.ruleType ≠ "nameserver")).map ruleEntryLine ++
          assets.ipRules.map ipRuleLine) =
      total (·.backslashes) assets.routingItems + total (·.core.backslashes) assets.ipRules := by
  have split := total_filter ManagedRoutingItem.backslashes
    (fun item => decide (item.ruleType = "nameserver")) assets.routingItems
  simp only [← decide_not] at split
  have first := total_congr (assets.routingItems.filter (·.ruleType = "nameserver"))
    fun item membership =>
      count_nameserverLine item (routing item (List.mem_filter.mp membership).1)
  have second := total_congr (assets.routingItems.filter (·.ruleType ≠ "nameserver"))
    fun item membership =>
      count_ruleEntryLine item (routing item (List.mem_filter.mp membership).1)
  have third := total_congr assets.ipRules fun rule membership =>
    rule.core.count_line (ip rule membership)
  simp only [countIn_append, countIn_map, ipRuleLine_eq]
  rw [first, second, third, ← Nat.add_assoc]
  exact congrArg (· + total (·.core.backslashes) assets.ipRules) split

theorem count_domainSetLine (set : ManagedDomainSet) :
    (domainSetLine set).count '\\' = set.backslashes := by
  have first : ("domain-set -name " : Text).count '\\' = 0 := by decide
  have second : (" -type " : Text).count '\\' = 0 := by decide
  have third : (" -file " : Text).count '\\' = 0 := by decide
  unfold domainSetLine ManagedDomainSet.backslashes
  simp only [List.count_append, first, second, third]
  omega

theorem count_ipSetLine (set : ManagedIpSet) : (ipSetLine set).count '\\' = set.backslashes := by
  have first : ("ip-set -name " : Text).count '\\' = 0 := by decide
  have second : (" -file " : Text).count '\\' = 0 := by decide
  unfold ipSetLine ManagedIpSet.backslashes
  simp only [List.count_append, first, second]
  omega

theorem countIn_setPage (assets : ManagedAssets) :
    countIn '\\' (assets.domainSets.map domainSetLine ++ assets.ipSets.map ipSetLine) =
      total (·.backslashes) assets.domainSets + total (·.backslashes) assets.ipSets := by
  simp only [countIn_append, countIn_map, count_domainSetLine, count_ipSetLine]

/-- The three pages of single-line assets hold the backslashes of the assets. -/
theorem countIn_pages {assets : ManagedAssets} (single : IsSingleLine assets) :
    countIn '\\' (contentOf (renderRoutingItemsText assets)) +
        countIn '\\' (contentOf (renderRuleEntriesText assets)) +
        countIn '\\' (contentOf (renderSetsText assets)) =
      assets.backslashes := by
  obtain ⟨routingPage, rulesPage, setsPage⟩ := single.contentOf_pages
  have rules := countIn_rulePages
    (fun item membership => (isKeyword_of_assetKeyword
      ((single.routing_type item membership).trans_ne (by decide))).2)
    (fun rule membership => (isKeyword_of_assetKeyword
      ((single.ip_type rule membership).trans_ne (by decide))).2)
  rw [routingPage, rulesPage, setsPage, countIn_map_trim (by simp), countIn_map_trim (by simp),
    countIn_map_trim (by simp), rulesPageLines, rules, countIn_setPage, ManagedAssets.backslashes]
  omega

end SmartDnsPlusUi
