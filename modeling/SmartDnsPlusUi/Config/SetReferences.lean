import SmartDnsPlusUi.Config.RuleSets
import SmartDnsPlusUi.Text.Pieces

/-!
# References to sets

A rule refers to a set by the word `domain-set:NAME` or `ip-set:NAME` between slashes or
white space.  The readers search for that text anywhere in the rule, and list a rule too
much exactly when it has a longer word around it and not the word itself.
-/

namespace SmartDnsPlusUi

open Text

/-! ### Words of a rule -/

/-- What ends a name in a rule. -/
def endsName (c : Char) : Bool := c = '/' || isWhitespace c

def ruleWords (t : Text) : List Text := t.splitOnP endsName

/-- One of the texts has the marker as a word. -/
def Names (marker : Text) (texts : List Text) : Prop := ∃ t ∈ texts, marker ∈ ruleWords t

/-- None of the texts has the marker as a word, but one has a word in which more characters
stand before or after it, as in the name of another set that begins with that of this one. -/
def NamesLonger (marker : Text) (texts : List Text) : Prop :=
  ¬ Names marker texts ∧ ∃ t ∈ texts, ∃ word ∈ ruleWords t, word ≠ marker ∧ marker <:+: word

instance (marker : Text) (texts : List Text) : Decidable (Names marker texts) :=
  inferInstanceAs (Decidable (∃ t ∈ texts, marker ∈ ruleWords t))

instance (marker : Text) (texts : List Text) : Decidable (NamesLonger marker texts) :=
  inferInstanceAs (Decidable (¬ Names marker texts ∧
    ∃ t ∈ texts, ∃ word ∈ ruleWords t, word ≠ marker ∧ marker <:+: word))

theorem contains_iff_names {marker : Text} (solid : ∀ c ∈ marker, endsName c = false)
    (texts : List Text) :
    (∃ t ∈ texts, contains marker t = true) ↔ Names marker texts ∨ NamesLonger marker texts := by
  constructor
  · rintro ⟨t, member, occurs⟩
    by_cases names : Names marker texts
    · exact .inl names
    · rw [contains_iff_isInfix, infix_iff_splitOnP solid] at occurs
      obtain ⟨word, inText, inside⟩ := occurs
      refine .inr ⟨names, t, member, word, inText, ?_, inside⟩
      rintro rfl
      exact names ⟨t, member, inText⟩
  · have occurs : ∀ t word, word ∈ ruleWords t → marker <:+: word → contains marker t = true :=
      fun t word inText inside =>
        (contains_iff_isInfix _ _).mpr (inside.trans (infix_of_mem_splitOnP inText))
    rintro (⟨t, member, inText⟩ | ⟨-, t, member, word, inText, -, inside⟩)
    · exact ⟨t, member, occurs t marker inText List.infix_rfl⟩
    · exact ⟨t, member, occurs t word inText inside⟩

/-! ### Selections from a list -/

section

variable {Element Item : Type} {found wanted : Element → Bool}

/-- A selection that has all that is wanted has nothing else exactly when every element
that it selects is wanted. -/
theorem map_filter_eq_iff (covers : ∀ element, wanted element = true → found element = true)
    (describe : Element → Item) (elements : List Element) :
    (elements.filter found).map describe = (elements.filter wanted).map describe ↔
      ∀ element ∈ elements, found element = true → wanted element = true := by
  have shorter : List.Sublist (elements.filter wanted) (elements.filter found) :=
    List.monotone_filter_right elements covers
  constructor
  · intro same
    have lengths := congrArg List.length same
    rw [List.length_map, List.length_map] at lengths
    have filters := shorter.eq_of_length lengths.symm
    intro element member selected
    have kept : element ∈ elements.filter found := List.mem_filter.mpr ⟨member, selected⟩
    rw [← filters] at kept
    exact (List.mem_filter.mp kept).2
  · intro all
    refine congrArg _ (List.filter_congr fun element member => ?_)
    exact Bool.eq_iff_iff.mpr ⟨all element member, covers element⟩

theorem length_map_filter_le (covers : ∀ element, wanted element = true → found element = true)
    (describe : Element → Item) (elements : List Element) :
    ((elements.filter wanted).map describe).length ≤
      ((elements.filter found).map describe).length := by
  rw [List.length_map, List.length_map]
  exact (List.monotone_filter_right elements covers).length_le

theorem filterMap_if (describe : Element → Item) (elements : List Element) :
    elements.filterMap (fun element => if found element then some (describe element) else none) =
      (elements.filter found).map describe := by
  induction elements with
  | nil => rfl
  | cons element elements inductionHypothesis =>
      by_cases selected : found element = true
      · simp [selected, inductionHypothesis]
      · simp [selected, inductionHypothesis]

theorem append_eq_iff_of_length_le {first second wantedFirst wantedSecond : List Item}
    (one : wantedFirst.length ≤ first.length) (two : wantedSecond.length ≤ second.length) :
    first ++ second = wantedFirst ++ wantedSecond ↔
      first = wantedFirst ∧ second = wantedSecond := by
  constructor
  · intro same
    have lengths := congrArg List.length same
    rw [List.length_append, List.length_append] at lengths
    exact List.append_inj same (by omega)
  · rintro ⟨rfl, rfl⟩
    rfl

end

/-! ### Domain sets -/

/-- The routing rules that name a domain set, as they are listed. -/
def domainSetNamers (items : List RoutingRuleItem) (name : Text) : List Text :=
  ((items.filter (·.ruleType ≠ "domain-set")).filter fun candidate =>
    decide (Names (domainSetMarker name) [candidate.target])).map fun candidate =>
      describeReference candidate.ruleType.toList candidate.target candidate.value

/-- The search finds every text that names the marker, and no other one exactly when no text
names something longer. -/
theorem search_exact_iff {marker : Text} (solid : ∀ c ∈ marker, endsName c = false)
    (texts : List Text) :
    ((∃ t ∈ texts, contains marker t = true) → Names marker texts) ↔
      ¬ NamesLonger marker texts := by
  rw [contains_iff_names solid]
  constructor
  · exact fun all longer => longer.1 (all (.inr longer))
  · exact fun unambiguous => Or.rec id fun longer => absurd longer unambiguous

theorem endsName_of_token {name : Text} (token : IsToken name) (noSlash : '/' ∉ name) :
    ∀ c ∈ name, endsName c = false := by
  intro c member
  have visible := token.2 c member
  have other : c ≠ '/' := fun same => noSlash (same ▸ member)
  simp [endsName, visible, other]

theorem solid_domainSetMarker {name : Text} (token : IsToken name) (noSlash : '/' ∉ name) :
    ∀ c ∈ domainSetMarker name, endsName c = false :=
  List.forall_mem_append.mpr
    ⟨List.forall_mem_iff_forall_getElem.mpr (by decide), endsName_of_token token noSlash⟩

theorem solid_ipSetMarker {name : Text} (token : IsToken name) (noSlash : '/' ∉ name) :
    ∀ c ∈ ipSetMarker name, endsName c = false :=
  List.forall_mem_append.mpr
    ⟨List.forall_mem_iff_forall_getElem.mpr (by decide), endsName_of_token token noSlash⟩

theorem domainSetReferences_eq_iff {name : Text} (token : IsToken name) (noSlash : '/' ∉ name)
    (items : List RoutingRuleItem) :
    domainSetReferences items name = domainSetNamers items name ↔
      ∀ candidate ∈ items, candidate.ruleType ≠ "domain-set" →
        ¬ NamesLonger (domainSetMarker name) [candidate.target] := by
  have solid := solid_domainSetMarker token noSlash
  have covers : ∀ candidate : RoutingRuleItem,
      decide (Names (domainSetMarker name) [candidate.target]) = true →
        contains (domainSetMarker name) candidate.target = true := by
    intro candidate names
    have found := (contains_iff_names solid _).mpr (.inl (of_decide_eq_true names))
    simpa using found
  have references : domainSetReferences items name =
      ((items.filter (·.ruleType ≠ "domain-set")).filter fun candidate =>
        contains (domainSetMarker name) candidate.target).map fun candidate =>
          describeReference candidate.ruleType.toList candidate.target candidate.value :=
    filterMap_if _ _
  rw [references, domainSetNamers, map_filter_eq_iff covers]
  simp only [List.mem_filter, decide_eq_true_iff, and_imp]
  refine forall₃_congr fun candidate _ _ => ?_
  rw [← search_exact_iff solid]
  simp

/-! ### IP sets -/

/-- The group matchers that name an IP set, as they are listed. -/
def groupMatchNamers (ruleGroups : List RuleGroupAsset) (name : Text) : List Text :=
  ruleGroups.flatMap fun group =>
    (group.matchers.filter fun matcher => decide (Names (ipSetMarker name) [matcher])).map
      fun matcher =>
        ("group-match -> " : Text) ++ group.name ++ (" (" : Text) ++ matcher ++ (")" : Text)

/-- The group matchers and IP rules that name an IP set, as they are listed. -/
def ipSetNamers (ruleGroups : List RuleGroupAsset) (ipRules : List IpRuleAsset)
    (name : Text) : List Text :=
  groupMatchNamers ruleGroups name ++
    (ipRules.filter fun item => decide (Names (ipSetMarker name) [item.target, item.options])).map
      fun item => describeReference item.ruleType.toList item.target item.options

section

variable {name : Text} (token : IsToken name) (noSlash : '/' ∉ name)

include token noSlash

theorem contains_of_names {texts : List Text}
    (names : decide (Names (ipSetMarker name) texts) = true) :
    ∃ t ∈ texts, contains (ipSetMarker name) t = true :=
  (contains_iff_names (solid_ipSetMarker token noSlash) _).mpr (.inl (of_decide_eq_true names))

theorem groupMatchReferences_eq_iff (ruleGroups : List RuleGroupAsset) :
    (groupMatchNamers ruleGroups name).length ≤ (groupMatchReferences ruleGroups name).length ∧
      (groupMatchReferences ruleGroups name = groupMatchNamers ruleGroups name ↔
        ∀ group ∈ ruleGroups, ∀ matcher ∈ group.matchers,
          ¬ NamesLonger (ipSetMarker name) [matcher]) := by
  have covers : ∀ matcher : Text, decide (Names (ipSetMarker name) [matcher]) = true →
      contains (ipSetMarker name) matcher = true := by
    intro matcher names
    simpa using contains_of_names token noSlash names
  have shorter : ∀ group ∈ ruleGroups, _ :=
    fun (group : RuleGroupAsset) _ => length_map_filter_le covers
      (fun matcher => ("group-match -> " : Text) ++ group.name ++ (" (" : Text) ++ matcher ++
        (")" : Text)) group.matchers
  refine ⟨length_flatMap_le shorter, ?_⟩
  rw [eq_comm, groupMatchNamers, groupMatchReferences, flatMap_eq_iff shorter]
  refine forall₂_congr fun group _ => ?_
  rw [eq_comm, map_filter_eq_iff covers]
  refine forall₂_congr fun matcher _ => ?_
  rw [← search_exact_iff (solid_ipSetMarker token noSlash)]
  simp

theorem ipSetReferences_eq_iff (ruleGroups : List RuleGroupAsset) (ipRules : List IpRuleAsset) :
    ipSetReferences ruleGroups ipRules name = ipSetNamers ruleGroups ipRules name ↔
      (∀ group ∈ ruleGroups, ∀ matcher ∈ group.matchers,
        ¬ NamesLonger (ipSetMarker name) [matcher]) ∧
      ∀ item ∈ ipRules, ¬ NamesLonger (ipSetMarker name) [item.target, item.options] := by
  have covers : ∀ item : IpRuleAsset,
      decide (Names (ipSetMarker name) [item.target, item.options]) = true →
        (contains (ipSetMarker name) item.target || contains (ipSetMarker name) item.options) =
          true := by
    intro item names
    simpa using contains_of_names token noSlash names
  have references : ipRules.filterMap (ipRuleReference name) =
      (ipRules.filter fun item => contains (ipSetMarker name) item.target ||
        contains (ipSetMarker name) item.options).map
          fun item => describeReference item.ruleType.toList item.target item.options :=
    filterMap_if _ _
  obtain ⟨shorter, groups⟩ := groupMatchReferences_eq_iff token noSlash ruleGroups
  rw [ipSetReferences, ipSetNamers, references,
    append_eq_iff_of_length_le shorter (length_map_filter_le covers _ _), groups,
    map_filter_eq_iff covers]
  refine and_congr_right fun _ => forall₂_congr fun item _ => ?_
  rw [← search_exact_iff (solid_ipSetMarker token noSlash)]
  simp

end

/-! ### The sets of a configuration -/

theorem referencedBy_of_mem_buildRuleSetAssets {tree : ConfigTree}
    {items : List RoutingRuleItem} {asset : RuleSetAsset}
    (member : asset ∈ buildRuleSetAssets tree items) :
    asset.referencedBy = domainSetReferences items asset.name := by
  obtain ⟨item, -, rfl⟩ := List.mem_map.mp member
  rfl

theorem referencedBy_of_mem_buildIpSetAssets {tree : ConfigTree} {sources : List ConfigSource}
    {ruleGroups : List RuleGroupAsset} {ipRules : List IpRuleAsset} {asset : IpSetAsset}
    (member : asset ∈ buildIpSetAssets tree sources ruleGroups ipRules) :
    asset.referencedBy = ipSetReferences ruleGroups ipRules asset.name := by
  obtain ⟨source, -, inSource⟩ := List.mem_flatMap.mp member
  obtain ⟨directive, -, listed⟩ := List.mem_flatMap.mp inSource
  unfold ipSetAsset at listed
  split_ifs at listed
  · cases listed
  · split at listed
    · cases listed
    · rw [List.mem_singleton.mp listed]

/-- The references of a set are exactly the rules that name it if and only if no rule has the
name of the set only as a part of a longer word. -/
theorem referencedBy_exact (tree : ConfigTree) (sources : List ConfigSource) :
    (∀ asset ∈ buildRuleSetAssets tree (parseRoutingItems sources),
      IsToken asset.name → '/' ∉ asset.name →
      (asset.referencedBy = domainSetNamers (parseRoutingItems sources) asset.name ↔
        ∀ candidate ∈ parseRoutingItems sources, candidate.ruleType ≠ "domain-set" →
          ¬ NamesLonger (domainSetMarker asset.name) [candidate.target])) ∧
    ∀ asset ∈ buildIpSetAssets tree sources (buildRuleGroupAssets sources)
        (buildIpRuleAssets sources),
      IsToken asset.name → '/' ∉ asset.name →
      (asset.referencedBy = ipSetNamers (buildRuleGroupAssets sources)
          (buildIpRuleAssets sources) asset.name ↔
        (∀ group ∈ buildRuleGroupAssets sources, ∀ matcher ∈ group.matchers,
          ¬ NamesLonger (ipSetMarker asset.name) [matcher]) ∧
        ∀ item ∈ buildIpRuleAssets sources,
          ¬ NamesLonger (ipSetMarker asset.name) [item.target, item.options]) := by
  constructor
  · intro asset member token noSlash
    rw [referencedBy_of_mem_buildRuleSetAssets member]
    exact domainSetReferences_eq_iff token noSlash _
  · intro asset member token noSlash
    rw [referencedBy_of_mem_buildIpSetAssets member]
    exact ipSetReferences_eq_iff token noSlash _ _

/-- One file that defines two domain sets, the name of one of which begins with that of the
other, and a rule for the second. -/
def twoSets : List ConfigSource :=
  [⟨"/c", "domain-set -name cn -file /a\ndomain-set -name cn2 -file /b\nnameserver /domain-set:cn2/x",
    none⟩]

theorem referencedBy_exact_example :
    ∃ asset ∈ buildRuleSetAssets (fileTree []) (parseRoutingItems twoSets),
      asset.name = "cn2" ∧
      asset.referencedBy = domainSetNamers (parseRoutingItems twoSets) asset.name := by
  have defined : ∃ asset ∈ buildRuleSetAssets (fileTree []) (parseRoutingItems twoSets),
      asset.name = "cn2" := by decide
  obtain ⟨asset, member, isSecond⟩ := defined
  have token : IsToken asset.name ∧ '/' ∉ asset.name := by
    rw [isSecond]
    decide
  refine ⟨asset, member, isSecond, ?_⟩
  apply ((referencedBy_exact (fileTree []) twoSets).1 asset member token.1 token.2).mpr
  rw [isSecond]
  decide

/-- A rule for the one set is listed for the other. -/
theorem not_referencedBy_exact :
    ¬ ∀ (tree : ConfigTree) (sources : List ConfigSource),
      ((buildRuleSetAssets tree (parseRoutingItems sources)).map (·.name)).Nodup →
      ∀ asset ∈ buildRuleSetAssets tree (parseRoutingItems sources),
        IsToken asset.name → '/' ∉ asset.name →
        asset.referencedBy = domainSetNamers (parseRoutingItems sources) asset.name := by
  intro all
  exact absurd (all (fileTree []) twoSets (by decide)) (by decide)

end SmartDnsPlusUi
