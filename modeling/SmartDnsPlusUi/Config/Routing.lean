import SmartDnsPlusUi.Config.AssetPages

/-!
# The two readers of routing rules

`parseRoutingItems` reads the routing rules of all configuration sources for
display; `parseManagedAssetsFromText` reads them from the managed text.  They
split a `domain-rules` argument differently and treat an empty argument
differently, and agree exactly where neither difference shows.
-/

namespace SmartDnsPlusUi

open Text

structure ConfigSource where
  path : Text
  text : Text
  implicitGroup : Option Text
  deriving DecidableEq

structure RoutingRuleItem where
  ruleType : String
  target : Text
  value : Text
  source : Text
  note : Text
  deriving DecidableEq

def describeTargetHint (value fallback : Text) : Text :=
  if contains "domain-set:" value then "把一个域名集合整体导向指定上游组"
  else if contains "/.cn/" value then "把命中的顶级域名或模式导向指定上游组"
  else fallback

/-- The item `parse_routing_items` pushes for one directive. -/
def routingRuleItem (source : ConfigSource) (directive : Directive) : List RoutingRuleItem :=
  let value := directive.value
  if value = [] then []
  else
    match directive.key with
    | "nameserver" =>
        let (target, serverGroup) := splitTargetValue value
        [{ ruleType := "nameserver", target, value := serverGroup, source := source.path
           note := describeTargetHint value "把域名或规则集导向指定上游组" }]
    | "domain-rules" =>
        let (target, options) := splitTargetOptions value
        [{ ruleType := "domain-rules", target, value := options, source := source.path
           note := "给域名或规则集附加行为，例如禁缓存、禁 IPv6、改测速" }]
    | "address" =>
        let (target, address) := splitTargetValue value
        [{ ruleType := "address", target, value := address, source := source.path
           note := "给域名或规则集直接返回固定地址或空地址" }]
    | "cname" =>
        let (target, cname) := splitTargetValue value
        [{ ruleType := "cname", target, value := cname, source := source.path
           note := "把查询结果改写为指定 CNAME" }]
    | "domain-set" =>
        match parseNamedOption value "-name" with
        | some name =>
            let setType := (parseNamedOption value "-type").getD "list"
            let file := (parseNamedOption value "-file").getD []
            [{ ruleType := "domain-set", target := name
               value := ("type=" : Text) ++ setType ++ (" file=" : Text) ++ file
               source := source.path
               note := "定义一个可被 nameserver 或 domain-rules 引用的域名集合" }]
        | none => []
    | _ => []

def parseRoutingItems (sources : List ConfigSource) : List RoutingRuleItem :=
  sources.flatMap fun source => (directives source.text).flatMap (routingRuleItem source)

/-- What `routingKey` of the UI compares: rule type, target and value. -/
def RoutingRuleItem.triple (item : RoutingRuleItem) : String × Text × Text :=
  (item.ruleType, item.target, item.value)

def ManagedRoutingItem.triple (item : ManagedRoutingItem) : String × Text × Text :=
  (item.ruleType, item.target, item.value)

/-- The triples of the nameserver, domain-rules, address and cname items. -/
def routingTriples (items : List RoutingRuleItem) : List (String × Text × Text) :=
  (items.filter fun item =>
    item.ruleType ∈ ["nameserver", "domain-rules", "address", "cname"]).map (·.triple)

/-! ### Agreement of the two readers -/

/-- The keywords that both readers take for routing rules. -/
def IsRoutingKey (key : String) : Prop :=
  key ∈ ["nameserver", "domain-rules", "address", "cname"]

instance (key : String) : Decidable (IsRoutingKey key) := inferInstanceAs (Decidable (_ ∈ _))

theorem assetKeyword_eq_routing_iff (key : String) :
    assetKeyword key = .routing ↔ IsRoutingKey key := by
  unfold assetKeyword IsRoutingKey
  split <;> simp_all

/-- The triples of the display items that one directive yields. -/
def displayTriples (source : ConfigSource) (directive : Directive) :
    List (String × Text × Text) :=
  routingTriples (routingRuleItem source directive)

theorem routingTriples_parseRoutingItems (source : ConfigSource) :
    routingTriples (parseRoutingItems [source]) =
      (directives source.text).flatMap (displayTriples source) := by
  simp only [routingTriples, parseRoutingItems, List.flatMap_singleton, List.filter_flatMap,
    List.map_flatMap]
  rfl

theorem displayTriples_of_empty (source : ConfigSource) {directive : Directive}
    (empty : directive.value = []) : displayTriples source directive = [] := by
  simp [displayTriples, routingRuleItem, empty, routingTriples]

theorem displayTriples_of_other (source : ConfigSource) {directive : Directive}
    (other : ¬ IsRoutingKey directive.key) : displayTriples source directive = [] := by
  unfold displayTriples routingRuleItem
  unfold IsRoutingKey at other
  by_cases empty : directive.value = []
  · simp [empty, routingTriples]
  · simp only [empty, if_false]
    split <;> simp_all [routingTriples]
    split <;> simp

/-- `domain-rules` is read by the other splitter. -/
theorem displayTriples_of_routing (source : ConfigSource) {directive : Directive}
    (routing : IsRoutingKey directive.key) (nonempty : directive.value ≠ []) :
    displayTriples source directive =
      [(directive.key,
        if directive.key = "domain-rules" then splitTargetOptions directive.value
        else splitTargetValue directive.value)] := by
  obtain ⟨key, value⟩ := directive
  simp only [IsRoutingKey, List.mem_cons, List.not_mem_nil, or_false] at routing nonempty
  unfold displayTriples routingRuleItem routingTriples
  rcases routing with rfl | rfl | rfl | rfl <;> simp [nonempty, RoutingRuleItem.triple]

/-- The display reader and the managed reader agree on a text exactly when every
routing rule has an argument and the slashes of every `domain-rules` argument
leave no choice. -/
theorem routingTriples_eq_iff (source : ConfigSource) :
    routingTriples (parseRoutingItems [source]) =
        (parseManagedAssetsFromText source.text).routingItems.map (·.triple) ↔
      ∀ directive ∈ directives source.text, IsRoutingKey directive.key →
        directive.value ≠ [] ∧
          (directive.key = "domain-rules" → SlashesAgree directive.value) := by
  have managed : ∀ directive, (routingOf directive).map (·.triple) =
      if IsRoutingKey directive.key then
        [(directive.key, splitTargetValue directive.value)] else [] := by
    intro directive
    by_cases routing : IsRoutingKey directive.key
    · simp [routingOf, (assetKeyword_eq_routing_iff _).mpr routing, routing,
        ManagedRoutingItem.triple]
    · have keyword := mt (assetKeyword_eq_routing_iff directive.key).mp routing
      simp [routingOf, keyword, routing]
  rw [routingTriples_parseRoutingItems, parse_routingItems, List.map_flatMap, flatMap_eq_iff]
  · refine forall₂_congr fun directive membership => ?_
    by_cases routing : IsRoutingKey directive.key
    · rw [managed, if_pos routing]
      by_cases empty : directive.value = []
      · simp [displayTriples_of_empty source empty, empty, routing]
      · rw [displayTriples_of_routing source routing empty]
        by_cases domain : directive.key = "domain-rules"
        · have agree := splitTargetValue_eq_splitTargetOptions_iff
            (trimmed_value_of_mem membership)
          simp only [domain, if_true, ← agree, List.cons.injEq, Prod.mk.injEq, true_and, and_true]
          exact ⟨fun same _ => ⟨empty, fun _ => same.symm⟩,
            fun all => ((all (domain ▸ routing)).2 trivial).symm⟩
        · simp [empty, domain]
    · simp [managed, routing, displayTriples_of_other source routing]
  · intro directive membership
    by_cases routing : IsRoutingKey directive.key
    · rw [managed, if_pos routing]
      by_cases empty : directive.value = []
      · simp [displayTriples_of_empty source empty]
      · simp [displayTriples_of_routing source routing empty]
    · simp [displayTriples_of_other source routing]

/-- An option that contains a slash is cut in different places. -/
theorem routingTriples_ne_of_option_slash :
    ¬ ∀ source : ConfigSource, routingTriples (parseRoutingItems [source]) =
        (parseManagedAssetsFromText source.text).routingItems.map (·.triple) := by
  intro all
  have cut := all ⟨"smartdns.conf", "domain-rules /a/ -p b/c", none⟩
  revert cut
  decide

end SmartDnsPlusUi
