import SmartDnsPlusUi.Config.IncludeGraph

/-!
# Rule sets

A domain set or an IP set has a file with one item on each line.  The readers list the sets
that the configuration defines, each with the rules that refer to it, and read one page of
the items of a set.
-/

namespace SmartDnsPlusUi

open Files Text

/-! ### The items of a file -/

/-- Neither an empty line nor a comment. -/
def isRuleSetItem (line : Text) : Bool := line ≠ [] && line.head? ≠ some '#'

def ruleSetItems (text : Text) : List Text := ((lines text).map trim).filter isRuleSetItem

def readRuleSetItems (tree : ConfigTree) (path : Text) : Except ErrorKind (List Text) :=
  (tree.readTextOrDefault path).map ruleSetItems

def normalizeRuleSetItems (items : List Text) : List Text :=
  (items.map trim).filter isRuleSetItem

/-- The items that were seen, and those that are kept. -/
def dedupeStep (state : List Text × List Text) (item : Text) : List Text × List Text :=
  if item ∈ state.1 then state else (item :: state.1, state.2 ++ [item])

def dedupeRuleSetItems (items : List Text) : List Text := (items.foldl dedupeStep ([], [])).2

def renderRuleSetItems (items : List Text) : Text :=
  if items = [] then [] else join ['\n'] items ++ ['\n']

/-! ### The sets of the configuration -/

/-- `trim_start_matches` with a text as its pattern. -/
def trimStartMatches (pattern : Text) (t : Text) : Text :=
  (List.range t.length).foldl
    (fun rest _ => if pattern.isPrefixOf rest then rest.drop pattern.length else rest) t

/-- What the loop of `parse_domain_set_value` does with a token. -/
def domainSetToken (state : Text × Text) (token : Text) : Text × Text :=
  if token = "type=" then state
  else if ("type=" : Text).isPrefixOf token then (trimStartMatches "type=" token, state.2)
  else if ("file=" : Text).isPrefixOf token then (state.1, trimStartMatches "file=" token)
  else state

/-- The type and the file of a set. -/
def parseDomainSetValue (value : Text) : Text × Text :=
  (splitWhitespace value).foldl domainSetToken ("list", [])

def inspectRuleSetFile (tree : ConfigTree) (path : Text) : Nat × List Text :=
  if trim path = [] then (0, [])
  else
    match readRuleSetItems tree path with
    | .ok items => (items.length, items.take 5)
    | .error _ => (0, [])

structure RuleSetAsset where
  name : Text
  setType : Text
  file : Text
  source : Text
  ruleCount : Nat
  sampleItems : List Text
  referencedBy : List Text
  deriving DecidableEq

structure IpSetAsset where
  name : Text
  file : Text
  source : Text
  ruleCount : Nat
  sampleItems : List Text
  referencedBy : List Text
  deriving DecidableEq

/-- A rule as it is listed where it refers to a set, with its value in parentheses. -/
def describeReference (ruleType target value : Text) : Text :=
  ruleType ++ (" -> " : Text) ++ target ++
    (if value = [] then [] else (" (" : Text) ++ value ++ (")" : Text))

def domainSetMarker (name : Text) : Text := ("domain-set:" : Text) ++ name

def ipSetMarker (name : Text) : Text := ("ip-set:" : Text) ++ name

def domainSetReference (name : Text) (candidate : RoutingRuleItem) : Option Text :=
  if contains (domainSetMarker name) candidate.target then
    some (describeReference candidate.ruleType.toList candidate.target candidate.value)
  else none

def domainSetReferences (items : List RoutingRuleItem) (name : Text) : List Text :=
  (items.filter (·.ruleType ≠ "domain-set")).filterMap (domainSetReference name)

def buildRuleSetAssets (tree : ConfigTree) (items : List RoutingRuleItem) : List RuleSetAsset :=
  (items.filter (·.ruleType = "domain-set")).map fun item =>
    let (setType, file) := parseDomainSetValue item.value
    let (ruleCount, sampleItems) := inspectRuleSetFile tree file
    { name := item.target, setType, file, source := item.source, ruleCount, sampleItems
      referencedBy := domainSetReferences items item.target }

def groupMatchReferences (ruleGroups : List RuleGroupAsset) (name : Text) : List Text :=
  ruleGroups.flatMap fun group =>
    (group.matchers.filter (contains (ipSetMarker name))).map fun matcher =>
      ("group-match -> " : Text) ++ group.name ++ (" (" : Text) ++ matcher ++ (")" : Text)

def ipRuleReference (name : Text) (item : IpRuleAsset) : Option Text :=
  if contains (ipSetMarker name) item.target || contains (ipSetMarker name) item.options then
    some (describeReference item.ruleType.toList item.target item.options)
  else none

def ipSetReferences (ruleGroups : List RuleGroupAsset) (ipRules : List IpRuleAsset)
    (name : Text) : List Text :=
  groupMatchReferences ruleGroups name ++ ipRules.filterMap (ipRuleReference name)

def ipSetAsset (tree : ConfigTree) (ruleGroups : List RuleGroupAsset)
    (ipRules : List IpRuleAsset) (source : ConfigSource) (directive : Directive) :
    List IpSetAsset :=
  if directive.key ≠ "ip-set" then []
  else
    match parseNamedOption directive.value "-name" with
    | none => []
    | some name =>
        let file := (parseNamedOption directive.value "-file").getD []
        let (ruleCount, sampleItems) := inspectRuleSetFile tree file
        [{ name, file, source := source.path, ruleCount, sampleItems
           referencedBy := ipSetReferences ruleGroups ipRules name }]

def buildIpSetAssets (tree : ConfigTree) (sources : List ConfigSource)
    (ruleGroups : List RuleGroupAsset) (ipRules : List IpRuleAsset) : List IpSetAsset :=
  sources.flatMap fun source =>
    (directives source.text).flatMap (ipSetAsset tree ruleGroups ipRules source)

/-! ### One page of a set -/

structure RuleSetFileDetail where
  name : Text
  setType : Text
  file : Text
  source : Text
  pathExists : Bool
  ruleCount : Nat
  filteredCount : Nat
  offset : Nat
  limit : Nat
  hasMore : Bool
  items : List Text
  sampleItems : List Text
  referencedBy : List Text
  deriving DecidableEq

/-- What the standard library does: `usize::MAX`, and `to_lowercase` with the tables of
Unicode. -/
structure Platform where
  usizeMax : Nat
  toLowercase : Text → Text

def Platform.saturatingAdd (platform : Platform) (first second : Nat) : Nat :=
  min (first + second) platform.usizeMax

/-- The items that a query selects. -/
def filterRuleSetItems (platform : Platform) (query : Option Text) (allItems : List Text) :
    List Text :=
  let query := platform.toLowercase (trim (query.getD []))
  if query = [] then allItems
  else allItems.filter fun item => contains query (platform.toLowercase item)

/-- The detail of a set, which both readers put together in the same way. -/
def ruleSetDetail (platform : Platform) (tree : ConfigTree) (asset : RuleSetAsset)
    (query : Option Text) (offset limit : Nat) : Option RuleSetFileDetail :=
  match readRuleSetItems tree asset.file with
  | .error _ => none
  | .ok allItems =>
      let filtered := filterRuleSetItems platform query allItems
      let limit := max limit 1
      let items := (filtered.drop offset).take limit
      some
        { name := asset.name
          setType := asset.setType
          file := asset.file
          source := asset.source
          pathExists := tree.pathExists asset.file
          ruleCount := allItems.length
          filteredCount := filtered.length
          offset
          limit
          hasMore := decide (platform.saturatingAdd offset items.length < filtered.length)
          items
          sampleItems := asset.sampleItems
          referencedBy := asset.referencedBy }

/-- An IP set, with the type that its detail has. -/
def IpSetAsset.toRuleSet (asset : IpSetAsset) : RuleSetAsset where
  name := asset.name
  setType := "ip-set"
  file := asset.file
  source := asset.source
  ruleCount := asset.ruleCount
  sampleItems := asset.sampleItems
  referencedBy := asset.referencedBy

/-- The set that `read_rule_set_detail` finds: `none` when the configuration cannot be
collected, and no asset when it does not define the set. -/
def findRuleSet (tree : ConfigTree) (fuel : Nat) (configFile name : Text) :
    Option (Option RuleSetAsset) :=
  (collectConfigSources tree fuel configFile).map fun configSources =>
    (buildRuleSetAssets tree (parseRoutingItems configSources)).find? (·.name = name)

/-- The set that `read_ip_set_detail` finds. -/
def findIpSet (tree : ConfigTree) (fuel : Nat) (configFile name : Text) :
    Option (Option RuleSetAsset) :=
  (collectConfigSources tree fuel configFile).map fun configSources =>
    ((buildIpSetAssets tree configSources (buildRuleGroupAssets configSources)
      (buildIpRuleAssets configSources)).find? (·.name = name)).map IpSetAsset.toRuleSet

/-- `none` when a file cannot be read, and no detail when the set is not defined. -/
def detailOf (platform : Platform) (tree : ConfigTree) (query : Option Text)
    (offset limit : Nat) : Option (Option RuleSetAsset) → Option (Option RuleSetFileDetail)
  | none => none
  | some none => some none
  | some (some asset) => (ruleSetDetail platform tree asset query offset limit).map some

def readRuleSetDetail (platform : Platform) (tree : ConfigTree) (fuel : Nat)
    (configFile name : Text) (query : Option Text) (offset limit : Nat) :
    Option (Option RuleSetFileDetail) :=
  detailOf platform tree query offset limit (findRuleSet tree fuel configFile name)

def readIpSetDetail (platform : Platform) (tree : ConfigTree) (fuel : Nat)
    (configFile name : Text) (query : Option Text) (offset limit : Nat) :
    Option (Option RuleSetFileDetail) :=
  detailOf platform tree query offset limit (findIpSet tree fuel configFile name)

end SmartDnsPlusUi
