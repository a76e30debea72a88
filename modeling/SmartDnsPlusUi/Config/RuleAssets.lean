import SmartDnsPlusUi.Config.AssetScan
import SmartDnsPlusUi.Config.Routing
import SmartDnsPlusUi.Table.Merge

/-!
# Rule assets

The readers that list rule groups, client rules and IP rules of all configuration
sources for display.  They keep a stack of the open groups, whose top is at the
head of a list here.
-/

namespace SmartDnsPlusUi

open Text Table

/-- Also the record of a pending group, which has the same fields. -/
structure RuleGroupAsset where
  name : Text
  inherit : Text
  source : Text
  includeFile : Text
  matchers : List Text := []
  ruleCount : Nat := 0
  deriving DecidableEq

structure ClientRuleAsset where
  matcher : Text
  groupName : Text
  source : Text
  note : Text
  deriving DecidableEq

structure IpRuleAsset where
  ruleType : String
  target : Text
  options : Text
  groupName : Text
  source : Text
  note : Text
  deriving DecidableEq

/-! ### Rule groups -/

/-- The group of a `group-begin` directive. -/
def begunGroup (path value : Text) : RuleGroupAsset where
  name := (beginGroup value).name
  inherit := (beginGroup value).inherit
  source := path
  includeFile := []

/-- The assets that the first pass lists for a directive. -/
def ruleGroupAsset (source : ConfigSource) (directive : Directive) : List RuleGroupAsset :=
  let value := directive.value
  match directive.key with
  | "group-begin" => [begunGroup source.path value]
  | "conf-file" =>
      match parseNamedOption value "-group" with
      | some groupName =>
          [{ name := groupName
             inherit := []
             source := source.path
             includeFile := trim ((splitWhitespace value).head?.getD []) }]
      | none => []
  | _ => []

/-- The second pass: the groups that are open and those that were closed. -/
structure GroupScan where
  stack : List RuleGroupAsset := []
  realized : List RuleGroupAsset := []
  deriving DecidableEq

def GroupScan.pop (scan : GroupScan) : GroupScan :=
  match scan.stack with
  | group :: stack => { stack, realized := scan.realized ++ [group] }
  | [] => scan

def GroupScan.updateTop (f : RuleGroupAsset → RuleGroupAsset) (scan : GroupScan) : GroupScan :=
  match scan.stack with
  | group :: stack => { scan with stack := f group :: stack }
  | [] => scan

def scanGroup (source : ConfigSource) (scan : GroupScan) (directive : Directive) : GroupScan :=
  match assetKeyword directive.key with
  | .groupBegin =>
      { scan with stack := begunGroup source.path directive.value :: scan.stack }
  | .groupMatch =>
      scan.updateTop fun group => { group with matchers := group.matchers ++ [directive.value] }
  | .groupEnd => scan.pop
  | _ => scan.updateTop fun group => { group with ruleCount := group.ruleCount + 1 }

def implicitGroup (path groupName : Text) : RuleGroupAsset where
  name := groupName
  inherit := []
  source := path
  includeFile := path

def scanSource (scan : GroupScan) (source : ConfigSource) : GroupScan :=
  match source.implicitGroup with
  | some groupName =>
      ((directives source.text).foldl (scanGroup source)
        { scan with stack := implicitGroup source.path groupName :: scan.stack }).pop
  | none => (directives source.text).foldl (scanGroup source) scan

def RuleGroupAsset.key (asset : RuleGroupAsset) : Text × Text × Text :=
  (asset.name, asset.source, asset.includeFile)

/-- What a closed group brings into the listed asset with its key. -/
def RuleGroupAsset.realize (asset dynamic : RuleGroupAsset) : RuleGroupAsset :=
  { asset with
    matchers := dynamic.matchers
    ruleCount := dynamic.ruleCount
    inherit := if asset.inherit = [] then dynamic.inherit else asset.inherit }

def buildRuleGroupAssets (sources : List ConfigSource) : List RuleGroupAsset :=
  let assets := sources.flatMap fun source =>
    (directives source.text).flatMap (ruleGroupAsset source)
  mergeAll RuleGroupAsset.key RuleGroupAsset.realize assets (sources.foldl scanSource {}).realized

/-! ### Client rules and IP rules -/

/-- The names of the open groups after a directive. -/
def groupStackAfter (groupStack : List Text) (directive : Directive) : List Text :=
  match assetKeyword directive.key with
  | .groupBegin => (beginGroup directive.value).name :: groupStack
  | .groupEnd => groupStack.tail
  | _ => groupStack

/-- The loop that both readers run over the directives of a source. -/
def inGroups {Asset : Type} (asset : Text → Directive → List Asset) :
    List Text → List Directive → List Asset
  | _, [] => []
  | groupStack, directive :: rest =>
      asset (groupStack.head?.getD []) directive ++
        inGroups asset (groupStackAfter groupStack directive) rest

def describeClientMatcher (value : Text) : Text :=
  if ':' ∈ value ∧ 5 ≤ value.count ':' then "按客户端 MAC 地址匹配" else "按客户端 IP 或网段匹配"

def clientRuleAsset (source : ConfigSource) (groupName : Text) (directive : Directive) :
    List ClientRuleAsset :=
  if directive.key = "client-rules" then
    [{ matcher := directive.value
       groupName
       source := source.path
       note := describeClientMatcher directive.value }]
  else []

def buildClientRuleAssets (sources : List ConfigSource) : List ClientRuleAsset :=
  sources.flatMap fun source =>
    inGroups (clientRuleAsset source) source.implicitGroup.toList (directives source.text)

def describeIpRuleType (ruleType : String) : Text :=
  match ruleType with
  | "whitelist-ip" => "只接受白名单范围内的返回 IP"
  | "blacklist-ip" => "丢弃命中黑名单范围的返回 IP"
  | "ignore-ip" => "忽略指定 IP 或 IP 集合"
  | "bogus-nxdomain" => "命中假冒地址时返回 SOA"
  | "ip-alias" => "把命中的 IP 映射到别名地址"
  | _ => "IP 规则"

def ipRuleAsset (source : ConfigSource) (groupName : Text) (directive : Directive) :
    List IpRuleAsset :=
  let (target, options) := splitTargetOptions directive.value
  match directive.key with
  | "ip-rules" =>
      [{ ruleType := "ip-rules", target, options, groupName, source := source.path
         note := "对指定 IP、网段或 ip-set 应用 IP 规则选项" }]
  | "whitelist-ip" | "blacklist-ip" | "ignore-ip" | "bogus-nxdomain" | "ip-alias" =>
      [{ ruleType := directive.key, target, options, groupName, source := source.path
         note := describeIpRuleType directive.key }]
  | _ => []

def buildIpRuleAssets (sources : List ConfigSource) : List IpRuleAsset :=
  sources.flatMap fun source =>
    inGroups (ipRuleAsset source) source.implicitGroup.toList (directives source.text)

end SmartDnsPlusUi
