import SmartDnsPlusUi.Config.Argument
import SmartDnsPlusUi.Config.LogicalLines

/-!
# Managed assets

The sets, routing rules, IP rules, rule groups and client rules that the UI
manages: the parser of a rules text and the three renderers that write the
managed files `40-nameserver.conf`, `50-rules.conf` and `60-sets.conf`.
-/

namespace SmartDnsPlusUi

open Text

structure ManagedRuleGroup where
  name : Text
  inherit : Text
  matchers : List Text
  deriving DecidableEq

structure ManagedClientRule where
  matcher : Text
  groupName : Text
  deriving DecidableEq

structure ManagedIpRule where
  ruleType : String
  target : Text
  options : Text
  groupName : Text
  deriving DecidableEq

structure ManagedRoutingItem where
  ruleType : String
  target : Text
  value : Text
  deriving DecidableEq

structure ManagedDomainSet where
  name : Text
  file : Text
  setType : Text
  deriving DecidableEq

structure ManagedIpSet where
  name : Text
  file : Text
  deriving DecidableEq

/-- Also the payload of a `SaveManagedAssetsRequest`, which has the same fields. -/
structure ManagedAssets where
  ruleGroups : List ManagedRuleGroup := []
  clientRules : List ManagedClientRule := []
  ipRules : List ManagedIpRule := []
  routingItems : List ManagedRoutingItem := []
  domainSets : List ManagedDomainSet := []
  ipSets : List ManagedIpSet := []
  deriving DecidableEq

/-! ### The parser -/

/-- The state of the parser's loop: what was collected and the open group. -/
structure AssetScan where
  assets : ManagedAssets := {}
  inGroup : Option ManagedRuleGroup := none
  deriving DecidableEq

def AssetScan.groupName (scan : AssetScan) : Text :=
  (scan.inGroup.map (·.name)).getD []

/-- The argument of `group-begin`, read as a group without matchers. -/
def beginGroup (value : Text) : ManagedRuleGroup where
  name := trim ((splitWhitespace value).head?.getD [])
  inherit := (parseNamedOption value "-inherit").getD []
  matchers := []

/-- The set a `domain-set` argument defines, pushed only when it names one. -/
def domainSetFrom (value : Text) : List ManagedDomainSet :=
  let name := (parseNamedOption value "-name").getD []
  if name = [] then []
  else
    [{ name
       file := (parseNamedOption value "-file").getD []
       setType := (parseNamedOption value "-type").getD "list" }]

def ipSetFrom (value : Text) : List ManagedIpSet :=
  let name := (parseNamedOption value "-name").getD []
  if name = [] then [] else [{ name, file := (parseNamedOption value "-file").getD [] }]

/-- The keywords the parser distinguishes; the six IP rule types are read
alike, and so are the four routing rule types. -/
inductive AssetKeyword where
  | groupBegin
  | groupMatch
  | groupEnd
  | clientRules
  | ipRule
  | routing
  | domainSet
  | ipSet
  | other
  deriving DecidableEq

def assetKeyword (key : String) : AssetKeyword :=
  match key with
  | "group-begin" => .groupBegin
  | "group-match" => .groupMatch
  | "group-end" => .groupEnd
  | "client-rules" => .clientRules
  | "ip-rules" | "whitelist-ip" | "blacklist-ip" | "ignore-ip" | "bogus-nxdomain"
  | "ip-alias" => .ipRule
  | "nameserver" | "domain-rules" | "address" | "cname" => .routing
  | "domain-set" => .domainSet
  | "ip-set" => .ipSet
  | _ => .other

def scanDirective (scan : AssetScan) (directive : Directive) : AssetScan :=
  let value := directive.value
  let assets := scan.assets
  match assetKeyword directive.key with
  | .groupBegin => { scan with inGroup := some (beginGroup value) }
  | .groupMatch =>
      { scan with
        inGroup := scan.inGroup.map fun group =>
          { group with matchers := group.matchers ++ [value] } }
  | .groupEnd =>
      match scan.inGroup with
      | some group =>
          { assets := { assets with ruleGroups := assets.ruleGroups ++ [group] }, inGroup := none }
      | none => scan
  | .clientRules =>
      let rule : ManagedClientRule := { matcher := value, groupName := scan.groupName }
      { scan with assets := { assets with clientRules := assets.clientRules ++ [rule] } }
  | .ipRule =>
      let (target, options) := splitTargetOptions value
      let rule : ManagedIpRule :=
        { ruleType := directive.key, target, options, groupName := scan.groupName }
      { scan with assets := { assets with ipRules := assets.ipRules ++ [rule] } }
  | .routing =>
      let (target, value) := splitTargetValue value
      let item : ManagedRoutingItem := { ruleType := directive.key, target, value }
      { scan with assets := { assets with routingItems := assets.routingItems ++ [item] } }
  | .domainSet =>
      { scan with assets := { assets with domainSets := assets.domainSets ++ domainSetFrom value } }
  | .ipSet => { scan with assets := { assets with ipSets := assets.ipSets ++ ipSetFrom value } }
  | .other => scan

/-- A group still open at the end of the text is listed last. -/
def AssetScan.close (scan : AssetScan) : ManagedAssets :=
  match scan.inGroup with
  | some group => { scan.assets with ruleGroups := scan.assets.ruleGroups ++ [group] }
  | none => scan.assets

def parseManagedAssetsFromText (text : Text) : ManagedAssets :=
  ((directives text).foldl scanDirective {}).close

/-! ### The renderers -/

/-- `format!("{} {}", key, argument)`. -/
def keyed (key : String) (argument : Text) : Text := key.toList ++ ' ' :: argument

/-- A title line, the lines of the section and an empty line, when there is
anything to list. -/
def titled (title : Text) (ls : List Text) : List Text :=
  if ls = [] then [] else title :: ls ++ [[]]

/-- Every page ends in a placeholder when nothing follows its three header
lines, and in a line feed. -/
def closePage (placeholder : Text) (ls : List Text) : Text :=
  join ['\n'] ((if ls.length ≤ 3 then ls ++ [placeholder] else ls) ++ [[]])

def domainSetLine (set : ManagedDomainSet) : Text :=
  ("domain-set -name " : Text) ++ set.name ++ (" -type " : Text) ++ set.setType ++
    (" -file " : Text) ++ set.file

def ipSetLine (set : ManagedIpSet) : Text :=
  ("ip-set -name " : Text) ++ set.name ++ (" -file " : Text) ++ set.file

def renderSetsText (assets : ManagedAssets) : Text :=
  let header : List Text :=
    ["# Generated by smartdns-plus-ui", "# 集合管理（domain-set / ip-set）", ""]
  closePage "# 还没有任何集合定义。"
    (header ++
      titled "# ── 域名集合 ──" (assets.domainSets.map domainSetLine) ++
      titled "# ── IP 集合 ──" (assets.ipSets.map ipSetLine))

def nameserverLine (item : ManagedRoutingItem) : Text :=
  if item.value = [] then keyed item.ruleType item.target
  else keyed item.ruleType (item.target ++ '/' :: item.value)

def renderRoutingItemsText (assets : ManagedAssets) : Text :=
  let header : List Text :=
    ["# Generated by smartdns-plus-ui", "# 上游分流（nameserver）", ""]
  closePage "# 还没有任何上游分流规则。"
    (header ++
      titled "# ── 分流规则 ──"
        ((assets.routingItems.filter (·.ruleType = "nameserver")).map nameserverLine))

def ruleEntryLine (item : ManagedRoutingItem) : Text :=
  let target := if endsWith '/' item.target then item.target else item.target ++ ['/']
  if item.value = [] then keyed item.ruleType target
  else keyed item.ruleType (target ++ ' ' :: item.value)

def ipRuleLine (rule : ManagedIpRule) : Text :=
  if rule.options = [] then keyed rule.ruleType rule.target
  else keyed rule.ruleType (rule.target ++ ' ' :: rule.options)

def renderRuleEntriesText (assets : ManagedAssets) : Text :=
  let header : List Text :=
    ["# Generated by smartdns-plus-ui",
      "# 规则（domain-rules / address / cname / ip-rules）", ""]
  closePage "# 还没有任何规则。"
    (header ++
      titled "# ── 域名规则与地址改写 ──"
        ((assets.routingItems.filter (·.ruleType ≠ "nameserver")).map ruleEntryLine) ++
      titled "# ── IP 规则 ──" (assets.ipRules.map ipRuleLine))

/-! ### Texts read and written as a whole -/

/-- Trim the sections, drop the empty ones and separate the others by an empty
line. -/
def joinNonemptySections (parts : List Text) : Text :=
  join "\n\n" ((parts.map trim).filter (· ≠ []))

/-- `replace("\r\n", "\n")`. -/
def replaceReturns : Text → Text
  | '\r' :: '\n' :: t => '\n' :: replaceReturns t
  | c :: t => c :: replaceReturns t
  | [] => []

def defaultRulesText : Text :=
  join ['\n']
    ["# Generated by smartdns-plus-ui",
      "# 这份文件专门放图形界面管理的规则。",
      "# 如果你还不熟悉 SmartDNS，建议先从少量规则开始。",
      "",
      "# [block]",
      "# 这里可以添加你想屏蔽的域名",
      "# address /ads.example.com/#",
      "",
      "# [split]",
      "# 这里可以添加你想分流的域名",
      "# nameserver /example.com/office",
      "# domain-rules /example.com/ -speed-check-mode ping",
      ""]

def normalizeRulesText (text : Text) : Text :=
  let text := replaceReturns text
  if trim text = [] then defaultRulesText
  else if endsWith '\n' text then text
  else text ++ ['\n']

structure ValidationResult where
  ok : Bool
  errors : List Text
  warnings : List Text
  deriving DecidableEq

/-- The names that occur once more after their first occurrence, in order. -/
def repeatedNames (seen : List Text) : List ManagedRuleGroup → List Text
  | [] => []
  | group :: rest =>
      if group.name ∈ seen then group.name :: repeatedNames seen rest
      else repeatedNames (group.name :: seen) rest

def validateManagedAssets (assets : ManagedAssets) : ValidationResult :=
  let errors : List Text :=
    (repeatedNames [] assets.ruleGroups).map (("规则组名称重复：" : Text) ++ ·) ++
    (assets.clientRules.filter (trim ·.matcher = [])).map (fun _ => ("客户端规则不能为空。" : Text)) ++
    (assets.ipRules.filter (trim ·.target = [])).map
      (fun rule => rule.ruleType.toList ++ (" 规则的目标不能为空。" : Text)) ++
    (assets.routingItems.filter (trim ·.target = [])).map
      (fun item => item.ruleType.toList ++ (" 规则的目标不能为空。" : Text))
  { ok := errors.isEmpty, errors, warnings := [] }

end SmartDnsPlusUi
