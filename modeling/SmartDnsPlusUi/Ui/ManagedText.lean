import SmartDnsPlusUi.Config.Assets
import SmartDnsPlusUi.Table.Unseen
import SmartDnsPlusUi.Text.Script

/-!
# The rules text of the page

The page keeps the managed assets that it loaded, the lists that were detected
in the whole configuration, and the keys of the detected rules that were
deleted.  `buildManagedText` writes all of them as one rules text, which every
save sends to the server.
-/

namespace SmartDnsPlusUi

open Text

/-- What `buildManagedText` reads of the page's state: `S.managed` with its list
`_deleted`, and the two lists of `S.config`, with the fields that are written. -/
structure UiState where
  managed : ManagedAssets := {}
  deleted : List Text := []
  ruleSetAssets : List ManagedDomainSet := []
  routingItems : List ManagedRoutingItem := []
  deriving DecidableEq

def routingKey (rule : ManagedRoutingItem) : Text :=
  rule.ruleType.toList ++ '|' :: (rule.target ++ '|' :: rule.value)

/-- `set_type || "list"`. -/
def orList (setType : Text) : Text := if setType = [] then "list" else setType

namespace UiState

variable (state : UiState)

/-- `allDS`. -/
def allDomainSets : List ManagedDomainSet :=
  state.managed.domainSets ++
    (unseen (·.name) (state.managed.domainSets.map (·.name)) state.ruleSetAssets).map fun asset =>
      { asset with setType := orList asset.setType }

/-- `allRT`. -/
def allRoutingItems : List ManagedRoutingItem :=
  state.managed.routingItems ++
    unseen routingKey (state.managed.routingItems.map routingKey)
      (state.routingItems.filter fun rule =>
        rule.ruleType ≠ "domain-set" ∧ routingKey rule ∉ state.deleted)

def nameserverItems : List ManagedRoutingItem :=
  state.allRoutingItems.filter (·.ruleType = "nameserver")

def otherItems : List ManagedRoutingItem :=
  state.allRoutingItems.filter (·.ruleType ≠ "nameserver")

end UiState

/-- A rule without target is not written. -/
def nameserverLines (item : ManagedRoutingItem) : List Text :=
  let target := scriptTrim item.target
  if target = [] then [] else [nameserverLine { item with target }]

def groupBeginLine (group : ManagedRuleGroup) : Text :=
  if group.inherit = [] then keyed "group-begin" group.name
  else keyed "group-begin" (group.name ++ (" -inherit " : Text) ++ group.inherit)

def groupLines (group : ManagedRuleGroup) : List Text :=
  groupBeginLine group :: group.matchers.map (keyed "group-match") ++ [("group-end" : Text), []]

def clientRuleLine (rule : ManagedClientRule) : Text := keyed "client-rules" rule.matcher

/-- A title and the lines of the items, when there are any. -/
def titledSection {Item : Type} (title : Text) (itemLines : Item → List Text) (last : List Text)
    (items : List Item) : List Text :=
  if items = [] then [] else title :: items.flatMap itemLines ++ last

def managedTextHeader : List Text :=
  ["# ═══════════════════════════════════════════", "#  域名集合与分流规则",
    "#  由 SmartDNS Plus UI 生成", "# ═══════════════════════════════════════════", ""]

def managedTextLines (state : UiState) : List Text :=
  managedTextHeader ++
    titledSection "# ── 域名集合 ──"
      (fun set => [domainSetLine { set with setType := orList set.setType }]) [[]]
      state.allDomainSets ++
    titledSection "# ── IP 集合 ──" (fun set => [ipSetLine set]) [[]] state.managed.ipSets ++
    titledSection "# ── 分流 ──" nameserverLines [[]] state.nameserverItems ++
    titledSection "# ── 规则 ──" (fun item => [ruleEntryLine item]) [[]] state.otherItems ++
    titledSection "# ── 规则组 ──" groupLines [] state.managed.ruleGroups ++
    titledSection "# ── 客户端规则 ──" (fun rule => [clientRuleLine rule]) [[]]
      state.managed.clientRules ++
    titledSection "# ── IP 规则 ──" (fun rule => [ipRuleLine rule]) [[]] state.managed.ipRules

def buildManagedText (state : UiState) : Text :=
  let ls := managedTextLines state
  join ['\n'] ((if ls.length ≤ 4 then ls ++ [("# 还没有规则配置。" : Text)] else ls) ++ [[]])

/-- The placeholder is never written, as the header has five lines. -/
theorem buildManagedText_eq (state : UiState) :
    buildManagedText state = unlines (managedTextLines state) := by
  have long : ¬ (managedTextLines state).length ≤ 4 := by
    simp only [managedTextLines, List.length_append]
    have header : managedTextHeader.length = 5 := rfl
    omega
  simp only [buildManagedText, if_neg long]
  exact join_append_nil _

end SmartDnsPlusUi
