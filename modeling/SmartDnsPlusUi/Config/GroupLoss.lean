import SmartDnsPlusUi.Config.IpRuleReread

/-!
# Groups do not survive a save

No renderer writes groups, client rules or group names, and no written line
starts with a group keyword even after merging, so a reload finds no group at
all.  The IP rules without group are all read back exactly when each of them is
read back from its own line.
-/

namespace SmartDnsPlusUi

open Text

/-- The line is the keyword, alone or before a space. -/
def Opens (key line : Text) : Prop := line = key ∨ ∃ rest, line = key ++ ' ' :: rest

theorem opens_trim_keyed {key : String} (token : IsToken key.toList) (argument : Text) :
    Opens key.toList (trim (keyed key argument)) := by
  rw [trim_keyed token]
  split
  · exact .inl rfl
  · exact .inr ⟨_, rfl⟩

theorem Opens.append {key line : Text} (opens : Opens key line) (piece : Text) :
    Opens key (line ++ ' ' :: piece) := by
  rcases opens with rfl | ⟨rest, rfl⟩
  · exact .inr ⟨piece, rfl⟩
  · exact .inr ⟨rest ++ ' ' :: piece, by simp⟩

theorem Opens.trimEnd {key line : Text} (trimmed : Trimmed key) (opens : Opens key line) :
    Opens key (trimEnd line) := by
  rcases opens with rfl | ⟨rest, rfl⟩
  · exact .inl (trimEnd_of_last trimmed.2)
  · have inner := trimEnd_append [' '] rest
    rw [List.singleton_append] at inner
    rw [trimEnd_append, trim_space_cons]
    by_cases empty : trim rest = []
    · exact .inl (by rw [if_pos empty, trimEnd_of_last trimmed.2])
    · exact .inr ⟨Text.trimEnd rest, by rw [if_neg empty, inner, if_neg empty]; rfl⟩

theorem Opens.trim {key line : Text} (token : IsToken key) (opens : Opens key line) :
    Opens key (trim line) := by
  have head : ∀ c ∈ line.head?, isWhitespace c = false := by
    obtain ⟨c, rest, rfl⟩ := List.exists_cons_of_ne_nil token.1
    have solid := (solid_cons c rest).mp token.2
    rcases opens with rfl | ⟨tail, rfl⟩ <;> simpa using solid.1
  rw [Text.trim, trimStart_of_head head]
  exact opens.trimEnd token.trimmed

/-- Cutting a run of backslashes off the end leaves the keyword in place. -/
theorem Opens.pieceOf {key line : Text} (token : IsToken key) (absent : '\\' ∉ key)
    (opens : Opens key line) : Opens key (pieceOf line) := by
  apply Opens.trimEnd token.trimmed
  rcases opens with rfl | ⟨rest, rfl⟩
  · left
    rw [trimEndMatches, List.rdropWhile_eq_self_iff]
    intro nonempty ends
    exact absent ((beq_iff_eq.mp ends) ▸ List.getLast_mem nonempty)
  · right
    refine ⟨rest.rdropWhile (· == '\\'), ?_⟩
    have split := rdropWhile_append (· == '\\') (key ++ [' ']) rest
    rw [List.rdropWhile_concat_neg _ _ _ (by simp), List.append_assoc,
      List.singleton_append] at split
    rw [trimEndMatches, split]
    by_cases gone : rest.rdropWhile (· == '\\') = []
    · simp only [gone, if_true]
    · simp only [gone, if_false, List.append_assoc, List.singleton_append]

/-- When all content lines open with one of the keywords, so do all merged
lines; `current` is empty or does. -/
theorem exists_opens_of_mem_mergeLines {keys : List String}
    (plain : ∀ key ∈ keys, IsToken key.toList ∧ '\\' ∉ key.toList) {ls : List Text}
    (opens : ∀ line ∈ contentLines ls, ∃ key ∈ keys, Opens key.toList line) {current : Text}
    (started : current = [] ∨ ∃ key ∈ keys, Opens key.toList current) :
    ∀ line ∈ mergeLines current ls, ∃ key ∈ keys, Opens key.toList line := by
  have trims : ∀ {line : Text}, (∃ key ∈ keys, Opens key.toList line) →
      ∃ key ∈ keys, Opens key.toList (Text.trim line) := by
    rintro line ⟨key, keyMem, own⟩
    exact ⟨key, keyMem, own.trim (plain key keyMem).1⟩
  have joins : ∀ {line : Text} (piece : Text), (∃ key ∈ keys, Opens key.toList line) →
      ∃ key ∈ keys, Opens key.toList (line ++ ' ' :: piece) := by
    rintro line piece ⟨key, keyMem, own⟩
    exact ⟨key, keyMem, own.append piece⟩
  have flushed : ∀ {current : Text}, (current = [] ∨ ∃ key ∈ keys, Opens key.toList current) →
      ∀ line ∈ flush current, ∃ key ∈ keys, Opens key.toList line := by
    rintro current (rfl | own) line membership
    · simp [flush] at membership
    · by_cases empty : current = []
      · simp [flush, empty] at membership
      · simp only [flush, if_neg empty, List.mem_singleton] at membership
        exact membership ▸ trims own
  rw [← contentLines_map_trim] at opens
  rw [← mergeLines_map_trim]
  induction ls generalizing current with
  | nil => exact flushed started
  | cons rawLine ls inductionHypothesis =>
      rw [List.map_cons, contentLines_cons] at opens
      have later : ∀ {current : Text}, (current = [] ∨ ∃ key ∈ keys, Opens key.toList current) →
          ∀ line ∈ mergeLines current (ls.map Text.trim), ∃ key ∈ keys, Opens key.toList line :=
        fun started => inductionHypothesis
          (fun line membership => opens line (List.mem_append_right _ membership)) started
      have own : Text.trim rawLine ≠ [] → (Text.trim rawLine).head? ≠ some '#' →
          ∃ key ∈ keys, Opens key.toList (Text.trim rawLine) := by
        intro nonempty noComment
        apply opens
        simp [contentLines, nonempty, noComment]
      rw [List.map_cons, mergeLines]
      rcases lineKind_cases (trimmed_trim rawLine) with
        ⟨kind, -⟩ | ⟨kind, continues⟩ | ⟨kind, logical, -⟩ | ⟨kind, -⟩ <;> simp only [kind]
      · exact later started
      · have nonempty : Text.trim rawLine ≠ [] := by
          intro empty
          simp [Continues, empty] at continues
        obtain ⟨key, keyMem, opened⟩ := own nonempty (by simpa using continues.1)
        have piece : ∃ key ∈ keys, Opens key.toList (pieceOf (Text.trim rawLine)) :=
          ⟨key, keyMem, opened.pieceOf (plain key keyMem).1 (plain key keyMem).2⟩
        by_cases gone : pieceOf (Text.trim rawLine) = []
        · simpa only [gone, if_true] using later started
        · simp only [gone, if_false]
          apply later
          right
          by_cases first : current = []
          · simpa only [appendPiece, first, if_true] using trims piece
          · simpa only [appendPiece, first, if_false] using
              joins _ (started.resolve_left first)
      · have opened := own logical.nonempty logical.no_comment
        by_cases first : current = []
        · simp only [first, if_true, List.mem_cons, forall_eq_or_imp]
          exact ⟨opened, later (.inl rfl)⟩
        · simp only [first, if_false, List.mem_cons, forall_eq_or_imp]
          exact ⟨trims (joins _ (started.resolve_left first)), later (.inl rfl)⟩
      · intro line membership
        rcases List.mem_append.mp membership with pushed | rest
        · exact flushed started line pushed
        · exact later (.inl rfl) line rest

theorem key_splitDirective_of_opens {key : String} (token : IsToken key.toList) {line : Text}
    (opens : Opens key.toList line) : (splitDirective line).key = key := by
  rcases opens with same | ⟨rest, same⟩
  · rw [same, splitDirective, trim_eq_self token.trimmed, splitFirst_of_solid token.2]
    simp [trim_eq_self token.trimmed]
  · exact same ▸ congrArg Directive.key (splitDirective_keyed token rest)

/-! ### The keywords of a reload -/

/-- The keywords that the three pages write. -/
def writtenKeys (assets : ManagedAssets) : List String :=
  assets.routingItems.map (·.ruleType) ++
    (assets.ipRules.map (·.ruleType) ++ ["domain-set", "ip-set"])

/-- A keyword that contributes an asset of its own and touches no group. -/
def IsAssetKey (key : String) : Prop :=
  assetKeyword key = .routing ∨ assetKeyword key = .ipRule ∨
    assetKeyword key = .domainSet ∨ assetKeyword key = .ipSet

theorem IsAssetKey.keyword {key : String} (asset : IsAssetKey key) :
    IsKeyword key.toList ∧ '\\' ∉ key.toList := by
  apply isKeyword_of_assetKeyword
  rcases asset with same | same | same | same <;> rw [same] <;> decide

namespace IsSingleLine

variable {assets : ManagedAssets} (single : IsSingleLine assets)
include single

theorem isAssetKey_of_mem : ∀ key ∈ writtenKeys assets, IsAssetKey key := by
  intro key membership
  simp only [writtenKeys, List.mem_append, List.mem_map, List.mem_cons, List.not_mem_nil,
    or_false] at membership
  rcases membership with ⟨item, itemMem, rfl⟩ | ⟨rule, ruleMem, rfl⟩ | rfl | rfl
  · exact .inl (single.routing_type item itemMem)
  · exact .inr (.inl (single.ip_type rule ruleMem))
  · exact .inr (.inr (.inl rfl))
  · exact .inr (.inr (.inr rfl))

theorem opens_keyed {key : String} (membership : key ∈ writtenKeys assets) (argument : Text) :
    ∃ opening ∈ writtenKeys assets, Opens opening.toList (trim (keyed key argument)) :=
  ⟨key, membership,
    opens_trim_keyed (single.isAssetKey_of_mem key membership).keyword.1.token argument⟩

/-- Every line of the three pages opens with one of the keywords. -/
theorem opens_of_mem_pageLines : ∀ line ∈ pageLines assets,
    ∃ opening ∈ writtenKeys assets, Opens opening.toList (trim line) := by
  intro line membership
  have routingKey : ∀ item ∈ assets.routingItems, item.ruleType ∈ writtenKeys assets :=
    fun item membership => List.mem_append_left _ (List.mem_map_of_mem membership)
  have ipKey : ∀ rule ∈ assets.ipRules, rule.ruleType ∈ writtenKeys assets :=
    fun rule membership =>
      List.mem_append_right _ (List.mem_append_left _ (List.mem_map_of_mem membership))
  have setKey : "domain-set" ∈ writtenKeys assets ∧ "ip-set" ∈ writtenKeys assets := by
    simp [writtenKeys]
  simp only [pageLines, rulesPageLines, List.mem_append, List.mem_map,
    List.mem_filter] at membership
  rcases membership with
    (⟨item, ⟨itemMem, -⟩, rfl⟩ | ⟨item, ⟨itemMem, -⟩, rfl⟩ | ⟨rule, ruleMem, rfl⟩) |
      ⟨set, -, rfl⟩ | ⟨set, -, rfl⟩
  · unfold nameserverLine
    split <;> exact single.opens_keyed (routingKey item itemMem) _
  · simp only [ruleEntryLine]
    split <;> exact single.opens_keyed (routingKey item itemMem) _
  · unfold ipRuleLine
    split <;> exact single.opens_keyed (ipKey rule ruleMem) _
  · rw [domainSetLine_eq]
    exact single.opens_keyed setKey.1 _
  · rw [ipSetLine_eq]
    exact single.opens_keyed setKey.2 _

/-- A reload meets no keyword that the pages do not write. -/
theorem isAssetKey_of_mem_directives :
    ∀ directive ∈ directives (reloadedRulesText assets), IsAssetKey directive.key := by
  intro directive membership
  obtain ⟨line, lineMem, rfl⟩ := mem_directives_iff.mp membership
  have plain : ∀ key ∈ writtenKeys assets, IsToken key.toList ∧ '\\' ∉ key.toList :=
    fun key keyMem =>
      let keyword := (single.isAssetKey_of_mem key keyMem).keyword
      ⟨keyword.1.token, keyword.2⟩
  have opens : ∀ line ∈ (pageLines assets).map trim,
      ∃ opening ∈ writtenKeys assets, Opens opening.toList line := by
    simpa using single.opens_of_mem_pageLines
  have page : ∀ line, _ → line ∈ (pageLines assets).map trim :=
    fun _ => single.mem_contentOf_iff.mpr
  have opened : ∃ key ∈ writtenKeys assets, Opens key.toList line := by
    rw [logicalLines_reloadedRulesText, List.mem_append, List.mem_append] at lineMem
    rcases lineMem with own | own | own
    · exact exists_opens_of_mem_mergeLines plain
        (fun line own => opens line (page line (.inl own))) (.inl rfl) line own
    · exact exists_opens_of_mem_mergeLines plain
        (fun line own => opens line (page line (.inr (.inl own)))) (.inl rfl) line own
    · exact exists_opens_of_mem_mergeLines plain
        (fun line own => opens line (page line (.inr (.inr own)))) (.inl rfl) line own
  obtain ⟨key, keyMem, opening⟩ := opened
  rw [key_splitDirective_of_opens (plain key keyMem).1 opening]
  exact single.isAssetKey_of_mem key keyMem

end IsSingleLine

/-! ### What a reload keeps of the groups -/

/-- Everything submitted that knows of groups is read back. -/
structure KeepsGroups (submitted reloaded : ManagedAssets) : Prop where
  rule_groups : ∀ group ∈ submitted.ruleGroups, group ∈ reloaded.ruleGroups
  client_rules : ∀ rule ∈ submitted.clientRules, rule ∈ reloaded.clientRules
  ip_rules : ∀ rule ∈ submitted.ipRules, rule ∈ reloaded.ipRules

/-- The same with only those IP rules that belong to a group. -/
structure KeepsMemberships (parsed reloaded : ManagedAssets) : Prop where
  rule_groups : ∀ group ∈ parsed.ruleGroups, group ∈ reloaded.ruleGroups
  client_rules : ∀ rule ∈ parsed.clientRules, rule ∈ reloaded.clientRules
  memberships : ∀ rule ∈ parsed.ipRules, rule.groupName ≠ [] → rule ∈ reloaded.ipRules

/-- No groups, no client rules and no IP rule in a group. -/
structure IsUngrouped (assets : ManagedAssets) : Prop where
  rule_groups : assets.ruleGroups = []
  client_rules : assets.clientRules = []
  ip_rules : ∀ rule ∈ assets.ipRules, rule.groupName = []

/-- A reload finds no group, whatever was submitted. -/
theorem IsSingleLine.isUngrouped_reloaded {assets : ManagedAssets}
    (single : IsSingleLine assets) :
    IsUngrouped (parseManagedAssetsFromText (reloadedRulesText assets)) := by
  have keys := single.isAssetKey_of_mem_directives
  have noGroup : ∀ directive ∈ directives (reloadedRulesText assets),
      assetKeyword directive.key ≠ .groupBegin ∧ assetKeyword directive.key ≠ .clientRules := by
    intro directive membership
    rcases keys directive membership with same | same | same | same <;> rw [same] <;> decide
  obtain ⟨groups, rules⟩ := parse_of_no_group fun directive membership =>
    (noGroup directive membership).1
  refine ⟨groups, (parse_clientRules_eq_nil_iff _).mpr fun directive membership =>
    (noGroup directive membership).2, ?_⟩
  rw [rules]
  intro rule membership
  obtain ⟨core, -, rfl⟩ := List.mem_map.mp membership
  rfl

/-- What a single-line request submits about groups is lost. -/
theorem IsSingleLine.isUngrouped_of_keepsGroups {assets : ManagedAssets}
    (single : IsSingleLine assets)
    (keeps : KeepsGroups assets (parseManagedAssetsFromText (reloadedRulesText assets))) :
    IsUngrouped assets := by
  have none := single.isUngrouped_reloaded
  refine ⟨?_, ?_, fun rule membership => none.ip_rules rule (keeps.ip_rules rule membership)⟩
  · apply List.eq_nil_iff_forall_not_mem.mpr
    intro group membership
    simpa [none.rule_groups] using keeps.rule_groups group membership
  · apply List.eq_nil_iff_forall_not_mem.mpr
    intro rule membership
    simpa [none.client_rules] using keeps.client_rules rule membership

/-! ### What survives -/

/-- Every IP rule's line is split into its target and its options again, and does not go on
in the next line. -/
def IpRulesReadable (assets : ManagedAssets) : Prop :=
  ∀ rule ∈ assets.ipRules,
    splitTargetOptions (ipRuleArgument rule) = (rule.target, rule.options) ∧
      endsWith '\\' (trim (ipRuleLine rule)) = false

namespace IsSingleLine

variable {assets : ManagedAssets} (single : IsSingleLine assets)
include single

/-- The entries and the IP rules of their page are merged apart. -/
theorem logicalLines_rulesPage :
    logicalLines (renderRuleEntriesText assets) =
      mergeLines [] ((assets.routingItems.filter (·.ruleType ≠ "nameserver")).map ruleEntryLine) ++
        mergeLines [] (assets.ipRules.map ipRuleLine) := by
  have free : ∀ line ∈ rulesPageLines assets, '\n' ∉ line := by
    intro line membership
    rcases List.mem_append.mp membership with entry | rule
    · obtain ⟨item, itemMem, rfl⟩ := List.mem_map.mp entry
      exact (single.isPageLine_routing item (List.mem_filter.mp itemMem).1).2.no_newline
    · obtain ⟨own, ruleMem, rfl⟩ := List.mem_map.mp rule
      exact (single.isPageLine_ip own ruleMem).no_newline
  obtain ⟨entriesFree, rulesFree⟩ := List.forall_mem_append.mp free
  have sections : ∀ line ∈ titled "# ── 域名规则与地址改写 ──"
        ((assets.routingItems.filter (·.ruleType ≠ "nameserver")).map ruleEntryLine) ++
      titled "# ── IP 规则 ──" (assets.ipRules.map ipRuleLine), '\n' ∉ line :=
    List.forall_mem_append.mpr
      ⟨not_mem_titled (by decide) entriesFree, not_mem_titled (by decide) rulesFree⟩
  have merged : mergeLines [] (titled "# ── 域名规则与地址改写 ──"
        ((assets.routingItems.filter (·.ruleType ≠ "nameserver")).map ruleEntryLine) ++
      titled "# ── IP 规则 ──" (assets.ipRules.map ipRuleLine)) =
      mergeLines [] ((assets.routingItems.filter (·.ruleType ≠ "nameserver")).map ruleEntryLine) ++
        mergeLines [] (assets.ipRules.map ipRuleLine) := by
    have last := @mergeLines_titled "# ── IP 规则 ──" (by decide)
      (assets.ipRules.map ipRuleLine) []
    rw [List.append_nil] at last
    rw [mergeLines_titled (by decide), last]
    exact congrArg _ (List.append_nil _)
  rw [renderRuleEntriesText, List.append_assoc, logicalLines_closePage (by decide) sections, merged]

/-- Lines that open with other keywords give no IP rule, merged or not. -/
theorem ipRules_of_other_keys {keys : List String}
    (written : ∀ key ∈ keys, key ∈ writtenKeys assets)
    (other : ∀ key ∈ keys, assetKeyword key ≠ .ipRule) {ls : List Text}
    (opens : ∀ line ∈ contentLines ls, ∃ key ∈ keys, Opens key.toList line) :
    (mergeLines [] ls).flatMap (fun line => ipRuleOf (splitDirective line)) = [] := by
  have plain : ∀ key ∈ keys, IsToken key.toList ∧ '\\' ∉ key.toList := by
    intro key membership
    have keyword := (single.isAssetKey_of_mem key (written key membership)).keyword
    exact ⟨keyword.1.token, keyword.2⟩
  rw [List.flatMap_eq_nil_iff]
  intro line membership
  obtain ⟨key, keyMem, opening⟩ :=
    exists_opens_of_mem_mergeLines plain opens (.inl rfl) line membership
  rw [ipRuleOf, key_splitDirective_of_opens (plain key keyMem).1 opening,
    if_neg (other key keyMem)]

theorem routingKeys_other : ∀ key ∈ assets.routingItems.map (·.ruleType),
    key ∈ writtenKeys assets ∧ assetKeyword key ≠ .ipRule := by
  rintro key membership
  refine ⟨List.mem_append_left _ membership, ?_⟩
  obtain ⟨item, itemMem, rfl⟩ := List.mem_map.mp membership
  rw [single.routing_type item itemMem]
  decide

theorem ipRules_of_routing_lines {line : ManagedRoutingItem → Text}
    (keys : ∀ item ∈ assets.routingItems, ∃ argument, line item = keyed item.ruleType argument)
    {items : List ManagedRoutingItem} (listed : ∀ item ∈ items, item ∈ assets.routingItems)
    {ls : List Text}
    (content : ∀ shown ∈ contentLines ls, ∃ item ∈ items, shown = trim (line item)) :
    (mergeLines [] ls).flatMap (fun line => ipRuleOf (splitDirective line)) = [] := by
  apply single.ipRules_of_other_keys (fun key membership =>
    (single.routingKeys_other key membership).1) fun key membership =>
    (single.routingKeys_other key membership).2
  intro shown membership
  obtain ⟨item, itemMem, rfl⟩ := content shown membership
  obtain ⟨argument, equality⟩ := keys item (listed item itemMem)
  have routing : item.ruleType ∈ assets.routingItems.map (·.ruleType) :=
    List.mem_map_of_mem (listed item itemMem)
  have keyword := (single.isAssetKey_of_mem _ (single.routingKeys_other _ routing).1).keyword
  rw [equality]
  exact ⟨item.ruleType, routing, opens_trim_keyed keyword.1.token argument⟩

/-- Only the lines of the IP rules are read as IP rules. -/
theorem ipRules_reloaded :
    (directives (reloadedRulesText assets)).flatMap ipRuleOf =
      (mergeLines [] (assets.ipRules.map ipRuleLine)).flatMap
        fun line => ipRuleOf (splitDirective line) := by
  have routingPage : (logicalLines (renderRoutingItemsText assets)).flatMap
      (fun line => ipRuleOf (splitDirective line)) = [] := by
    have keys : ∀ item ∈ assets.routingItems, ∃ argument,
        nameserverLine item = keyed item.ruleType argument := by
      intro item _
      unfold nameserverLine
      split
      · exact ⟨_, rfl⟩
      · exact ⟨_, rfl⟩
    have listed : ∀ item ∈ assets.routingItems.filter (·.ruleType = "nameserver"),
        item ∈ assets.routingItems := fun item membership => (List.mem_filter.mp membership).1
    apply single.ipRules_of_routing_lines keys listed
    intro shown membership
    change shown ∈ contentOf (renderRoutingItemsText assets) at membership
    rw [single.contentOf_pages.1, List.map_map, List.mem_map] at membership
    obtain ⟨item, itemMem, rfl⟩ := membership
    exact ⟨item, itemMem, rfl⟩
  have entries : (mergeLines []
      ((assets.routingItems.filter (·.ruleType ≠ "nameserver")).map ruleEntryLine)).flatMap
        (fun line => ipRuleOf (splitDirective line)) = [] := by
    have keys : ∀ item ∈ assets.routingItems, ∃ argument,
        ruleEntryLine item = keyed item.ruleType argument := by
      intro item _
      unfold ruleEntryLine
      dsimp only
      split
      · split
        · exact ⟨_, rfl⟩
        · exact ⟨_, rfl⟩
      · split
        · exact ⟨_, rfl⟩
        · exact ⟨_, rfl⟩
    have listed : ∀ item ∈ assets.routingItems.filter (·.ruleType ≠ "nameserver"),
        item ∈ assets.routingItems := fun item membership => (List.mem_filter.mp membership).1
    apply single.ipRules_of_routing_lines keys listed
    intro shown membership
    simp only [contentLines, List.mem_filter, List.mem_map] at membership
    obtain ⟨⟨_, ⟨item, itemMem, rfl⟩, rfl⟩, -⟩ := membership
    exact ⟨item, List.mem_filter.mpr itemMem, rfl⟩
  have setsPage : (logicalLines (renderSetsText assets)).flatMap
      (fun line => ipRuleOf (splitDirective line)) = [] := by
    apply @ipRules_of_other_keys _ single ["domain-set", "ip-set"]
    · simp [writtenKeys]
    · decide
    · intro shown membership
      change shown ∈ contentOf (renderSetsText assets) at membership
      rw [single.contentOf_pages.2.2, List.map_append, List.mem_append, List.map_map,
        List.map_map, List.mem_map, List.mem_map] at membership
      rcases membership with ⟨set, -, rfl⟩ | ⟨set, -, rfl⟩
      · rw [Function.comp_apply, domainSetLine_eq]
        exact ⟨"domain-set", by simp, opens_trim_keyed (by decide) _⟩
      · rw [Function.comp_apply, ipSetLine_eq]
        exact ⟨"ip-set", by simp, opens_trim_keyed (by decide) _⟩
  rw [directives_eq_map, List.flatMap_map, logicalLines_reloadedRulesText,
    single.logicalLines_rulesPage, List.flatMap_append, List.flatMap_append, List.flatMap_append,
    routingPage, entries, setsPage, List.append_nil]
  rfl

/-- An ungrouped rule is read back if a line of the IP rules gives it. -/
theorem mem_reloaded_iff {rule : ManagedIpRule} (ungrouped : rule.groupName = []) :
    rule ∈ (parseManagedAssetsFromText (reloadedRulesText assets)).ipRules ↔
      ∃ line ∈ mergeLines [] (assets.ipRules.map ipRuleLine),
        rule.core ∈ ipRuleOf (splitDirective line) := by
  have noGroup : ∀ directive ∈ directives (reloadedRulesText assets),
      assetKeyword directive.key ≠ .groupBegin := by
    intro directive membership
    rcases single.isAssetKey_of_mem_directives directive membership with same | same | same | same
    all_goals
      rw [same]
      decide
  rw [(parse_of_no_group noGroup).2, single.ipRules_reloaded, List.mem_map, ← List.mem_flatMap]
  constructor
  · rintro ⟨core, read, rfl⟩
    exact read
  · intro read
    refine ⟨rule.core, read, ?_⟩
    rw [ManagedIpRule.core, ← ungrouped]

/-- Where no line of an IP rule goes on, each gives what is read of it alone. -/
theorem exists_line_iff
    (plain : ∀ rule ∈ assets.ipRules, endsWith '\\' (trim (ipRuleLine rule)) = false)
    (core : IpRuleCore) :
    (∃ line ∈ mergeLines [] (assets.ipRules.map ipRuleLine),
        core ∈ ipRuleOf (splitDirective line)) ↔
      ∃ rule ∈ assets.ipRules, rule.core.reread = core := by
  have merged : mergeLines [] (assets.ipRules.map ipRuleLine) =
      (assets.ipRules.map ipRuleLine).map trim := by
    rw [mergeLines_of_not_continues, contentLines_eq_map_trim]
    · exact List.forall_mem_map.mpr single.isPageLine_ip
    · refine List.forall_mem_map.mpr fun rule membership goesOn => ?_
      have stops := plain rule membership
      rw [goesOn.2] at stops
      cases stops
  rw [merged, List.map_map]
  simp only [List.mem_map, exists_exists_and_eq_and, Function.comp_apply]
  refine exists_congr fun rule => and_congr_right fun membership => ?_
  have ipRule := single.ip_type rule membership
  have keyword := isKeyword_of_assetKeyword (ipRule.trans_ne (by decide))
  rw [splitDirective_trim, ipRuleLine_eq_keyed, splitDirective_keyed keyword.1.token, ipRuleOf,
    if_pos ipRule, splitTargetOptions_trim, List.mem_singleton]
  exact eq_comm

/-- For a request whose strings stay on their lines: exactly when nothing is lost. -/
theorem keepsGroups_iff :
    KeepsGroups assets (parseManagedAssetsFromText (reloadedRulesText assets)) ↔
      IsUngrouped assets ∧ IpRulesReadable assets := by
  constructor
  · intro keeps
    have ungrouped := single.isUngrouped_of_keepsGroups keeps
    have found : ∀ rule ∈ assets.ipRules, ∃ line ∈ mergeLines [] (assets.ipRules.map ipRuleLine),
        rule.core ∈ ipRuleOf (splitDirective line) := by
      intro rule membership
      rw [← single.mem_reloaded_iff (ungrouped.ip_rules rule membership)]
      exact keeps.ip_rules rule membership
    have types : ∀ core ∈ assets.ipRules.map ManagedIpRule.core,
        assetKeyword core.ruleType = .ipRule := List.forall_mem_map.mpr single.ip_type
    have lines : (assets.ipRules.map ManagedIpRule.core).map IpRuleCore.line =
        assets.ipRules.map ipRuleLine := List.map_map
    have plain := List.forall_mem_map.mp (not_continued_of_covered types (by
      rw [lines]
      exact List.forall_mem_map.mpr found))
    have covered : ∀ core ∈ assets.ipRules.map ManagedIpRule.core,
        ∃ own ∈ assets.ipRules.map ManagedIpRule.core, own.reread = core := by
      refine List.forall_mem_map.mpr fun rule membership => ?_
      obtain ⟨source, sourceMem, equality⟩ :=
        (single.exists_line_iff plain rule.core).mp (found rule membership)
      exact ⟨source.core, List.mem_map_of_mem sourceMem, equality⟩
    refine ⟨ungrouped, fun rule membership => ⟨?_, plain rule membership⟩⟩
    have same := reread_eq_self_of_covered covered rule.core (List.mem_map_of_mem membership)
    rw [IpRuleCore.reread, IpRuleCore.mk.injEq] at same
    exact Prod.ext same.2.1 same.2.2
  · rintro ⟨ungrouped, readable⟩
    refine ⟨by simp [ungrouped.rule_groups], by simp [ungrouped.client_rules], ?_⟩
    intro rule membership
    rw [single.mem_reloaded_iff (ungrouped.ip_rules rule membership), single.exists_line_iff
      fun rule membership => (readable rule membership).2]
    refine ⟨rule, membership, ?_⟩
    have same : splitTargetOptions rule.core.argument = (rule.target, rule.options) :=
      (readable rule membership).1
    rw [IpRuleCore.reread, same]
    rfl

end IsSingleLine

/-- The save of a rules text keeps its groups exactly when it has none. -/
theorem keepsMemberships_iff (text : Text) :
    KeepsMemberships (parseManagedAssetsFromText (normalizeRulesText text))
        (parseManagedAssetsFromText (reloadedRulesText
          (parseManagedAssetsFromText (normalizeRulesText text)))) ↔
      ∀ directive ∈ directives text, directive.key ≠ "group-begin" ∧
        directive.key ≠ "client-rules" := by
  have begins : ∀ key, assetKeyword key = .groupBegin ↔ key = "group-begin" := by
    intro key
    unfold assetKeyword
    split <;> simp_all
  have clients : ∀ key, assetKeyword key = .clientRules ↔ key = "client-rules" := by
    intro key
    unfold assetKeyword
    split <;> simp_all
  rw [parse_normalizeRulesText]
  have lost := (isSingleLine_parse text).isUngrouped_reloaded
  constructor
  · intro keeps directive membership
    constructor
    · intro key
      obtain ⟨group, listed⟩ := List.exists_mem_of_ne_nil _
        (parse_ruleGroups_ne_nil membership ((begins directive.key).mpr key))
      simpa [lost.rule_groups] using keeps.rule_groups group listed
    · intro key
      have none : (parseManagedAssetsFromText text).clientRules = [] := by
        apply List.eq_nil_iff_forall_not_mem.mpr
        intro rule listed
        simpa [lost.client_rules] using keeps.client_rules rule listed
      exact (parse_clientRules_eq_nil_iff text).mp none directive membership
        ((clients directive.key).mpr key)
  · intro none
    obtain ⟨groups, rules⟩ := parse_of_no_group fun directive membership =>
      mt (begins directive.key).mp (none directive membership).1
    have noClients := (parse_clientRules_eq_nil_iff text).mpr fun directive membership =>
      mt (clients directive.key).mp (none directive membership).2
    refine ⟨by simp [groups], by simp [noClients], ?_⟩
    rw [rules]
    intro rule membership grouped
    obtain ⟨core, -, rfl⟩ := List.mem_map.mp membership
    exact absurd rfl grouped

end SmartDnsPlusUi
