import SmartDnsPlusUi.Config.Beginner
import SmartDnsPlusUi.Config.GroupMerge
import SmartDnsPlusUi.Config.RuleAssets

/-!
# The scope of groups

`parseManagedAssetsFromText` keeps one open group, the readers of rule assets a
stack of them.  They agree where no group is begun inside another, and where the
assets of groups with the same name cannot be confused.
-/

namespace SmartDnsPlusUi

open Text Table

/-! ### Blocks -/

/-- One group for each `group-begin`, in their order, and the positions of those
that are open, the innermost first. -/
structure Blocks where
  groups : List ManagedRuleGroup := []
  openBlocks : List Nat := []
  deriving DecidableEq

def ManagedRuleGroup.addMatcher (value : Text) (group : ManagedRuleGroup) : ManagedRuleGroup :=
  { group with matchers := group.matchers ++ [value] }

def blockStep (blocks : Blocks) (directive : Directive) : Blocks :=
  match assetKeyword directive.key with
  | .groupBegin =>
      { groups := blocks.groups ++ [beginGroup directive.value]
        openBlocks := blocks.groups.length :: blocks.openBlocks }
  | .groupMatch =>
      match blocks.openBlocks with
      | innermost :: _ =>
          { blocks with
            groups := blocks.groups.modify innermost (·.addMatcher directive.value) }
      | [] => blocks
  | .groupEnd => { blocks with openBlocks := blocks.openBlocks.tail }
  | _ => blocks

def blocksOf (ds : List Directive) : Blocks := ds.foldl blockStep {}

def Blocks.closed (blocks : Blocks) : List ManagedRuleGroup :=
  (blocks.groups.zipIdx.filter fun block => block.2 ∉ blocks.openBlocks).map Prod.fst

def Blocks.unclosed (blocks : Blocks) : List ManagedRuleGroup :=
  (blocks.groups.zipIdx.filter fun block => block.2 ∈ blocks.openBlocks).map Prod.fst

/-- No group is begun while another one is open. -/
def NeverNested : Bool → List Directive → Prop
  | _, [] => True
  | isOpen, directive :: rest =>
      match assetKeyword directive.key with
      | .groupBegin => isOpen = false ∧ NeverNested true rest
      | .groupEnd => NeverNested false rest
      | _ => NeverNested isOpen rest

/-- Merging the groups by their names confuses none of them. -/
structure IsUnambiguous (blocks : Blocks) : Prop where
  unclosed : ∀ group ∈ blocks.unclosed, group.matchers = []
  matchers : blocks.closed.Pairwise fun first second =>
    first.name = second.name → first.matchers = [] ∧ second.matchers = []
  inherit : ∀ group ∈ blocks.closed, ∀ first ∈ blocks.closed.find? (·.name = group.name),
    first.inherit = [] → group.inherit = []

/-! ### What the readers of assets show -/

def RuleGroupAsset.managed (asset : RuleGroupAsset) : ManagedRuleGroup :=
  ⟨asset.name, asset.inherit, asset.matchers⟩

def ClientRuleAsset.managed (asset : ClientRuleAsset) : ManagedClientRule :=
  ⟨asset.matcher, asset.groupName⟩

def IpRuleAsset.managed (asset : IpRuleAsset) : ManagedIpRule :=
  ⟨asset.ruleType, asset.target, asset.options, asset.groupName⟩

/-- The parser lists a group for each `group-begin` with the matchers of which it is
the innermost open block, and scopes all rules as the readers of assets do.  The
groups that come from included files are left out. -/
structure AgreesOnScope (path text : Text) : Prop where
  groups : (parseManagedAssetsFromText text).ruleGroups = (blocksOf (directives text)).groups
  groupAssets : (parseManagedAssetsFromText text).ruleGroups =
    ((buildRuleGroupAssets [⟨path, text, none⟩]).filter (·.includeFile = [])).map (·.managed)
  clientRules : (parseManagedAssetsFromText text).clientRules =
    (buildClientRuleAssets [⟨path, text, none⟩]).map (·.managed)
  ipRules : (parseManagedAssetsFromText text).ipRules =
    (buildIpRuleAssets [⟨path, text, none⟩]).map (·.managed)

/-! ### Texts without nested groups -/

theorem parse_ruleGroups (text : Text) :
    (parseManagedAssetsFromText text).ruleGroups =
      ((directives text).foldl scanDirective {}).assets.ruleGroups ++
        ((directives text).foldl scanDirective {}).inGroup.toList := by
  unfold parseManagedAssetsFromText AssetScan.close
  split <;> simp_all

/-- The stacks hold the one group that the parser has open, if any. -/
structure Tracks (scan : AssetScan) (blocks : Blocks) (groups : GroupScan) : Prop where
  listed : blocks.groups = scan.assets.ruleGroups ++ scan.inGroup.toList
  openBlocks : blocks.openBlocks =
    scan.inGroup.toList.map fun _ => scan.assets.ruleGroups.length
  stack : groups.stack.map (·.managed) = scan.inGroup.toList
  realized : groups.realized.map (·.managed) = scan.assets.ruleGroups

theorem Tracks.step {scan : AssetScan} {blocks : Blocks} {groups : GroupScan}
    (tracks : Tracks scan blocks groups) (source : ConfigSource) {directive : Directive}
    (notNested : assetKeyword directive.key = .groupBegin → scan.inGroup = none) :
    Tracks (scanDirective scan directive) (blockStep blocks directive)
      (scanGroup source groups directive) := by
  obtain ⟨assets, inGroup⟩ := scan
  obtain ⟨stack, realized⟩ := groups
  obtain ⟨listed, opened, stacked, closed⟩ := tracks
  dsimp only at listed opened stacked closed notNested
  obtain ⟨listedGroups, openBlocks⟩ := blocks
  subst listed opened
  cases inGroup with
  | none =>
      rw [Option.toList_none, List.map_eq_nil_iff] at stacked
      subst stacked
      cases keyword : assetKeyword directive.key with
      | groupBegin =>
          simp only [scanDirective, blockStep, scanGroup, keyword]
          exact ⟨by simp, by simp, by simp; rfl, closed⟩
      | _ =>
          simp only [scanDirective, blockStep, scanGroup, keyword]
          exact ⟨rfl, rfl, rfl, closed⟩
  | some group =>
      obtain ⟨asset, rfl, managed⟩ := List.map_eq_singleton_iff.mp stacked
      cases keyword : assetKeyword directive.key with
      | groupBegin => cases notNested keyword
      | groupMatch =>
          simp only [scanDirective, blockStep, scanGroup, keyword]
          subst managed
          refine ⟨?_, rfl, rfl, closed⟩
          simp [ManagedRuleGroup.addMatcher, RuleGroupAsset.managed, List.modify_eq_take_drop]
      | groupEnd =>
          simp only [scanDirective, blockStep, scanGroup, keyword]
          exact ⟨by simp, rfl, rfl, by simp [GroupScan.pop, closed, managed]⟩
      | _ =>
          simp only [scanDirective, blockStep, scanGroup, keyword]
          exact ⟨rfl, rfl, congrArg (· :: []) managed, closed⟩

/-- Whether a group is open after a directive. -/
theorem isSome_inGroup_scanDirective (scan : AssetScan) (directive : Directive) :
    (scanDirective scan directive).inGroup.isSome =
      match assetKeyword directive.key with
      | .groupBegin => true
      | .groupEnd => false
      | _ => scan.inGroup.isSome := by
  rw [scanDirective_eq]
  unfold groupAfter
  split <;> simp_all

theorem neverNested_cons {scan : AssetScan} {directive : Directive} {rest : List Directive} :
    NeverNested scan.inGroup.isSome (directive :: rest) ↔
      (assetKeyword directive.key = .groupBegin → scan.inGroup = none) ∧
        NeverNested (scanDirective scan directive).inGroup.isSome rest := by
  rw [isSome_inGroup_scanDirective, NeverNested]
  split <;> simp_all

theorem Tracks.run {scan : AssetScan} {blocks : Blocks} {groups : GroupScan}
    (tracks : Tracks scan blocks groups) (source : ConfigSource) {ds : List Directive}
    (flat : NeverNested scan.inGroup.isSome ds) :
    Tracks (ds.foldl scanDirective scan) (ds.foldl blockStep blocks)
      (ds.foldl (scanGroup source) groups) := by
  induction ds generalizing scan blocks groups with
  | nil => exact tracks
  | cons directive ds inductionHypothesis =>
      obtain ⟨notNested, later⟩ := neverNested_cons.mp flat
      exact inductionHypothesis (tracks.step source notNested) later

theorem tracks_start : Tracks {} {} {} := ⟨rfl, rfl, rfl, rfl⟩

/-! ### Nested groups are lost -/

/-- The number of groups begun. -/
def begun (ds : List Directive) : Nat := ds.countP (assetKeyword ·.key = .groupBegin)

theorem length_blocksOf (ds : List Directive) (blocks : Blocks) :
    (ds.foldl blockStep blocks).groups.length = blocks.groups.length + begun ds := by
  induction ds generalizing blocks with
  | nil => rfl
  | cons directive ds inductionHypothesis =>
      rw [List.foldl_cons, inductionHypothesis, begun, begun, List.countP_cons]
      unfold blockStep
      split
      · simp_all
        omega
      · split <;> simp_all
      · simp_all
      · simp_all

def AssetScan.groupCount (scan : AssetScan) : Nat :=
  scan.assets.ruleGroups.length + scan.inGroup.toList.length

/-- Every `group-begin` adds a group, unless it replaces the open one. -/
theorem groupCount_scanDirective (scan : AssetScan) (directive : Directive) :
    (scanDirective scan directive).groupCount =
      scan.groupCount +
        if assetKeyword directive.key = .groupBegin ∧ scan.inGroup = none then 1 else 0 := by
  obtain ⟨assets, inGroup⟩ := scan
  unfold scanDirective AssetScan.groupCount
  cases keyword : assetKeyword directive.key with
  | groupBegin => cases inGroup <;> simp
  | groupEnd => cases inGroup <;> simp
  | groupMatch => cases inGroup <;> simp
  | _ => simp

theorem groupCount_foldl_le (ds : List Directive) (scan : AssetScan) :
    (ds.foldl scanDirective scan).groupCount ≤ scan.groupCount + begun ds := by
  induction ds generalizing scan with
  | nil => exact Nat.le_refl _
  | cons directive ds inductionHypothesis =>
      have later := inductionHypothesis (scanDirective scan directive)
      rw [groupCount_scanDirective] at later
      rw [List.foldl_cons, begun, List.countP_cons]
      unfold begun at later
      by_cases begins : assetKeyword directive.key = .groupBegin
      · rw [if_pos (decide_eq_true begins)]
        split at later <;> omega
      · rw [if_neg fun both => begins both.1] at later
        rw [if_neg (by simpa using begins)]
        exact later

/-- All groups are listed only if none is begun inside another. -/
theorem neverNested_of_groupCount {ds : List Directive} {scan : AssetScan}
    (all : (ds.foldl scanDirective scan).groupCount = scan.groupCount + begun ds) :
    NeverNested scan.inGroup.isSome ds := by
  induction ds generalizing scan with
  | nil => trivial
  | cons directive ds inductionHypothesis =>
      have later := groupCount_foldl_le ds (scanDirective scan directive)
      rw [groupCount_scanDirective] at later
      rw [List.foldl_cons, begun, List.countP_cons] at all
      unfold begun at later
      by_cases begins : assetKeyword directive.key = .groupBegin
      · rw [if_pos (decide_eq_true begins)] at all
        have none : scan.inGroup = none := by
          by_contra isOpen
          rw [if_neg fun both => isOpen both.2] at later
          omega
        refine neverNested_cons.mpr ⟨fun _ => none, inductionHypothesis ?_⟩
        rw [groupCount_scanDirective, if_pos ⟨begins, none⟩]
        unfold begun
        omega
      · rw [if_neg (by simpa using begins)] at all
        refine neverNested_cons.mpr ⟨fun begin_ => absurd begin_ begins, inductionHypothesis ?_⟩
        rw [groupCount_scanDirective, if_neg fun both => begins both.1]
        exact all

theorem ruleGroups_eq_blocks_iff (text : Text) :
    (parseManagedAssetsFromText text).ruleGroups = (blocksOf (directives text)).groups ↔
      NeverNested false (directives text) := by
  constructor
  · intro same
    have start : ({} : AssetScan).inGroup.isSome = false := rfl
    rw [← start]
    apply neverNested_of_groupCount
    have lengths := congrArg List.length same
    rw [parse_ruleGroups, List.length_append, blocksOf, length_blocksOf] at lengths
    exact lengths
  · intro flat
    rw [parse_ruleGroups]
    exact (tracks_start.run ⟨[], text, none⟩ flat).listed.symm

/-! ### Rules in groups -/

/-- What the parser collects under the name of its group, a reader of assets collects
under the name at the top of its stack. -/
theorem component_foldl_scanDirective {Item Asset : Type} (component : AssetScan → List Item)
    (asset : Text → Directive → List Asset) (managed : Asset → Item)
    (collects : ∀ scan directive, component (scanDirective scan directive) =
      component scan ++ (asset scan.groupName directive).map managed)
    {ds : List Directive} {scan : AssetScan} (flat : NeverNested scan.inGroup.isSome ds) :
    component (ds.foldl scanDirective scan) =
      component scan ++ (inGroups asset (scan.inGroup.toList.map (·.name)) ds).map managed := by
  induction ds generalizing scan with
  | nil => simp [inGroups]
  | cons directive ds inductionHypothesis =>
      obtain ⟨notNested, later⟩ := neverNested_cons.mp flat
      have stack : groupStackAfter (scan.inGroup.toList.map (·.name)) directive =
          (scanDirective scan directive).inGroup.toList.map (·.name) := by
        rw [scanDirective_eq]
        unfold groupStackAfter groupAfter
        cases keyword : assetKeyword directive.key with
        | groupBegin => simp [notNested keyword]
        | _ => cases scan.inGroup <;> simp
      have top : (scan.inGroup.toList.map (·.name)).head?.getD [] = scan.groupName := by
        unfold AssetScan.groupName
        cases scan.inGroup <;> rfl
      rw [List.foldl_cons, inductionHypothesis later, collects, inGroups, stack, top,
        List.map_append, List.append_assoc]

theorem clientRuleOf_eq_map (path text groupName : Text) (directive : Directive) :
    clientRuleOf groupName directive =
      (clientRuleAsset ⟨path, text, none⟩ groupName directive).map (·.managed) := by
  unfold clientRuleOf clientRuleAsset assetKeyword
  split <;> simp_all [ClientRuleAsset.managed]

theorem ipRuleOf_eq_map (path text groupName : Text) (directive : Directive) :
    ((ipRuleOf directive).map fun core =>
        ManagedIpRule.mk core.ruleType core.target core.options groupName) =
      (ipRuleAsset ⟨path, text, none⟩ groupName directive).map (·.managed) := by
  unfold ipRuleOf ipRuleAsset assetKeyword
  split <;> simp_all [IpRuleAsset.managed]

/-! ### The group assets -/

/-- A `conf-file` with a group has a first word, so its asset names a file. -/
theorem includeFile_ne_nil {value name groupName : Text}
    (found : parseNamedOption value name = some groupName) :
    trim ((splitWhitespace value).head?.getD []) ≠ [] := by
  unfold parseNamedOption at found
  cases words : splitWhitespace value with
  | nil => simp [words, lookupOption] at found
  | cons word rest =>
      have token := token_of_mem_splitWhitespace (words ▸ List.mem_cons_self : word ∈ _)
      simpa [trim_eq_self token.trimmed] using token.1

theorem filter_ruleGroupAsset (path text : Text) (directive : Directive) :
    ((ruleGroupAsset ⟨path, text, none⟩ directive).filter (·.includeFile = [])) =
      if assetKeyword directive.key = .groupBegin then [begunGroup path directive.value]
      else [] := by
  unfold ruleGroupAsset
  dsimp only
  split
  · rename_i key
    simp [key, assetKeyword, begunGroup]
  · rename_i key
    rw [key, if_neg (by decide)]
    split
    · rename_i groupName found
      simpa using includeFile_ne_nil found
    · rfl
  · rename_i begins _
    rw [if_neg]
    · rfl
    · unfold assetKeyword
      split <;> simp_all

theorem source_ruleGroupAsset {source : ConfigSource} {directive : Directive}
    {asset : RuleGroupAsset} (listed : asset ∈ ruleGroupAsset source directive) :
    asset.source = source.path := by
  unfold ruleGroupAsset at listed
  dsimp only at listed
  repeat' split at listed
  all_goals simp_all [begunGroup]

/-- The group a directive begins, without matchers. -/
def begunOf (directive : Directive) : List ManagedRuleGroup :=
  if assetKeyword directive.key = .groupBegin then [beginGroup directive.value] else []

/-- A group of the text itself, as opposed to one of an included file. -/
def RuleGroupAsset.IsBegun (path : Text) (asset : RuleGroupAsset) : Prop :=
  asset.source = path ∧ asset.includeFile = []

theorem isBegun_updateTop {path : Text} {f : RuleGroupAsset → RuleGroupAsset}
    (keeps : ∀ asset, (f asset).source = asset.source ∧ (f asset).includeFile = asset.includeFile)
    {groups : GroupScan}
    (all : ∀ asset ∈ groups.stack ++ groups.realized, asset.IsBegun path) :
    ∀ asset ∈ (groups.updateTop f).stack ++ (groups.updateTop f).realized,
      asset.IsBegun path := by
  unfold GroupScan.updateTop
  cases stack : groups.stack with
  | nil => simpa [stack] using all
  | cons top rest =>
      simp only [stack, List.cons_append, List.forall_mem_cons] at all ⊢
      exact ⟨⟨(keeps top).1.trans all.1.1, (keeps top).2.trans all.1.2⟩, all.2⟩

theorem isBegun_pop {path : Text} {groups : GroupScan}
    (all : ∀ asset ∈ groups.stack ++ groups.realized, asset.IsBegun path) :
    ∀ asset ∈ groups.pop.stack ++ groups.pop.realized, asset.IsBegun path := by
  unfold GroupScan.pop
  cases stack : groups.stack with
  | nil => simpa [stack] using all
  | cons top rest =>
      simp only [stack, List.cons_append, List.forall_mem_cons, List.forall_mem_append] at all ⊢
      exact ⟨all.2.1, all.2.2, all.1, nofun⟩

theorem isBegun_foldl_scanGroup (path text : Text) (ds : List Directive) {groups : GroupScan}
    (all : ∀ asset ∈ groups.stack ++ groups.realized, asset.IsBegun path) :
    ∀ asset ∈ (ds.foldl (scanGroup ⟨path, text, none⟩) groups).stack ++
      (ds.foldl (scanGroup ⟨path, text, none⟩) groups).realized, asset.IsBegun path := by
  induction ds generalizing groups with
  | nil => exact all
  | cons directive ds inductionHypothesis =>
      apply inductionHypothesis
      unfold scanGroup
      split
      · exact List.forall_mem_cons.mpr ⟨⟨rfl, rfl⟩, all⟩
      · refine isBegun_updateTop ?_ all
        exact fun _ => ⟨rfl, rfl⟩
      · exact isBegun_pop all
      · refine isBegun_updateTop ?_ all
        exact fun _ => ⟨rfl, rfl⟩

/-- The assets of the groups of a text: the closed ones merged by name into the list
of all that were begun. -/
theorem groupAssets_eq (path text : Text) :
    ((buildRuleGroupAssets [⟨path, text, none⟩]).filter (·.includeFile = [])).map (·.managed) =
      mergeAll ManagedRuleGroup.name ManagedRuleGroup.realize
        ((directives text).flatMap begunOf)
        (((directives text).foldl (scanGroup ⟨path, text, none⟩) {}).realized.map
          (·.managed)) := by
  have realized : ∀ asset ∈ ((directives text).foldl (scanGroup ⟨path, text, none⟩) {}).realized,
      asset.IsBegun path := by
    have start : ∀ asset ∈ ({} : GroupScan).stack ++ ({} : GroupScan).realized,
        asset.IsBegun path := nofun
    intro asset listed
    exact isBegun_foldl_scanGroup path text (directives text) start asset
      (List.mem_append_right _ listed)
  have keeps : ∀ first element : RuleGroupAsset, (first.realize element).key = first.key :=
    fun _ _ => rfl
  have filtered := filter_mergeAll keeps (fun key => decide (key.2.2 = []))
    ((directives text).flatMap (ruleGroupAsset ⟨path, text, none⟩)) _
    fun asset listed => decide_eq_true (realized asset listed).2
  have scanned : ([⟨path, text, none⟩].foldl scanSource {}).realized =
      ((directives text).foldl (scanGroup ⟨path, text, none⟩) {}).realized := rfl
  unfold buildRuleGroupAssets
  rw [List.flatMap_singleton, scanned]
  refine (congrArg (List.map _) filtered).trans ?_
  rw [map_mergeAll ManagedRuleGroup.name ManagedRuleGroup.realize RuleGroupAsset.managed
    (RuleGroupAsset.IsBegun path)]
  · have listed : (((directives text).flatMap (ruleGroupAsset ⟨path, text, none⟩)).filter
        fun asset => decide (asset.key.2.2 = [])).map (·.managed) =
          (directives text).flatMap begunOf := by
      rw [List.filter_flatMap, List.map_flatMap]
      refine List.flatMap_congr fun directive _ => ?_
      refine (congrArg (List.map _) (filter_ruleGroupAsset path text directive)).trans ?_
      unfold begunOf
      split <;> rfl
    rw [listed]
  · rintro first element ⟨source, includeFile⟩ ⟨source', includeFile'⟩
    simp [RuleGroupAsset.key, RuleGroupAsset.managed, source, source', includeFile, includeFile']
  · exact fun _ _ => rfl
  · exact fun _ _ isBegun => isBegun
  · intro first listed
    obtain ⟨begun, named⟩ := List.mem_filter.mp listed
    obtain ⟨directive, -, own⟩ := List.mem_flatMap.mp begun
    exact ⟨source_ruleGroupAsset own, of_decide_eq_true named⟩
  · exact realized

theorem map_cleared_blockStep (blocks : Blocks) (directive : Directive) :
    (blockStep blocks directive).groups.map ManagedRuleGroup.cleared =
      blocks.groups.map ManagedRuleGroup.cleared ++ begunOf directive := by
  unfold blockStep begunOf
  split
  · rename_i keyword
    rw [if_pos keyword, List.map_append]
    rfl
  · rename_i keyword
    rw [keyword, if_neg (by decide), List.append_nil]
    split
    · refine List.ext_getElem? fun index => ?_
      rw [List.getElem?_map, List.getElem?_map, List.getElem?_modify]
      cases blocks.groups[index]? with
      | none => rfl
      | some group =>
          refine congrArg some ?_
          dsimp only
          split <;> rfl
    · rfl
  · rename_i keyword
    rw [keyword, if_neg (by decide), List.append_nil]
  · rename_i keyword _ _
    rw [if_neg keyword, List.append_nil]

theorem map_cleared_blocksOf (ds : List Directive) :
    (blocksOf ds).groups.map ManagedRuleGroup.cleared = ds.flatMap begunOf :=
  foldl_append_flatMap blockStep (·.groups.map ManagedRuleGroup.cleared) begunOf
    map_cleared_blockStep {} ds

/-! ### The claim of scope -/

theorem Tracks.closed_eq {scan : AssetScan} {blocks : Blocks} {groups : GroupScan}
    (tracks : Tracks scan blocks groups) :
    blocks.closed = scan.assets.ruleGroups ∧ blocks.unclosed = scan.inGroup.toList := by
  obtain ⟨listedGroups, openBlocks⟩ := blocks
  obtain ⟨listed, opened, -, -⟩ := tracks
  dsimp only at listed opened
  subst listed opened
  unfold Blocks.closed Blocks.unclosed
  cases scan.inGroup with
  | none => simp
  | some group =>
      have below : ∀ block ∈ scan.assets.ruleGroups.zipIdx,
          block.2 ≠ scan.assets.ruleGroups.length :=
        fun block listed => Nat.ne_of_lt (by simpa using List.snd_lt_of_mem_zipIdx listed)
      have kept : scan.assets.ruleGroups.zipIdx.filter
          (fun block => decide (block.2 ∉ [scan.assets.ruleGroups.length])) =
            scan.assets.ruleGroups.zipIdx :=
        List.filter_eq_self.mpr fun block listed => by simpa using below block listed
      have dropped : scan.assets.ruleGroups.zipIdx.filter
          (fun block => decide (block.2 ∈ [scan.assets.ruleGroups.length])) = [] :=
        List.filter_eq_nil_iff.mpr fun block listed => by simpa using below block listed
      simp only [Option.toList_some, List.map_cons, List.map_nil, List.zipIdx_append,
        List.filter_append, List.map_append, kept, dropped]
      simp

/-- Without nested groups, the readers of assets list the groups of the parser exactly
if merging by name confuses none of them. -/
theorem groupAssets_iff (path : Text) {text : Text} (flat : NeverNested false (directives text)) :
    (parseManagedAssetsFromText text).ruleGroups =
        ((buildRuleGroupAssets [⟨path, text, none⟩]).filter (·.includeFile = [])).map
          (·.managed) ↔
      IsUnambiguous (blocksOf (directives text)) := by
  have tracks : Tracks ((directives text).foldl scanDirective {}) (blocksOf (directives text))
      ((directives text).foldl (scanGroup ⟨path, text, none⟩) {}) :=
    tracks_start.run ⟨path, text, none⟩ flat
  obtain ⟨closed, unclosed⟩ := tracks.closed_eq
  have groups : (blocksOf (directives text)).groups =
      (blocksOf (directives text)).closed ++ (blocksOf (directives text)).unclosed := by
    rw [closed, unclosed]
    exact tracks.listed
  have realized : ((directives text).foldl (scanGroup ⟨path, text, none⟩) {}).realized.map
      (·.managed) = (blocksOf (directives text)).closed.filter fun _ => true := by
    rw [List.filter_true, closed]
    exact tracks.realized
  rw [groupAssets_eq, realized, ← map_cleared_blocksOf, (ruleGroups_eq_blocks_iff text).mpr flat,
    eq_comm, groups, mergeAll_cleared_eq_iff _ _ fun _ => true]
  constructor
  · rintro ⟨open_, unconfused⟩
    exact ⟨open_, unconfused.matchers, fun group listed => unconfused.inherit group listed rfl⟩
  · intro unambiguous
    exact ⟨unambiguous.unclosed, nofun, unambiguous.matchers,
      fun group listed _ => unambiguous.inherit group listed⟩

/-- The parser and the readers of assets agree exactly on the texts that begin no group
inside another and do not confuse groups with the same name. -/
theorem agreesOnScope_iff (path text : Text) :
    AgreesOnScope path text ↔
      NeverNested false (directives text) ∧ IsUnambiguous (blocksOf (directives text)) := by
  constructor
  · intro agrees
    have flat := (ruleGroups_eq_blocks_iff text).mp agrees.groups
    exact ⟨flat, (groupAssets_iff path flat).mp agrees.groupAssets⟩
  · rintro ⟨flat, unambiguous⟩
    obtain ⟨groups, closed⟩ := parseManagedAssetsFromText_eq text
    refine ⟨(ruleGroups_eq_blocks_iff text).mpr flat, (groupAssets_iff path flat).mpr unambiguous,
      ?_, ?_⟩
    · rw [closed, buildClientRuleAssets, List.flatMap_singleton]
      refine component_foldl_scanDirective (·.assets.clientRules) _ _ ?_ flat
      intro scan directive
      rw [scanDirective_eq, clientRuleOf_eq_map path text]
    · rw [closed, buildIpRuleAssets, List.flatMap_singleton]
      refine component_foldl_scanDirective (·.assets.ipRules) _ _ ?_ flat
      intro scan directive
      rw [scanDirective_eq, ipRuleOf_eq_map path text]

/-- The outer of two nested groups is lost, in a text that is accepted. -/
theorem not_agreesOnScope :
    ¬ ∀ (config : BeginnerConfig) (path text : Text),
      (validateBeginnerConfig config text).ok = true → AgreesOnScope path text := by
  intro agreesAll
  have agrees := agreesAll { responseMode := "first-ping", upstreams := [{ value := "1.1.1.1" }] }
    "rules.conf" "group-begin outer\ngroup-begin inner\ngroup-end\ngroup-end\n" (by decide)
  have lengths := congrArg List.length agrees.groups
  revert lengths
  decide

end SmartDnsPlusUi
