import Mathlib.Algebra.Order.BigOperators.Group.List
import Mathlib.Algebra.Order.Group.Nat
import SmartDnsPlusUi.Config.GroupBlocks

/-!
# One asset for each block

The second pass looks for the asset of a block by its name, its file and the path of the
included file.  It finds the first begun block with the name in the file, and never the
asset of the directive that included a file under a group.
-/

namespace SmartDnsPlusUi

open Table Text

/-- Blocks with one name in one file that the second pass does not mix up: only the last one
holds anything, and it has the parent of the first one. -/
structure KeepsApart (blocks : List GroupBlock) : Prop where
  early : ∀ block ∈ blocks.dropLast, block.body = []
  parent : ∀ first ∈ blocks.head?, first.inherit = [] → ∀ block ∈ blocks, block.inherit = []
  last : ∀ first ∈ blocks.head?, ∀ last ∈ blocks.getLast?, last.body ≠ [] →
    last.inherit = first.inherit

instance (blocks : List GroupBlock) : Decidable (KeepsApart blocks) :=
  decidable_of_iff
    ((∀ block ∈ blocks.dropLast, block.body = []) ∧
      (∀ first ∈ blocks.head?, first.inherit = [] → ∀ block ∈ blocks, block.inherit = []) ∧
      ∀ first ∈ blocks.head?, ∀ last ∈ blocks.getLast?, last.body ≠ [] →
        last.inherit = first.inherit)
    ⟨fun ⟨early, parent, last⟩ => ⟨early, parent, last⟩,
      fun apart => ⟨apart.early, apart.parent, apart.last⟩⟩

/-- No file is included under a group, and blocks with one name in one file are kept apart. -/
structure HasSeparateBlocks (sources : List ConfigSource) : Prop where
  no_include : ∀ source ∈ sources, ∀ directive ∈ directives source.text,
    ¬ IncludesGroup directive
  keepsApart : ∀ name path, KeepsApart
    ((groupBlocks sources).filter fun block => block.name = name ∧ block.source = path)

def RuleGroupAsset.withoutInclude (asset : RuleGroupAsset) : RuleGroupAsset :=
  { asset with includeFile := [] }

/-- There is exactly one asset for each block of a file, with what the block holds. -/
def HasAssetForEachBlock (sources : List ConfigSource) : Prop :=
  ((buildRuleGroupAssets sources).map (·.withoutInclude)).Perm
    ((groupBlocks sources).map (·.asset []))

/-! ### Blocks with one name -/

def RuleGroupAsset.isFilled (asset : RuleGroupAsset) : Bool :=
  asset.matchers ≠ [] || asset.ruleCount ≠ 0

theorem isFilled_asset (block : GroupBlock) (includeFile : Text) :
    (block.asset includeFile).isFilled = true ↔ block.body ≠ [] := by
  cases body : block.body with
  | nil => simp [RuleGroupAsset.isFilled, GroupBlock.asset, body, matchersOf, ruleCountOf]
  | cons directive rest =>
      by_cases matcher : assetKeyword directive.key = .groupMatch <;>
        simp [RuleGroupAsset.isFilled, GroupBlock.asset, body, matchersOf, ruleCountOf, matcher]

theorem declared_eq_asset {block : GroupBlock} (empty : block.body = []) :
    block.declared = block.asset [] := by
  rw [GroupBlock.declared, GroupBlock.asset, empty]
  rfl

theorem key_foldl_realize (asset : RuleGroupAsset) (dynamics : List RuleGroupAsset) :
    (dynamics.foldl RuleGroupAsset.realize asset).key = asset.key := by
  induction dynamics generalizing asset with
  | nil => rfl
  | cons dynamic dynamics inductionHypothesis =>
      rw [List.foldl_cons, inductionHypothesis]
      rfl

theorem inherit_foldl_realize_of_ne_nil {asset : RuleGroupAsset} (parent : asset.inherit ≠ [])
    (dynamics : List RuleGroupAsset) :
    (dynamics.foldl RuleGroupAsset.realize asset).inherit = asset.inherit := by
  induction dynamics generalizing asset with
  | nil => rfl
  | cons dynamic dynamics inductionHypothesis =>
      have kept : (asset.realize dynamic).inherit = asset.inherit := if_neg parent
      rw [List.foldl_cons, inductionHypothesis (by rwa [kept]), kept]

theorem inherit_foldl_realize_eq_nil_iff (asset : RuleGroupAsset)
    (dynamics : List RuleGroupAsset) :
    (dynamics.foldl RuleGroupAsset.realize asset).inherit = [] ↔
      asset.inherit = [] ∧ ∀ dynamic ∈ dynamics, dynamic.inherit = [] := by
  by_cases parent : asset.inherit = []
  · induction dynamics generalizing asset with
    | nil => simp [parent]
    | cons dynamic dynamics inductionHypothesis =>
        have brought : (asset.realize dynamic).inherit = dynamic.inherit := if_pos parent
        rw [List.foldl_cons, List.forall_mem_cons]
        by_cases own : dynamic.inherit = []
        · rw [inductionHypothesis _ (brought.trans own), brought]
          simp [parent]
        · rw [inherit_foldl_realize_of_ne_nil (by rwa [brought]), brought]
          simp [own]
  · rw [inherit_foldl_realize_of_ne_nil parent]
    simp [parent]

/-- The first asset of a name, with all blocks of the name merged into it. -/
def mergedAsset (first : GroupBlock) (blocks : List GroupBlock) : RuleGroupAsset :=
  (blocks.map (·.asset [])).foldl RuleGroupAsset.realize first.declared

theorem inherit_mergedAsset {first : GroupBlock} {blocks : List GroupBlock}
    (parent : first.inherit = [] → ∀ block ∈ blocks, block.inherit = []) :
    (mergedAsset first blocks).inherit = first.inherit := by
  by_cases none : first.inherit = []
  · have all : ∀ dynamic ∈ blocks.map (·.asset []), dynamic.inherit = [] := by
      intro dynamic member
      obtain ⟨block, listed, rfl⟩ := List.mem_map.mp member
      exact parent none block listed
    rw [none]
    exact (inherit_foldl_realize_eq_nil_iff first.declared _).mpr ⟨none, all⟩
  · exact inherit_foldl_realize_of_ne_nil none _

/-- The merged asset has the key of the first block and the content of the last one. -/
theorem mergedAsset_append (first last : GroupBlock) (blocks : List GroupBlock) :
    mergedAsset first (blocks ++ [last]) =
      { name := first.name
        inherit := (mergedAsset first (blocks ++ [last])).inherit
        source := first.source
        includeFile := []
        matchers := matchersOf last.body
        ruleCount := ruleCountOf last.body } := by
  have key := key_foldl_realize first.declared (blocks.map (·.asset []))
  have whole : mergedAsset first (blocks ++ [last]) =
      ((blocks.map (·.asset [])).foldl RuleGroupAsset.realize first.declared).realize
        (last.asset []) := by
    rw [mergedAsset, List.map_append, List.foldl_append]
    rfl
  rw [whole]
  generalize (blocks.map (·.asset [])).foldl RuleGroupAsset.realize first.declared = base at key
  obtain ⟨name, parent, source, includeFile, matchers, ruleCount⟩ := base
  simp only [RuleGroupAsset.key, GroupBlock.declared, Prod.mk.injEq] at key
  obtain ⟨rfl, rfl, rfl⟩ := key
  rfl

/-- Blocks that are kept apart have their assets, in another order if the last one is not
empty. -/
theorem KeepsApart.perm {first : GroupBlock} {rest : List GroupBlock}
    (same : ∀ block ∈ rest, block.name = first.name ∧ block.source = first.source)
    (apart : KeepsApart (first :: rest)) :
    (mergedAsset first (first :: rest) :: rest.map GroupBlock.declared).Perm
      ((first :: rest).map (·.asset [])) := by
  have inherits := inherit_mergedAsset (apart.parent first rfl)
  rcases List.eq_nil_or_concat' rest with rfl | ⟨middle, last, rfl⟩
  · have merged := mergedAsset_append first first []
    rw [List.nil_append, inherits] at merged
    rw [merged]
    exact List.Perm.refl _
  have merged := mergedAsset_append first last (first :: middle)
  rw [List.cons_append, inherits] at merged
  have early : ∀ block ∈ first :: middle, block.body = [] := by
    intro block member
    apply apart.early
    rwa [← List.cons_append, List.dropLast_concat]
  have declared : middle.map GroupBlock.declared = middle.map (·.asset []) :=
    List.map_congr_left fun block member =>
      declared_eq_asset (early block (List.mem_cons_of_mem _ member))
  have firstEmpty := early first List.mem_cons_self
  have lastSame := same last (by simp)
  rw [merged, List.map_append, declared, List.map_singleton, List.map_cons, List.map_append,
    List.map_singleton]
  by_cases empty : last.body = []
  · have own : first.asset [] =
        ⟨first.name, first.inherit, first.source, [], matchersOf last.body,
          ruleCountOf last.body⟩ := by
      rw [GroupBlock.asset, firstEmpty, empty]
    rw [← own, declared_eq_asset empty]
  · have parent : last.inherit = first.inherit := by
      refine apart.last first rfl last ?_ empty
      rw [← List.cons_append, List.getLast?_concat]
      rfl
    have moved : last.asset [] =
        ⟨first.name, first.inherit, first.source, [], matchersOf last.body,
          ruleCountOf last.body⟩ := by
      rw [GroupBlock.asset, parent, lastSame.1, lastSame.2]
    have listed : last.declared = first.asset [] := by
      rw [← declared_eq_asset firstEmpty, GroupBlock.declared, GroupBlock.declared, parent,
        lastSame.1, lastSame.2]
    rw [← moved, listed]
    exact ((List.perm_append_singleton _ _).cons _).trans
      ((List.Perm.swap _ _ _).trans ((List.perm_append_singleton _ _).symm.cons _))

/-- Blocks that have their assets are kept apart. -/
theorem keepsApart_of_perm {first : GroupBlock} {rest : List GroupBlock}
    (perm : (mergedAsset first (first :: rest) :: rest.map GroupBlock.declared).Perm
      ((first :: rest).map (·.asset []))) :
    KeepsApart (first :: rest) := by
  obtain ⟨early, last, split⟩ : ∃ early last, first :: rest = early ++ [last] :=
    (List.eq_nil_or_concat' (first :: rest)).resolve_left (List.cons_ne_nil _ _)
  have merged := mergedAsset_append first last early
  have kept : first.inherit ≠ [] → (mergedAsset first (first :: rest)).inherit = first.inherit :=
    fun parent => @inherit_foldl_realize_of_ne_nil first.declared parent _
  have all := inherit_foldl_realize_eq_nil_iff first.declared ((first :: rest).map (·.asset []))
  change (mergedAsset first (first :: rest)).inherit = [] ↔ _ at all
  rw [← split] at merged
  generalize mergedAsset first (first :: rest) = asset at perm merged kept all
  have filled : asset.isFilled = (last.asset []).isFilled := by
    rw [merged]
    rfl
  have noneFilled : (rest.map GroupBlock.declared).countP RuleGroupAsset.isFilled = 0 := by
    rw [List.countP_eq_zero]
    intro declared member
    obtain ⟨block, -, rfl⟩ := List.mem_map.mp member
    exact Bool.false_ne_true
  have emptyEarly : ∀ block ∈ early, block.body = [] := by
    have counts := perm.countP_eq RuleGroupAsset.isFilled
    rw [split, List.map_append, List.countP_append, List.countP_cons, noneFilled,
      List.map_singleton, List.countP_singleton, filled] at counts
    have none : (early.map (·.asset [])).countP RuleGroupAsset.isFilled = 0 := by omega
    intro block member
    by_contra nonempty
    exact List.countP_eq_zero.mp none _ (List.mem_map_of_mem member)
      ((isFilled_asset block []).mpr nonempty)
  have inherits : asset.inherit = [] ↔ first.inherit = [] := by
    have counts := perm.countP_eq (fun asset => decide (asset.inherit = []))
    rw [List.map_cons, List.countP_cons, List.countP_cons, List.countP_map, List.countP_map]
      at counts
    have bits : ∀ one other : Bool,
        (if one = true then 1 else 0) = (if other = true then 1 else 0) → one = other := by decide
    exact decide_eq_decide.mp (bits _ _ (Nat.add_left_cancel counts))
  have parent : asset.inherit = first.inherit := by
    by_cases none : first.inherit = []
    · rw [none, inherits.mpr none]
    · exact kept none
  refine ⟨?_, ?_, ?_⟩
  · rwa [split, List.dropLast_concat]
  · rintro _ ⟨⟩ none block member
    exact (all.mp (inherits.mpr none)).2 _ (List.mem_map_of_mem member)
  · rintro _ ⟨⟩ other isLast nonempty
    rw [split, List.getLast?_concat, Option.mem_def, Option.some.injEq] at isLast
    subst isLast
    -- the only asset with anything in it is that of the last block
    obtain ⟨block, member, same⟩ := List.mem_map.mp (perm.mem_iff.mp List.mem_cons_self)
    rw [split, List.mem_append, List.mem_singleton] at member
    rcases member with isEarly | rfl
    · have isFilled := (isFilled_asset last []).mpr nonempty
      rw [← filled, ← same, isFilled_asset] at isFilled
      exact absurd (emptyEarly block isEarly) isFilled
    · rw [← parent, ← same]
      rfl

theorem keepsApart_of_length_le_one {blocks : List GroupBlock} (short : blocks.length ≤ 1) :
    KeepsApart blocks := by
  rcases blocks with _ | ⟨block, _ | ⟨other, rest⟩⟩
  · exact ⟨nofun, nofun, nofun⟩
  · refine ⟨nofun, ?_, ?_⟩
    · rintro _ ⟨⟩ none
      simpa using none
    · rintro _ ⟨⟩ _ ⟨⟩ -
      rfl
  · simp at short

/-! ### Files without groups -/

theorem key_realize (asset dynamic : RuleGroupAsset) :
    (asset.realize dynamic).key = asset.key := rfl

theorem mergeAll_perm_iff_of_same {blocks : List GroupBlock} {name path : Text}
    (same : ∀ block ∈ blocks, block.name = name ∧ block.source = path) :
    (mergeAll RuleGroupAsset.key RuleGroupAsset.realize (blocks.map GroupBlock.declared)
      (blocks.map (·.asset []))).Perm (blocks.map (·.asset [])) ↔ KeepsApart blocks := by
  cases blocks with
  | nil => exact ⟨fun _ => ⟨nofun, nofun, nofun⟩, fun _ => List.Perm.refl _⟩
  | cons first rest =>
      have own := same first List.mem_cons_self
      have keys : ∀ dynamic ∈ (first :: rest).map (·.asset []),
          dynamic.key = first.declared.key := by
        intro dynamic member
        obtain ⟨block, listed, rfl⟩ := List.mem_map.mp member
        have other := same block listed
        simp [RuleGroupAsset.key, GroupBlock.asset, GroupBlock.declared, own, other]
      rw [show (first :: rest).map GroupBlock.declared =
        first.declared :: rest.map GroupBlock.declared from rfl, mergeAll_of_key key_realize keys]
      refine ⟨keepsApart_of_perm, KeepsApart.perm fun block member => ?_⟩
      have other := same block (List.mem_cons_of_mem _ member)
      exact ⟨other.1.trans own.1.symm, other.2.trans own.2.symm⟩

theorem filter_key_map (blocks : List GroupBlock) {f : GroupBlock → RuleGroupAsset}
    (keys : ∀ block, (f block).key = (block.name, block.source, []))
    (name path includeFile : Text) :
    (blocks.map f).filter (·.key = (name, path, includeFile)) =
      if includeFile = [] then
        (blocks.filter fun block => block.name = name ∧ block.source = path).map f
      else [] := by
  rw [List.filter_map]
  by_cases begun : includeFile = []
  · rw [if_pos begun, begun]
    congr 1
    apply List.filter_congr
    intro block member
    simp [keys]
  · rw [if_neg begun, List.map_eq_nil_iff, List.filter_eq_nil_iff]
    intro block member
    simp [keys, Ne.symm begun]

/-- Merging the blocks of files that are no groups leaves each its asset exactly where those
with one name in one file are kept apart. -/
theorem mergeAll_perm_iff (blocks : List GroupBlock) :
    (mergeAll RuleGroupAsset.key RuleGroupAsset.realize (blocks.map GroupBlock.declared)
      (blocks.map (·.asset []))).Perm (blocks.map (·.asset [])) ↔
    ∀ name path,
      KeepsApart (blocks.filter fun block => block.name = name ∧ block.source = path) := by
  have declaredKey := filter_key_map blocks (fun block => (rfl : block.declared.key = _))
  have assetKey := filter_key_map blocks (fun block => (rfl : (block.asset []).key = _))
  rw [perm_iff_filter_key RuleGroupAsset.key]
  have each : ∀ name path, _ ↔ _ := fun name path =>
    @mergeAll_perm_iff_of_same
      (blocks.filter fun block => block.name = name ∧ block.source = path) name path
      (fun block member => by simpa using (List.mem_filter.mp member).2)
  constructor
  · intro perms name path
    have perm := perms (name, path, [])
    rw [filter_key_mergeAll key_realize, declaredKey, assetKey, if_pos rfl, if_pos rfl] at perm
    exact (each name path).mp perm
  · rintro apart ⟨name, path, includeFile⟩
    rw [filter_key_mergeAll key_realize, declaredKey, assetKey]
    by_cases begun : includeFile = []
    · rw [if_pos begun, if_pos begun]
      exact (each name path).mpr (apart name path)
    · rw [if_neg begun, if_neg begun]
      exact List.Perm.refl _

theorem buildRuleGroupAssets_of_isFlat {sources : List ConfigSource}
    (flat : ∀ source ∈ sources, source.IsFlat) :
    buildRuleGroupAssets sources =
      mergeAll RuleGroupAsset.key RuleGroupAsset.realize (sources.flatMap ConfigSource.declared)
        (sources.flatMap ConfigSource.realized) := by
  have scanned := foldl_scanSource_of_isFlat flat []
  rw [List.nil_append] at scanned
  rw [buildRuleGroupAssets, scanned]
  rfl

theorem hasAssetForEachBlock_iff_of_no_include {sources : List ConfigSource}
    (flat : ∀ source ∈ sources, source.IsFlat)
    (noGroup : ∀ source ∈ sources, source.implicitGroup = none)
    (noInclude : ∀ source ∈ sources, ∀ directive ∈ directives source.text,
      ¬ IncludesGroup directive) :
    HasAssetForEachBlock sources ↔ ∀ name path, KeepsApart
      ((groupBlocks sources).filter fun block => block.name = name ∧ block.source = path) := by
  have declared : sources.flatMap ConfigSource.declared =
      (groupBlocks sources).map GroupBlock.declared := by
    rw [groupBlocks, List.map_flatMap]
    apply List.flatMap_congr
    intro source member
    rw [ConfigSource.declared, flatMap_ruleGroupAsset_eq source (noInclude source member),
      ConfigSource.blocks, noGroup source member]
  have realized : sources.flatMap ConfigSource.realized =
      (groupBlocks sources).map (·.asset []) := by
    rw [groupBlocks, List.map_flatMap]
    apply List.flatMap_congr
    intro source member
    rw [ConfigSource.realized, noGroup source member]
    rfl
  have kind : ∀ {f : GroupBlock → RuleGroupAsset}, (∀ block, (f block).includeFile = []) →
      ∀ asset ∈ (groupBlocks sources).map f, asset.includeFile = [] := by
    intro f includes asset member
    obtain ⟨block, -, rfl⟩ := List.mem_map.mp member
    exact includes block
  have own : ∀ asset : RuleGroupAsset, asset.includeFile = [] → asset.withoutInclude = asset := by
    intro asset begun
    rw [RuleGroupAsset.withoutInclude, ← begun]
  have unchanged : ∀ {f : GroupBlock → RuleGroupAsset}, (∀ block, (f block).includeFile = []) →
      ((groupBlocks sources).map f).map RuleGroupAsset.withoutInclude = (groupBlocks sources).map f := by
    intro f includes
    rw [List.map_map]
    exact List.map_congr_left fun block _ => own _ (includes block)
  have cleared := @map_mergeAll _ _ _ _ _ _ RuleGroupAsset.key RuleGroupAsset.realize
    RuleGroupAsset.key RuleGroupAsset.realize RuleGroupAsset.withoutInclude (·.includeFile = [])
    (fun first element firstBegun elementBegun => by rw [own _ firstBegun, own _ elementBegun])
    (fun _ _ => rfl) (fun _ _ begun => begun) ((groupBlocks sources).map GroupBlock.declared)
    ((groupBlocks sources).map (·.asset [])) (kind fun _ => rfl) (kind fun _ => rfl)
  rw [unchanged fun _ => rfl, unchanged fun _ => rfl] at cleared
  rw [HasAssetForEachBlock, buildRuleGroupAssets_of_isFlat flat, declared, realized,
    ← mergeAll_perm_iff]
  exact iff_of_eq (congrArg (List.Perm · _) cleared)

/-! ### Files included under a group -/

section Collected

variable {tree : ConfigTree} {collected : Collected}

/-- The first pass lists an asset with the key. -/
abbrev IsDeclared (sources : List ConfigSource) (key : Text × Text × Text) : Prop :=
  IsKnown RuleGroupAsset.key (sources.flatMap ConfigSource.declared) key

theorem isDeclared_of_begun {sources : List ConfigSource} {source : ConfigSource}
    (member : source ∈ sources) (noGroup : source.implicitGroup = none) {asset : RuleGroupAsset}
    (realized : asset ∈ source.realized) : IsDeclared sources asset.key := by
  rw [ConfigSource.realized, noGroup] at realized
  obtain ⟨block, begun, rfl⟩ := List.mem_map.mp realized
  rw [ConfigSource.blocks, noGroup] at begun
  have listed := (declared_begunBlocks_sublist source (directives source.text)).subset
    (List.mem_map_of_mem begun)
  exact ⟨block.declared, List.mem_flatMap.mpr ⟨source, member, listed⟩, rfl⟩

/-- Only a file that includes itself under its group lists the key of its block. -/
theorem exists_include_of_isDeclared (isCollected : IsCollected tree collected)
    {source : ConfigSource} (member : source ∈ collected.items) (flat : source.IsFlat)
    {groupName : Text} (group : source.implicitGroup = some groupName)
    (listed : IsDeclared collected.items (groupName, source.path, source.path)) :
    ∃ directive ∈ directives source.text, IncludesGroup directive := by
  obtain ⟨asset, assetMem, key⟩ := listed
  obtain ⟨other, otherMem, assetListed⟩ := List.mem_flatMap.mp assetMem
  obtain ⟨directive, directiveMem, declares⟩ := List.mem_flatMap.mp assetListed
  have path : other.path = source.path := by
    rw [← source_ruleGroupAsset declares]
    exact congrArg (fun key : Text × Text × Text => key.2.1) key
  have text : other.text = source.text := by
    have first := isCollected.text other otherMem
    rw [path, isCollected.text source member] at first
    exact (Except.ok.inj first).symm
  rw [text] at directiveMem
  rw [ConfigSource.IsFlat, group] at flat
  refine ⟨directive, directiveMem, ?_⟩
  by_contra excludes
  have none := length_ruleGroupAsset other (flat directive directiveMem).1
  rw [if_neg excludes, List.length_eq_zero_iff] at none
  rw [none] at declares
  exact absurd declares List.not_mem_nil

theorem realized_of_group {source : ConfigSource} {groupName : Text}
    (group : source.implicitGroup = some groupName) :
    source.realized =
      [(GroupBlock.mk groupName [] source.path (directives source.text)).asset source.path] := by
  rw [ConfigSource.realized, ConfigSource.blocks, group]
  rfl

/-- The keys of different blocks of files included under groups differ. -/
theorem pairwise_realized (isCollected : IsCollected tree collected) :
    (collected.items.flatMap ConfigSource.realized).Pairwise fun one other =>
      one.key = other.key → IsDeclared collected.items one.key := by
  rw [List.pairwise_flatMap]
  constructor
  · intro source member
    cases group : source.implicitGroup with
    | none =>
        exact List.pairwise_of_forall_mem_list fun one listed _ _ _ =>
          isDeclared_of_begun member group listed
    | some groupName =>
        rw [realized_of_group group]
        exact List.pairwise_singleton _ _
  · refine isCollected.distinct.imp_of_mem ?_
    intro source other member otherMember distinct one listed two otherListed same
    cases group : source.implicitGroup with
    | none => exact isDeclared_of_begun member group listed
    | some groupName =>
        cases otherGroup : other.implicitGroup with
        | none => exact same ▸ isDeclared_of_begun otherMember otherGroup otherListed
        | some otherName =>
            rw [realized_of_group group, List.mem_singleton] at listed
            rw [realized_of_group otherGroup, List.mem_singleton] at otherListed
            subst listed otherListed
            obtain ⟨names, paths⟩ : groupName = otherName ∧ source.path = other.path :=
              ⟨congrArg Prod.fst same, congrArg (fun key : Text × Text × Text => key.2.1) same⟩
            exact absurd (by rw [group, otherGroup, names, paths]) distinct

/-- What a source lists and what it adds is an asset for each of its blocks at least. -/
theorem length_blocks_le (isCollected : IsCollected tree collected) {source : ConfigSource}
    (member : source ∈ collected.items) (flat : source.IsFlat) :
    source.blocks.length ≤ source.declared.length +
      source.realized.countP fun asset => ¬ IsDeclared collected.items asset.key := by
  have declared := length_flatMap_ruleGroupAsset source (directives source.text)
  cases group : source.implicitGroup with
  | none =>
      rw [ConfigSource.blocks, group, ConfigSource.declared, declared, Nat.add_assoc]
      exact Nat.le_add_right _ _
  | some groupName =>
      have one : source.blocks.length = 1 := by
        rw [ConfigSource.blocks, group]
        rfl
      have key : ((GroupBlock.mk groupName [] source.path (directives source.text)).asset
          source.path).key = (groupName, source.path, source.path) := rfl
      rw [one, realized_of_group group, List.countP_singleton, key]
      by_cases listed : IsDeclared collected.items (groupName, source.path, source.path)
      · obtain ⟨directive, directiveMem, includes⟩ :=
          exists_include_of_isDeclared isCollected member flat group listed
        have positive : 0 < (directives source.text).countP (IncludesGroup ·) :=
          List.countP_pos_iff.mpr ⟨directive, directiveMem, decide_eq_true includes⟩
        rw [ConfigSource.declared, declared]
        omega
      · rw [if_pos (decide_eq_true listed)]
        exact Nat.le_add_left 1 _

theorem length_blocks_lt {source : ConfigSource} (noGroup : source.implicitGroup = none)
    {directive : Directive} (member : directive ∈ directives source.text)
    (includes : IncludesGroup directive) : source.blocks.length < source.declared.length := by
  rw [ConfigSource.blocks, noGroup, ConfigSource.declared, length_flatMap_ruleGroupAsset]
  have positive : 0 < (directives source.text).countP (IncludesGroup ·) :=
    List.countP_pos_iff.mpr ⟨directive, member, decide_eq_true includes⟩
  exact Nat.lt_add_of_pos_right positive

/-- A file included under a group brings an asset too many. -/
theorem length_groupBlocks_lt (isCollected : IsCollected tree collected)
    (flat : ∀ source ∈ collected.items, source.IsFlat)
    (declares : DeclaresGroup collected.items) :
    (groupBlocks collected.items).length < (buildRuleGroupAssets collected.items).length := by
  obtain ⟨source, member, noGroup, directive, listed, includes⟩ := declares
  rw [buildRuleGroupAssets_of_isFlat flat,
    length_mergeAll key_realize _ _ (pairwise_realized isCollected), groupBlocks,
    List.length_flatMap, List.length_flatMap, List.countP_flatMap, ← List.sum_map_add]
  apply List.sum_lt_sum
  · exact fun item itemMem => length_blocks_le isCollected itemMem (flat item itemMem)
  · have fewer := length_blocks_lt noGroup listed includes
    exact ⟨source, member, Nat.lt_add_right _ fewer⟩

end Collected

/-! ### The assets of a configuration -/

/-- Of all configurations with balanced blocks that are not nested, those show one asset for
each block that include no file under a group and keep blocks with one name apart. -/
theorem hasAssetForEachBlock_iff (tree : ConfigTree) (fuel : Nat) (configFile : Text)
    {sources : List ConfigSource}
    (collects : collectConfigSources tree fuel configFile = some sources)
    (flat : ∀ source ∈ sources, source.IsFlat) :
    HasAssetForEachBlock sources ↔ HasSeparateBlocks sources := by
  obtain ⟨collected, isCollected, rfl⟩ := isCollected_collectConfigSources collects
  by_cases declares : DeclaresGroup collected.items
  · have more := length_groupBlocks_lt isCollected flat declares
    constructor
    · intro shown
      have same := shown.length_eq
      rw [List.length_map, List.length_map] at same
      omega
    · intro separate
      obtain ⟨source, member, -, directive, listed, includes⟩ := declares
      exact absurd includes (separate.no_include source member directive listed)
  · have noGroup : ∀ source ∈ collected.items, source.implicitGroup = none := by
      intro source member
      by_contra group
      exact declares (isCollected.declared source member group)
    have noInclude : ∀ source ∈ collected.items, ∀ directive ∈ directives source.text,
        ¬ IncludesGroup directive := by
      intro source member directive listed includes
      exact declares ⟨source, member, noGroup source member, directive, listed, includes⟩
    rw [hasAssetForEachBlock_iff_of_no_include flat noGroup noInclude]
    exact ⟨fun apart => ⟨noInclude, apart⟩, fun separate => separate.keepsApart⟩

/-- Only the names and files of the blocks themselves matter. -/
theorem keepsApart_of_forall_mem {blocks : List GroupBlock}
    (apart : ∀ own ∈ blocks,
      KeepsApart (blocks.filter fun block => block.name = own.name ∧ block.source = own.source))
    (name path : Text) :
    KeepsApart (blocks.filter fun block => block.name = name ∧ block.source = path) := by
  by_cases empty : blocks.filter (fun block => block.name = name ∧ block.source = path) = []
  · rw [empty]
    exact keepsApart_of_length_le_one (Nat.zero_le _)
  · obtain ⟨own, among⟩ := List.exists_mem_of_ne_nil _ empty
    obtain ⟨listed, same⟩ := List.mem_filter.mp among
    obtain ⟨rfl, rfl⟩ := of_decide_eq_true same
    exact apart own listed

/-- Two blocks of a file, and two with one name of a file that it includes, the first of them
without a rule. -/
def familyText : Text :=
  "group-begin kids\nclient-rules 10.0.0.1\ngroup-end\ngroup-begin guests\ngroup-end\nconf-file b"

def includedText : Text := "group-begin kids\ngroup-end\ngroup-begin kids\naddress /a/#\ngroup-end"

def familySources : List ConfigSource := [⟨"a", familyText, none⟩, ⟨"b", includedText, none⟩]

def familyTree : ConfigTree where
  canonicalize := some
  pathExists := fun path => path = "a" ∨ path = "b"
  readToString := fun path =>
    if path = "a" then .ok familyText
    else if path = "b" then .ok includedText
    else .error .notFound

theorem directives_familyText : directives familyText = [⟨"group-begin", "kids"⟩,
    ⟨"client-rules", "10.0.0.1"⟩, ⟨"group-end", []⟩, ⟨"group-begin", "guests"⟩,
    ⟨"group-end", []⟩, ⟨"conf-file", "b"⟩] := by
  decide

theorem directives_includedText : directives includedText = [⟨"group-begin", "kids"⟩,
    ⟨"group-end", []⟩, ⟨"group-begin", "kids"⟩, ⟨"address", "/a/#"⟩, ⟨"group-end", []⟩] := by
  decide

theorem groupBlocks_familySources : groupBlocks familySources = [
    ⟨"kids", [], "a", [⟨"client-rules", "10.0.0.1"⟩]⟩, ⟨"guests", [], "a", []⟩,
    ⟨"kids", [], "b", []⟩, ⟨"kids", [], "b", [⟨"address", "/a/#"⟩]⟩] := by
  decide

theorem hasAssetForEachBlock_iff_example : HasAssetForEachBlock familySources := by
  have collects : collectConfigSources familyTree 2 "a" = some familySources := by
    decide
  refine (hasAssetForEachBlock_iff _ 2 "a" collects ?_).mpr
    ⟨?_, keepsApart_of_forall_mem ?_⟩
  · rw [familySources, List.forall_mem_cons, List.forall_mem_singleton]
    constructor
    · change Alternates false (directives familyText)
      rw [directives_familyText]
      exact ⟨rfl, rfl, rfl, rfl, rfl⟩
    · change Alternates false (directives includedText)
      rw [directives_includedText]
      exact ⟨rfl, rfl, rfl, rfl, rfl⟩
  · rw [familySources, List.forall_mem_cons, List.forall_mem_singleton, directives_familyText,
      directives_includedText]
    decide
  · rw [groupBlocks_familySources]
    decide

/-- A file included under a group is shown twice: as the line that includes it, and as the
block it is. -/
theorem not_hasAssetForEachBlock :
    ¬ ∀ (tree : ConfigTree) (fuel : Nat) (configFile : Text) (sources : List ConfigSource),
      collectConfigSources tree fuel configFile = some sources →
      (∀ source ∈ sources, source.IsFlat) →
      ((buildRuleGroupAssets sources).map fun asset =>
        (asset.name, asset.inherit, asset.matchers, asset.ruleCount)).Perm
        ((groupBlocks sources).map fun block =>
          (block.name, block.inherit, matchersOf block.body, ruleCountOf block.body)) := by
  intro shown
  let main : ConfigSource := ⟨"main.conf", "conf-file kids.conf -group kids", none⟩
  let kids : ConfigSource := ⟨"kids.conf", "address /a/10.0.0.1", some "kids"⟩
  let tree : ConfigTree :=
    { canonicalize := some
      pathExists := fun _ => true
      readToString := fun path => .ok (if path = main.path then main.text else kids.text) }
  have collects : collectConfigSources tree 2 main.path = some [main, kids] := by decide
  have flat : ∀ source ∈ [main, kids], source.IsFlat := by
    rw [List.forall_mem_cons, List.forall_mem_singleton]
    have inner : ∀ directive ∈ directives kids.text, directive = ⟨"address", "/a/10.0.0.1"⟩ := by
      decide
    exact ⟨rfl, fun directive member => inner directive member ▸ ⟨by decide, by decide⟩⟩
  have same := (shown tree 2 main.path [main, kids] collects flat).length_eq
  exact absurd same (by decide)

end SmartDnsPlusUi
