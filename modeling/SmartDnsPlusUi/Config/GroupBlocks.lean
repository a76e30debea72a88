import SmartDnsPlusUi.Config.GroupScope
import SmartDnsPlusUi.Config.Sources

/-!
# Group blocks

A block stands in a file between a `group-begin` and its `group-end`, or is a whole file
that is included under a group.  Where blocks are balanced and not nested, the first pass
over the sources lists the begun blocks and the second one reads what is in all blocks.
-/

namespace SmartDnsPlusUi

open Text

structure GroupBlock where
  name : Text
  inherit : Text
  source : Text
  body : List Directive
  deriving DecidableEq

/-- The arguments of the `group-match` directives. -/
def matchersOf (body : List Directive) : List Text :=
  (body.filter fun directive => assetKeyword directive.key = .groupMatch).map (·.value)

/-- The number of the other directives. -/
def ruleCountOf (body : List Directive) : Nat :=
  body.countP fun directive => assetKeyword directive.key ≠ .groupMatch

/-- The asset that shows the block. -/
def GroupBlock.asset (includeFile : Text) (block : GroupBlock) : RuleGroupAsset where
  name := block.name
  inherit := block.inherit
  source := block.source
  includeFile
  matchers := matchersOf block.body
  ruleCount := ruleCountOf block.body

/-- The asset that the first pass lists for a begun block. -/
def GroupBlock.declared (block : GroupBlock) : RuleGroupAsset where
  name := block.name
  inherit := block.inherit
  source := block.source
  includeFile := []

/-- One block for each `group-begin`, up to the next `group-end`. -/
def begunBlocks (path : Text) : List Directive → List GroupBlock
  | [] => []
  | directive :: rest =>
      if assetKeyword directive.key = .groupBegin then
        { name := (beginGroup directive.value).name
          inherit := (beginGroup directive.value).inherit
          source := path
          body := rest.takeWhile fun later => assetKeyword later.key ≠ .groupEnd } ::
        begunBlocks path rest
      else begunBlocks path rest

def ConfigSource.blocks (source : ConfigSource) : List GroupBlock :=
  match source.implicitGroup with
  | some groupName => [⟨groupName, [], source.path, directives source.text⟩]
  | none => begunBlocks source.path (directives source.text)

def groupBlocks (sources : List ConfigSource) : List GroupBlock :=
  sources.flatMap ConfigSource.blocks

/-- Begins and ends alternate, and the last begin has its end. -/
def Alternates (isOpen : Bool) : List Directive → Prop
  | [] => isOpen = false
  | directive :: rest =>
      match assetKeyword directive.key with
      | .groupBegin => isOpen = false ∧ Alternates true rest
      | .groupEnd => isOpen = true ∧ Alternates false rest
      | _ => Alternates isOpen rest

/-- The directive neither begins nor ends a block. -/
def IsInner (directive : Directive) : Prop :=
  assetKeyword directive.key ≠ .groupBegin ∧ assetKeyword directive.key ≠ .groupEnd

/-- Blocks are balanced and not nested; a file that is a block has none inside. -/
def ConfigSource.IsFlat (source : ConfigSource) : Prop :=
  match source.implicitGroup with
  | some _ => ∀ directive ∈ directives source.text, IsInner directive
  | none => Alternates false (directives source.text)

/-! ### The second pass -/

/-- A pending group after the directives of a body. -/
def RuleGroupAsset.absorb (asset : RuleGroupAsset) (body : List Directive) : RuleGroupAsset :=
  { asset with
    matchers := asset.matchers ++ matchersOf body
    ruleCount := asset.ruleCount + ruleCountOf body }

theorem RuleGroupAsset.absorb_nil (asset : RuleGroupAsset) : asset.absorb [] = asset := by
  simp [absorb, matchersOf, ruleCountOf]

theorem scanGroup_inner (source : ConfigSource) (group : RuleGroupAsset)
    (stack realized : List RuleGroupAsset) {directive : Directive} (inner : IsInner directive) :
    scanGroup source ⟨group :: stack, realized⟩ directive =
      ⟨group.absorb [directive] :: stack, realized⟩ := by
  unfold scanGroup
  cases keyword : assetKeyword directive.key with
  | groupBegin => exact absurd keyword inner.1
  | groupEnd => exact absurd keyword inner.2
  | _ => simp [GroupScan.updateTop, RuleGroupAsset.absorb, matchersOf, ruleCountOf, keyword]

theorem RuleGroupAsset.absorb_absorb (asset : RuleGroupAsset) (directive : Directive)
    (body : List Directive) : (asset.absorb [directive]).absorb body =
      asset.absorb (directive :: body) := by
  have joined : directive :: body = [directive] ++ body := rfl
  rw [joined]
  simp only [absorb, matchersOf, ruleCountOf, List.filter_append, List.map_append,
    List.countP_append, List.append_assoc, Nat.add_assoc]

theorem foldl_scanGroup_inner (source : ConfigSource) (stack realized : List RuleGroupAsset)
    {body : List Directive} (inner : ∀ directive ∈ body, IsInner directive)
    (group : RuleGroupAsset) :
    body.foldl (scanGroup source) ⟨group :: stack, realized⟩ =
      ⟨group.absorb body :: stack, realized⟩ := by
  induction body generalizing group with
  | nil => rw [RuleGroupAsset.absorb_nil, List.foldl_nil]
  | cons directive body inductionHypothesis =>
      rw [List.forall_mem_cons] at inner
      rw [List.foldl_cons, scanGroup_inner source group stack realized inner.1,
        inductionHypothesis inner.2, RuleGroupAsset.absorb_absorb]

theorem alternates_cons_begin {isOpen : Bool} {directive : Directive} {rest : List Directive}
    (begins : assetKeyword directive.key = .groupBegin) :
    Alternates isOpen (directive :: rest) ↔ isOpen = false ∧ Alternates true rest := by
  rw [Alternates, begins]

theorem alternates_cons_end {isOpen : Bool} {directive : Directive} {rest : List Directive}
    (ends : assetKeyword directive.key = .groupEnd) :
    Alternates isOpen (directive :: rest) ↔ isOpen = true ∧ Alternates false rest := by
  rw [Alternates, ends]

theorem alternates_cons_inner {isOpen : Bool} {directive : Directive} {rest : List Directive}
    (inner : IsInner directive) :
    Alternates isOpen (directive :: rest) ↔ Alternates isOpen rest := by
  rw [Alternates]
  split
  · rename_i begins
    exact absurd begins inner.1
  · rename_i ends
    exact absurd ends inner.2
  · rfl

/-- Where blocks alternate, the second pass closes the block that is open, if any, and then
all those begun. -/
theorem foldl_scanGroup_alternates (source : ConfigSource) (ds : List Directive)
    (realized : List RuleGroupAsset) :
    (Alternates false ds →
      ds.foldl (scanGroup source) ⟨[], realized⟩ =
        ⟨[], realized ++ (begunBlocks source.path ds).map (·.asset [])⟩) ∧
    ∀ group, Alternates true ds →
      ds.foldl (scanGroup source) ⟨[group], realized⟩ =
        ⟨[], realized ++
          group.absorb (ds.takeWhile fun later => assetKeyword later.key ≠ .groupEnd) ::
            (begunBlocks source.path ds).map (·.asset [])⟩ := by
  induction ds generalizing realized with
  | nil =>
      refine ⟨fun _ => by simp [begunBlocks], fun _ alternates => ?_⟩
      exact Bool.noConfusion alternates
  | cons directive ds inductionHypothesis =>
      rw [begunBlocks, List.foldl_cons]
      by_cases begins : assetKeyword directive.key = .groupBegin
      · rw [alternates_cons_begin begins, alternates_cons_begin begins, if_pos begins]
        refine ⟨fun alternates => ?_, fun _ alternates => absurd alternates.1 (by decide)⟩
        have stepped : scanGroup source ⟨[], realized⟩ directive =
            ⟨[begunGroup source.path directive.value], realized⟩ := by
          rw [scanGroup, begins]
        rw [stepped, (inductionHypothesis realized).2 _ alternates.2, List.map_cons]
        simp [GroupBlock.asset, RuleGroupAsset.absorb, begunGroup]
      rw [if_neg begins]
      by_cases ends : assetKeyword directive.key = .groupEnd
      · rw [alternates_cons_end ends, alternates_cons_end ends]
        refine ⟨fun alternates => absurd alternates.1 (by decide), fun group alternates => ?_⟩
        have stepped : scanGroup source ⟨[group], realized⟩ directive =
            ⟨[], realized ++ [group]⟩ := by
          rw [scanGroup, ends]
          rfl
        rw [List.foldl_cons, stepped, (inductionHypothesis _).1 alternates.2,
          List.takeWhile_cons_of_neg (by simpa using ends), RuleGroupAsset.absorb_nil,
          List.append_assoc, List.singleton_append]
      · have inner : IsInner directive := ⟨begins, ends⟩
        rw [alternates_cons_inner inner, alternates_cons_inner inner]
        refine ⟨fun alternates => ?_, fun group alternates => ?_⟩
        · have stepped : scanGroup source ⟨[], realized⟩ directive = ⟨[], realized⟩ := by
            unfold scanGroup
            split <;> first | rfl | contradiction
          rw [stepped, (inductionHypothesis realized).1 alternates]
        · rw [List.foldl_cons, scanGroup_inner source group [] realized inner,
            (inductionHypothesis realized).2 _ alternates, RuleGroupAsset.absorb_absorb,
            List.takeWhile_cons_of_pos (by simpa using ends)]

/-- The assets of the blocks as the second pass realizes them. -/
def ConfigSource.realized (source : ConfigSource) : List RuleGroupAsset :=
  source.blocks.map (·.asset (if source.implicitGroup.isSome then source.path else []))

theorem scanSource_of_isFlat {source : ConfigSource} (flat : source.IsFlat)
    (realized : List RuleGroupAsset) :
    scanSource ⟨[], realized⟩ source = ⟨[], realized ++ source.realized⟩ := by
  rw [ConfigSource.IsFlat] at flat
  rw [scanSource, ConfigSource.realized, ConfigSource.blocks]
  cases group : source.implicitGroup with
  | none =>
      rw [group] at flat
      exact (foldl_scanGroup_alternates source _ realized).1 flat
  | some groupName =>
      rw [group] at flat
      dsimp only
      rw [foldl_scanGroup_inner source [] realized flat]
      simp [GroupScan.pop, implicitGroup, RuleGroupAsset.absorb, GroupBlock.asset]

theorem foldl_scanSource_of_isFlat {sources : List ConfigSource}
    (flat : ∀ source ∈ sources, source.IsFlat) (realized : List RuleGroupAsset) :
    sources.foldl scanSource ⟨[], realized⟩ =
      ⟨[], realized ++ sources.flatMap ConfigSource.realized⟩ := by
  induction sources generalizing realized with
  | nil => simp
  | cons source sources inductionHypothesis =>
      rw [List.forall_mem_cons] at flat
      rw [List.foldl_cons, scanSource_of_isFlat flat.1, inductionHypothesis flat.2,
        List.flatMap_cons, List.append_assoc]

/-! ### The first pass -/

/-- The assets that the first pass lists for a source. -/
def ConfigSource.declared (source : ConfigSource) : List RuleGroupAsset :=
  (directives source.text).flatMap (ruleGroupAsset source)

theorem assetKeyword_eq_groupBegin_iff {key : String} :
    assetKeyword key = .groupBegin ↔ key = "group-begin" := by
  refine ⟨fun begins => ?_, fun same => same ▸ rfl⟩
  unfold assetKeyword at begins
  split at begins <;> first | rfl | cases begins

theorem ruleGroupAsset_of_begin (source : ConfigSource) {directive : Directive}
    (begins : assetKeyword directive.key = .groupBegin) :
    ruleGroupAsset source directive = [begunGroup source.path directive.value] := by
  unfold ruleGroupAsset
  rw [assetKeyword_eq_groupBegin_iff.mp begins]
  rfl

/-- A directive that begins no block lists one asset if it includes a file under a group. -/
theorem length_ruleGroupAsset (source : ConfigSource) {directive : Directive}
    (noBegin : assetKeyword directive.key ≠ .groupBegin) :
    (ruleGroupAsset source directive).length = if IncludesGroup directive then 1 else 0 := by
  unfold ruleGroupAsset
  dsimp only
  split
  · rename_i begins
    exact absurd (assetKeyword_eq_groupBegin_iff.mpr begins) noBegin
  · rename_i isInclude
    cases group : parseNamedOption directive.value "-group" with
    | none =>
        have excludes : ¬ IncludesGroup directive := fun includes => by
          rw [IncludesGroup, group] at includes
          exact Bool.false_ne_true includes.2
        rw [if_neg excludes]
        rfl
    | some groupName =>
        have includes : IncludesGroup directive := ⟨isInclude, by rw [group]; rfl⟩
        rw [if_pos includes]
        rfl
  · rename_i other
    rw [if_neg fun includes => other includes.1]
    rfl

theorem declared_begunBlocks_sublist (source : ConfigSource) (ds : List Directive) :
    ((begunBlocks source.path ds).map GroupBlock.declared).Sublist
      (ds.flatMap (ruleGroupAsset source)) := by
  induction ds with
  | nil => exact List.Sublist.refl _
  | cons directive ds inductionHypothesis =>
      rw [begunBlocks, List.flatMap_cons]
      by_cases begins : assetKeyword directive.key = .groupBegin
      · rw [if_pos begins, ruleGroupAsset_of_begin source begins]
        exact inductionHypothesis.cons_cons _
      · rw [if_neg begins]
        exact inductionHypothesis.trans (List.sublist_append_right _ _)

theorem length_flatMap_ruleGroupAsset (source : ConfigSource) (ds : List Directive) :
    (ds.flatMap (ruleGroupAsset source)).length =
      (begunBlocks source.path ds).length + ds.countP (IncludesGroup ·) := by
  induction ds with
  | nil => rfl
  | cons directive ds inductionHypothesis =>
      rw [begunBlocks, List.flatMap_cons, List.length_append, inductionHypothesis,
        List.countP_cons]
      by_cases begins : assetKeyword directive.key = .groupBegin
      · have noInclude : ¬ IncludesGroup directive := fun includes => by
          rw [includes.1] at begins
          exact absurd begins (by decide)
        rw [if_pos begins, ruleGroupAsset_of_begin source begins]
        simp [noInclude]
        omega
      · rw [if_neg begins, length_ruleGroupAsset source begins]
        simp
        omega

/-- Without a file included under a group, the first pass lists the begun blocks. -/
theorem flatMap_ruleGroupAsset_eq (source : ConfigSource) {ds : List Directive}
    (noInclude : ∀ directive ∈ ds, ¬ IncludesGroup directive) :
    ds.flatMap (ruleGroupAsset source) =
      (begunBlocks source.path ds).map GroupBlock.declared := by
  have none : ds.countP (IncludesGroup ·) = 0 := by
    rw [List.countP_eq_zero]
    intro directive member
    simpa using noInclude directive member
  refine ((declared_begunBlocks_sublist source ds).eq_of_length ?_).symm
  rw [length_flatMap_ruleGroupAsset, none, List.length_map, Nat.add_zero]

end SmartDnsPlusUi
