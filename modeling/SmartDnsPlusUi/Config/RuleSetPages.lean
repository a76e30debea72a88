import SmartDnsPlusUi.Config.RuleSetSave
import SmartDnsPlusUi.Table.OffsetPages

/-!
# Paging through a set

The detail of a set has one page of the items that a query selects.  A caller that goes on
behind the items of each page, as long as there is more, receives them all.
-/

namespace SmartDnsPlusUi

open Files Text Table

/-- The items that contain the query without regard to case. -/
def itemsContaining (platform : Platform) (query : Text) (items : List Text) : List Text :=
  items.filter fun item => contains (platform.toLowercase query) (platform.toLowercase item)

theorem filterRuleSetItems_eq (platform : Platform) (query : Option Text)
    (allItems : List Text) :
    filterRuleSetItems platform query allItems =
      itemsContaining platform (trim (query.getD [])) allItems := by
  unfold filterRuleSetItems itemsContaining
  dsimp only
  split_ifs with empty
  · rw [empty, List.filter_eq_self.mpr]
    exact fun item _ => (contains_iff_isInfix _ _).mpr List.nil_infix
  · rfl

/-- Saturation does not change which of two lengths is the greater. -/
theorem saturatingAdd_lt_iff {platform : Platform} {first second bound : Nat}
    (fits : bound ≤ platform.usizeMax) :
    platform.saturatingAdd first second < bound ↔ first + second < bound := by
  rw [Platform.saturatingAdd, min_lt_iff]
  omega

/-- The detail at an offset, for every offset. -/
theorem ruleSetDetail_page {platform : Platform} {tree : ConfigTree} {asset : RuleSetAsset}
    {allItems : List Text} (read : readRuleSetItems tree asset.file = .ok allItems)
    (fits : allItems.length ≤ platform.usizeMax) (query : Option Text) (offset limit : Nat) :
    ∃ detail, ruleSetDetail platform tree asset query offset limit = some detail ∧
      (detail.items, detail.hasMore) = offsetPage (max limit 1)
        (itemsContaining platform (trim (query.getD [])) allItems) offset := by
  unfold ruleSetDetail
  rw [read]
  refine ⟨_, rfl, ?_⟩
  dsimp only
  rw [filterRuleSetItems_eq]
  refine Prod.ext rfl (decide_eq_decide.mpr (saturatingAdd_lt_iff ?_))
  exact (List.length_filter_le _ _).trans fits

def SetKind.findSet : SetKind → ConfigTree → Nat → Text → Text → Option (Option RuleSetAsset)
  | .domainSet => findRuleSet
  | .ipSet => findIpSet

/-- What a caller keeps of a detail: its items, and whether there is more. -/
def pageAt (reader : Nat → Option (Option RuleSetFileDetail)) (offset : Nat) :
    Option (List Text × Bool) :=
  (reader offset).bind fun found => found.map fun detail => (detail.items, detail.hasMore)

section

variable {setKind : SetKind} {platform : Platform} {tree : ConfigTree} {fuel : Nat}
  {configFile name : Text} {asset : RuleSetAsset} {allItems : List Text}

theorem readDetail_of_find (found : setKind.findSet tree fuel configFile name = some (some asset))
    (query : Option Text) (offset limit : Nat) :
    setKind.readDetail platform tree fuel configFile name query offset limit =
      (ruleSetDetail platform tree asset query offset limit).map some := by
  cases setKind with
  | domainSet => exact congrArg (detailOf platform tree query offset limit) found
  | ipSet => exact congrArg (detailOf platform tree query offset limit) found

theorem pageAt_readDetail
    (found : setKind.findSet tree fuel configFile name = some (some asset))
    (read : readRuleSetItems tree asset.file = .ok allItems)
    (fits : allItems.length ≤ platform.usizeMax) (query : Option Text) (limit offset : Nat) :
    pageAt (fun offset =>
        setKind.readDetail platform tree fuel configFile name query offset limit) offset =
      some (offsetPage (max limit 1)
        (itemsContaining platform (trim (query.getD [])) allItems) offset) := by
  obtain ⟨detail, given, page⟩ := ruleSetDetail_page read fits query offset limit
  rw [pageAt, readDetail_of_find found, given]
  exact congrArg some page

theorem walkOffsets_readDetail
    (found : setKind.findSet tree fuel configFile name = some (some asset))
    (read : readRuleSetItems tree asset.file = .ok allItems)
    (fits : allItems.length ≤ platform.usizeMax) (query : Option Text) (limit : Nat)
    {calls : Nat} (enough : allItems.length < calls) :
    ∃ pages, walkOffsets (pageAt fun offset =>
        setKind.readDetail platform tree fuel configFile name query offset limit) calls 0 =
          some pages ∧
      pages.flatten = itemsContaining platform (trim (query.getD [])) allItems := by
  have fewer : (itemsContaining platform (trim (query.getD [])) allItems).length - 0 < calls :=
    Nat.lt_of_le_of_lt (Nat.sub_le _ _)
      (Nat.lt_of_le_of_lt (List.length_filter_le _ _) enough)
  obtain ⟨pages, walked, all⟩ := walkOffsets_offsetPage (Nat.le_max_right limit 1)
    (pageAt_readDetail found read fits query limit) calls fewer
  exact ⟨pages, walked, all⟩

/-- The walk through a set ends after no more calls than there are items, and one; its pages
are the items that contain the trimmed query.  At every offset there is more exactly when
selected items remain behind the page. -/
theorem setPages_exact
    (found : setKind.findSet tree fuel configFile name = some (some asset))
    (read : readRuleSetItems tree asset.file = .ok allItems)
    (fits : allItems.length ≤ platform.usizeMax) (query : Option Text) (limit : Nat) :
    (∀ calls, allItems.length < calls →
      ∃ pages, walkOffsets (pageAt fun offset =>
          setKind.readDetail platform tree fuel configFile name query offset limit) calls 0 =
            some pages ∧
        pages.flatten = itemsContaining platform (trim (query.getD [])) allItems) ∧
      ∀ offset, ∃ detail,
        setKind.readDetail platform tree fuel configFile name query offset limit =
          some (some detail) ∧
        platform.saturatingAdd offset detail.items.length ≤ platform.usizeMax ∧
        (detail.hasMore = true ↔
          (itemsContaining platform (trim (query.getD [])) allItems).drop
            (offset + detail.items.length) ≠ []) := by
  refine ⟨fun calls enough => walkOffsets_readDetail found read fits query limit enough, ?_⟩
  intro offset
  obtain ⟨detail, given, page⟩ := ruleSetDetail_page read fits query offset limit
  refine ⟨detail, ?_, Nat.min_le_right _ _, ?_⟩
  · rw [readDetail_of_find found, given]
    rfl
  · have items := congrArg Prod.fst page
    have more := congrArg Prod.snd page
    dsimp only at items more
    rw [more, items, Ne, List.drop_eq_nil_iff, not_le]
    exact decide_eq_true_iff

end

/-- The set of `directSetFiles`. -/
def directSet : RuleSetAsset where
  name := "direct"
  setType := "list"
  file := "/s"
  source := "/c"
  ruleCount := 2
  sampleItems := ["example.com", "example.org"]
  referencedBy := []

theorem findSet_directSet :
    SetKind.domainSet.findSet (treeAt (fun _ => some) directSetFiles) 2 "/c" "direct" =
      some (some directSet) := by decide

theorem readRuleSetItems_directSet :
    readRuleSetItems (treeAt (fun _ => some) directSetFiles) directSet.file =
      .ok ["example.com", "example.org"] := by decide

theorem setPages_exact_example :
    (∀ calls, 2 < calls →
      ∃ pages, walkOffsets (pageAt fun offset =>
          SetKind.domainSet.readDetail asciiPlatform (treeAt (fun _ => some) directSetFiles) 2
            "/c" "direct" (some "EXAMPLE".toList) offset 0) calls 0 = some pages ∧
        pages.flatten = ["example.com".toList, "example.org".toList]) ∧
      ∀ offset, ∃ detail,
        SetKind.domainSet.readDetail asciiPlatform (treeAt (fun _ => some) directSetFiles) 2
          "/c" "direct" (some "EXAMPLE".toList) offset 0 = some (some detail) ∧
        asciiPlatform.saturatingAdd offset detail.items.length ≤ asciiPlatform.usizeMax ∧
        (detail.hasMore = true ↔
          ["example.com".toList, "example.org".toList].drop
            (offset + detail.items.length) ≠ []) :=
  setPages_exact findSet_directSet readRuleSetItems_directSet (by decide)
    (some "EXAMPLE".toList) 0

/-- A query of blanks selects every item, as the query is trimmed first. -/
theorem not_setPages_exact :
    ¬ ∀ (setKind : SetKind) (platform : Platform) (tree : ConfigTree) (fuel : Nat)
        (configFile name : Text) (asset : RuleSetAsset) (allItems : List Text)
        (query : Option Text) (limit : Nat),
      setKind.findSet tree fuel configFile name = some (some asset) →
      readRuleSetItems tree asset.file = .ok allItems →
      allItems.length ≤ platform.usizeMax →
      ∃ enough pages, (∀ calls, enough ≤ calls →
          walkOffsets (pageAt fun offset =>
            setKind.readDetail platform tree fuel configFile name query offset limit) calls 0 =
              some pages) ∧
        pages.flatten = itemsContaining platform (query.getD []) allItems := by
  intro all
  obtain ⟨enough, pages, walked, received⟩ := all .domainSet asciiPlatform
    (treeAt (fun _ => some) directSetFiles) 2 "/c" "direct" directSet _ (some " ".toList) 200
    findSet_directSet readRuleSetItems_directSet (by decide)
  have few : ["example.com".toList, "example.org".toList].length < max enough 3 :=
    Nat.lt_of_lt_of_le (by decide) (Nat.le_max_right _ _)
  obtain ⟨found, same, items⟩ := @walkOffsets_readDetail _ asciiPlatform _ _ _ _ _ _
    findSet_directSet readRuleSetItems_directSet (by decide) (some " ".toList) 200 _ few
  rw [walked _ (Nat.le_max_left _ _)] at same
  obtain rfl := Option.some.inj same
  rw [received] at items
  exact absurd items (by decide)

end SmartDnsPlusUi
