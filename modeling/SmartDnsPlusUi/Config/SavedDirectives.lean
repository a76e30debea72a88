import SmartDnsPlusUi.Config.GroupLoss
import SmartDnsPlusUi.Config.SaveFiles
import SmartDnsPlusUi.Config.SettingsReread

/-!
# The directives of the saved pages

Of a save the loader reads the rows of the settings, the upstream servers and
the rules.  The rules have keywords of their own, so they leave the settings
alone and count only as extras that no page has a place for.
-/

namespace SmartDnsPlusUi

open Text

/-- The texts of the managed files after a save. -/
def savedPageTexts (request : SaveConfigRequest) : ManagedPageTexts :=
  let assets := parseManagedAssetsFromText (normalizeRulesText request.rulesText)
  { service := renderServiceConfig request.beginner
    upstreams := renderUpstreamsConfig request.beginner
    performance := renderPerformanceConfig request.beginner
    routing := renderRoutingItemsText assets
    rules := renderRuleEntriesText assets
    sets := renderSetsText assets
    logging := renderLoggingConfig request.beginner
    network := renderNetworkConfig request.beginner }

/-- The directives of the managed files after a save, in the order of the preview. -/
def savedDirectives (request : SaveConfigRequest) : List Directive :=
  (previewTexts (savedPageTexts request)).flatMap directives

/-- The directives of the three pages of rules after a save. -/
def savedRules (rulesText : Text) : List Directive :=
  directives (reloadedRulesText (parseManagedAssetsFromText (normalizeRulesText rulesText)))

/-! ### The rows of the pages -/

theorem ListsSettings.directives_eq {config : BeginnerConfig} {rows : List SettingRow} {page : Text}
    (lists : ListsSettings config rows page) (fits : RowsFit config)
    (listed : rows ⊆ settingRows) : directives page = rows.flatMap (·.directives config) := by
  obtain ⟨ls, rfl, content⟩ := lists
  rw [withoutBanners_rows config listed] at content
  have settings : ∀ line ∈ withoutBanners ls, IsSetting line :=
    content ▸ isSetting_of_mem_rows fits listed
  rw [directives_eq_map, logicalLines_unlines settings, content, map_splitDirective_rows fits listed]

theorem directives_reloadedRulesText (assets : ManagedAssets) :
    directives (reloadedRulesText assets) = directives (renderRoutingItemsText assets) ++
      (directives (renderRuleEntriesText assets) ++ directives (renderSetsText assets)) := by
  simp only [directives_eq_map, logicalLines_reloadedRulesText, List.map_append]

theorem savedDirectives_eq {request : SaveConfigRequest} (fits : RowsFit request.beginner) :
    savedDirectives request = serviceRows.flatMap (·.directives request.beginner) ++
      directives (renderUpstreamsConfig request.beginner) ++
      performanceRows.flatMap (·.directives request.beginner) ++ savedRules request.rulesText ++
      (loggingRows ++ networkRows).flatMap (·.directives request.beginner) := by
  have last := List.append_subset.mp lastRows_subset
  have service := (listsSettings_service request.beginner).directives_eq fits serviceRows_subset
  have performance := (listsSettings_performance request.beginner).directives_eq fits performanceRows_subset
  have logging := (listsSettings_logging request.beginner).directives_eq fits last.1
  have network := (listsSettings_network request.beginner).directives_eq fits last.2
  simp only [savedDirectives, savedRules, savedPageTexts, previewTexts, List.flatMap_cons,
    List.flatMap_nil, directives_reloadedRulesText, service, performance, logging, network,
    List.flatMap_append, List.append_assoc, List.append_nil]

/-! ### The rules -/

theorem assetKeyword_of_mem_settingRows : ∀ row ∈ settingRows,
    assetKeyword row.key = .other := by decide +kernel

theorem IsAssetKey.ne_other {key : String} (asset : IsAssetKey key) :
    assetKeyword key ≠ .other := by
  rcases asset with same | same | same | same <;> rw [same] <;> decide

theorem IsAssetKey.not_mem_rowKeys {key : String} (asset : IsAssetKey key) : key ∉ rowKeys := by
  intro membership
  obtain ⟨row, listed, rfl⟩ := List.mem_map.mp membership
  exact asset.ne_other (assetKeyword_of_mem_settingRows row listed)

theorem IsAssetKey.beginnerKeyword {key : String} (asset : IsAssetKey key) :
    beginnerKeyword key = .extra := by
  have known := asset.ne_other
  unfold SmartDnsPlusUi.beginnerKeyword
  split <;> first | rfl | exact absurd (by decide) known

theorem isAssetKey_of_mem_savedRules {rulesText : Text} :
    ∀ directive ∈ savedRules rulesText, IsAssetKey directive.key :=
  (isSingleLine_parse (normalizeRulesText rulesText)).isAssetKey_of_mem_directives

/-! ### Reading the pages -/

section

variable {request : SaveConfigRequest} (fits : RowsFit request.beginner)
  (servers : ∀ directive ∈ directives (renderUpstreamsConfig request.beginner),
    beginnerKeyword directive.key = .upstream)

include fits servers

/-- The pages of a save contain the rows, the upstream servers and the rules. -/
theorem listsRows_savedDirectives : ListsRows request.beginner (savedDirectives request) := by
  have last := lastRows_subset
  have server : ∀ directive ∈ directives (renderUpstreamsConfig request.beginner),
      directive.key ∉ rowKeys :=
    fun directive membership => not_mem_rowKeys_of_upstream (servers directive membership)
  have rule : ∀ directive ∈ savedRules request.rulesText, directive.key ∉ rowKeys :=
    fun directive membership =>
      (isAssetKey_of_mem_savedRules directive membership).not_mem_rowKeys
  rw [savedDirectives_eq fits]
  constructor
  · simp only [List.filter_append, filter_rowKeys_rows serviceRows_subset,
      filter_rowKeys_rows performanceRows_subset, filter_rowKeys_rows last, filter_rowKeys_of_not_mem server,
      filter_rowKeys_of_not_mem rule, List.append_nil]
    simp only [settingRows_eq, List.flatMap_append, List.append_assoc]
  · intro directive membership absent
    simp only [List.mem_append] at membership
    rcases membership with (((written | server) | written) | rule) | written
    · exact absurd (key_mem_rowKeys serviceRows_subset written) absent
    · exact .inl (servers directive server)
    · exact absurd (key_mem_rowKeys performanceRows_subset written) absent
    · exact .inr (isAssetKey_of_mem_savedRules directive rule).beginnerKeyword
    · exact absurd (key_mem_rowKeys last written) absent

/-- An extra without a place on the pages comes from the rules. -/
theorem lastExtra_savedDirectives (before after : List Directive) {key : String}
    (absent : key ∉ rowKeys) :
    lastExtra key (before ++ savedDirectives request ++ after) =
      lastExtra key (before ++ savedRules request.rulesText ++ after) := by
  have last := lastRows_subset
  have written : ∀ rows ⊆ settingRows,
      argumentsOf key (rows.flatMap (·.directives request.beginner)) = [] := by
    intro rows listed
    apply argumentsOf_eq_nil
    rintro directive membership rfl
    exact absent (key_mem_rowKeys listed membership)
  by_cases server : beginnerKeyword key = .upstream
  · have noExtra : beginnerKeyword key ≠ .extra := by simp [server]
    have noList : beginnerKeyword key ≠ .listExtra := by simp [server]
    rw [lastExtra_eq_none noExtra noList, lastExtra_eq_none noExtra noList]
  · have named : argumentsOf key (directives (renderUpstreamsConfig request.beginner)) = [] := by
      apply argumentsOf_eq_nil
      rintro directive membership rfl
      exact server (servers directive membership)
    apply lastExtra_congr
    rw [savedDirectives_eq fits]
    simp only [argumentsOf_append, written _ serviceRows_subset, written _ performanceRows_subset,
      written _ last, named, List.append_nil, List.nil_append]

omit servers in
/-- The upstream servers are those of their page. -/
theorem upstreams_savedDirectives :
    (savedDirectives request).flatMap upstreamsOf =
      (directives (renderUpstreamsConfig request.beginner)).flatMap upstreamsOf := by
  have last := lastRows_subset
  have none : ∀ {ds : List Directive},
      (∀ directive ∈ ds, beginnerKeyword directive.key ≠ .upstream) →
      ds.flatMap upstreamsOf = [] := by
    intro ds others
    rw [List.flatMap_eq_nil_iff]
    exact fun directive membership => if_neg (others directive membership)
  have written : ∀ rows ⊆ settingRows,
      (rows.flatMap (·.directives request.beginner)).flatMap upstreamsOf = [] := by
    intro rows listed
    apply none
    intro directive membership server
    exact not_mem_rowKeys_of_upstream server (key_mem_rowKeys listed membership)
  have rules : (savedRules request.rulesText).flatMap upstreamsOf = [] := by
    apply none
    intro directive membership
    rw [(isAssetKey_of_mem_savedRules directive membership).beginnerKeyword]
    decide
  rw [savedDirectives_eq fits]
  simp only [List.flatMap_append (f := upstreamsOf), written _ serviceRows_subset,
    written _ performanceRows_subset, written _ last, rules, List.append_nil, List.nil_append]

end

end SmartDnsPlusUi
