import Mathlib.Data.List.Nodup
import SmartDnsPlusUi.Config.SettingsPages
import SmartDnsPlusUi.Config.SettingsScan

/-!
# The five pages, read again

A page is read as its rows, one after the other, when the values that were
written fit on lines.  Since no two rows share a keyword, what is read for one
of them is what was written for it.
-/

namespace SmartDnsPlusUi

open Text

/-! ### Texts that fit on a line -/

/-- A trimmed text on one line that does not continue it. -/
def IsSetting (value : Text) : Prop :=
  Trimmed value ∧ '\n' ∉ value ∧ endsWith '\\' value = false

instance (value : Text) : Decidable (IsSetting value) := inferInstanceAs (Decidable (_ ∧ _ ∧ _))

theorem IsSetting.append {first last : Text} (start : IsSetting first) (finish : IsSetting last)
    (nonempty : first ≠ []) (nonempty' : last ≠ []) : IsSetting (first ++ ' ' :: last) := by
  have joined : first ++ ' ' :: last = first ++ [' '] ++ last := by simp
  rw [joined]
  refine ⟨start.1.append finish.1 [' '] nonempty nonempty', ?_, ?_⟩
  · simp [start.2.1, finish.2.1]
  · have ends := finish.2.2
    rw [endsWith] at ends ⊢
    rw [List.getLast?_append_of_ne_nil _ nonempty']
    exact ends

theorem isSetting_join {parts : List Text} (settings : ∀ part ∈ parts, IsSetting part ∧ part ≠ []) :
    IsSetting (join [' '] parts) ∧ (join [' '] parts = [] ↔ parts = []) := by
  induction parts with
  | nil => exact ⟨by decide, by simp [join]⟩
  | cons part rest inductionHypothesis =>
      rw [List.forall_mem_cons] at settings
      obtain ⟨setting, same⟩ := inductionHypothesis settings.2
      by_cases empty : rest = []
      · rw [empty]
        simpa [join] using settings.1
      · have nonempty : join [' '] rest ≠ [] := mt same.mp empty
        rw [join_space_cons _ empty]
        exact ⟨settings.1.1.append setting settings.1.2 nonempty, by simp⟩

theorem isSetting_keyed {key : String} (keyword : IsToken key.toList)
    (noBackslash : '\\' ∉ key.toList) {value : Text} (setting : IsSetting value)
    (nonempty : value ≠ []) : IsSetting (keyed key value) := by
  apply IsSetting.append _ setting keyword.1 nonempty
  exact ⟨keyword.trimmed, keyword.2.no_newline, endsWith_of_not_mem noBackslash⟩

/-- Lines that fit are logical lines. -/
theorem logicalLines_unlines {ls : List Text}
    (settings : ∀ line ∈ withoutBanners ls, IsSetting line) :
    logicalLines (unlines ls) = withoutBanners ls := by
  have free := not_mem_of_withoutBanners fun line membership => (settings line membership).2.1
  have logical : ∀ line ∈ withoutBanners ls, IsLogical line := by
    intro line membership
    have noBanner : ¬ IsBanner line := by
      simpa [withoutBanners] using (List.mem_filter.mp membership).2
    have visible : ¬ (line = [] ∨ line.head? = some '#') := fun skipped =>
      noBanner ⟨skipped, (settings line membership).2.1⟩
    exact ⟨(settings line membership).1, (not_or.mp visible).1, (not_or.mp visible).2⟩
  have content : contentOf (unlines ls) = withoutBanners ls := by
    rw [contentOf_unlines free, ← contentLines_withoutBanners, contentLines_of_isLogical logical]
  rw [logicalLines_eq_contentOf, content]
  rw [content]
  exact fun line membership => (settings line membership).2.2

/-! ### The page of the upstream servers -/

/-- The parts of the server's line fit on a line. -/
def FitsLine (upstream : UpstreamConfig) : Prop :=
  ∀ argument ∈ upstreamArguments upstream, IsSetting argument

theorem FitsLine.value {upstream : UpstreamConfig} (fitting : FitsLine upstream) :
    IsSetting upstream.value := by
  apply fitting
  simp only [upstreamArguments, List.mem_append, List.mem_singleton, true_or]

theorem FitsLine.group {upstream : UpstreamConfig} (fitting : FitsLine upstream) {name : Text}
    (membership : name ∈ upstream.groups) : IsSetting name := by
  apply fitting
  simp only [upstreamArguments, List.mem_append, membership, or_true, true_or]

theorem isSetting_optionPart {name argument : Text} (named : IsSetting name) (nonempty : name ≠ [])
    (setting : IsSetting argument) :
    ∀ part ∈ optionPart name argument, IsSetting part ∧ part ≠ [] := by
  intro part membership
  rw [optionPart, trim_eq_self setting.1] at membership
  split at membership
  · cases membership
  · rename_i nonempty'
    rw [List.mem_singleton.mp membership]
    exact ⟨named.append setting nonempty nonempty', by simp⟩

theorem isSetting_flag {name : Text} (named : IsSetting name) (nonempty : name ≠ []) (set : Bool) :
    ∀ part ∈ (if set then [name] else []), IsSetting part ∧ part ≠ [] := by
  cases set <;> simp [named, nonempty]

theorem isSetting_renderUpstreamOptions {upstream : UpstreamConfig}
    (fitting : FitsLine upstream) : IsSetting (renderUpstreamOptions upstream) := by
  have argument : ∀ argument ∈ upstreamArguments upstream, IsSetting argument := fitting
  simp only [upstreamArguments, List.mem_append, or_imp, forall_and, List.mem_singleton,
    forall_eq] at argument
  obtain ⟨⟨⟨⟨⟨⟨⟨⟨-, groups⟩, -⟩, proxyName⟩, bootstrapDns⟩, hostIp⟩, subnet⟩, -⟩, options⟩ :=
    argument
  apply (isSetting_join _).1
  intro part membership
  simp only [List.mem_append] at membership
  rcases membership with ((((((group | exclude) | proxy) | bootstrap) | host) | net) | fallback) |
    passed
  · obtain ⟨name, nameMem, partMem⟩ := List.mem_flatMap.mp group
    exact isSetting_optionPart (by decide) (by decide) (groups name nameMem) part partMem
  · exact isSetting_flag (by decide) (by decide) _ part exclude
  · exact isSetting_optionPart (by decide) (by decide) proxyName part proxy
  · exact isSetting_optionPart (by decide) (by decide) bootstrapDns part bootstrap
  · exact isSetting_optionPart (by decide) (by decide) hostIp part host
  · exact isSetting_optionPart (by decide) (by decide) subnet part net
  · exact isSetting_flag (by decide) (by decide) _ part fallback
  · rw [trim_eq_self options.1] at passed
    split at passed
    · cases passed
    · rename_i nonempty
      rw [List.mem_singleton.mp passed]
      exact ⟨options, nonempty⟩

theorem isSetting_upstreamLine {upstream : UpstreamConfig} (fitting : FitsLine upstream)
    (nonempty : trim upstream.value ≠ []) : IsSetting (upstreamLine upstream) := by
  have value := fitting.value
  have options := isSetting_renderUpstreamOptions fitting
  have key := written_keyword _ (upstreamKey_mem upstream.kind)
  rw [trim_eq_self value.1] at nonempty
  rw [upstreamLine, trim_eq_self value.1, trim_eq_self options.1]
  split
  · exact isSetting_keyed key.1.token key.2.1 value nonempty
  · rename_i some
    apply isSetting_keyed key.1.token key.2.1
    · exact value.append options nonempty some
    · simp

def writtenUpstreams (config : BeginnerConfig) : List UpstreamConfig :=
  if config.upstreams = [] then defaultUpstreams else config.upstreams

theorem fitsLine_writtenUpstreams {config : BeginnerConfig}
    (fitting : ∀ upstream ∈ config.upstreams, FitsLine upstream) :
    ∀ upstream ∈ writtenUpstreams config, FitsLine upstream := by
  unfold writtenUpstreams
  split
  · unfold FitsLine
    decide
  · exact fitting

/-- Every line of the page is a banner or the line of a server. -/
theorem exists_lines_renderUpstreamsConfig {config : BeginnerConfig}
    (fitting : ∀ upstream ∈ config.upstreams, FitsLine upstream) :
    ∃ ls, renderUpstreamsConfig config = unlines ls ∧
      ∀ line ∈ withoutBanners ls, ∃ upstream ∈ writtenUpstreams config,
        trim upstream.value ≠ [] ∧ upstreamLine upstream = line := by
  have written := fitsLine_writtenUpstreams fitting
  have fromServer : ∀ upstreams : List UpstreamConfig,
      (∀ upstream ∈ upstreams, upstream ∈ (writtenUpstreams config).filter (trim ·.value ≠ [])) →
      ∀ line ∈ upstreams.map upstreamLine, ∃ upstream ∈ writtenUpstreams config,
        trim upstream.value ≠ [] ∧ upstreamLine upstream = line := by
    intro upstreams listed line membership
    obtain ⟨upstream, upstreamMem, rfl⟩ := List.mem_map.mp membership
    have kept := List.mem_filter.mp (listed upstream upstreamMem)
    exact ⟨upstream, kept.1, by simpa using kept.2, rfl⟩
  refine ⟨_, join_append_nil _, ?_⟩
  intro line membership
  obtain ⟨listed, visible⟩ := List.mem_filter.mp membership
  have noBanner : ¬ IsBanner line := by simpa using visible
  have skips : ∀ banner : Text, IsBanner banner → line ∉ pushLine banner := by
    intro banner isBanner present
    exact noBanner (List.mem_singleton.mp present ▸ isBanner)
  have gap := skips [] (by decide)
  simp only [List.mem_append, List.mem_flatMap, List.mem_ite_nil_right] at listed
  rcases listed with ((((top | title) | bottom) | blank) | ⟨group, groupMem, inGroup⟩) | inLast
  · exact absurd top (skips _ isBanner_ruler)
  · exact absurd title (skips _ (by decide))
  · exact absurd bottom (skips _ isBanner_ruler)
  · exact absurd blank gap
  · rcases inGroup with (title | server) | blank
    · obtain ⟨upstream, upstreamMem, named⟩ := exists_key_of_mem_groupByKey groupMem
      have fitting := written upstream (List.mem_of_mem_filter upstreamMem)
      have name := fitting.group (List.mem_of_mem_head? named)
      have free : IsBanner (groupTitle group.1) :=
        isBanner_append (by decide) (by decide) (by decide) name.2.1
      exact absurd title (skips _ free)
    · exact fromServer group.2 (mem_of_mem_groupByKey groupMem) line server
    · exact absurd blank gap
  · rcases inLast with ⟨-, (title | server) | blank⟩
    · exact absurd title (skips _ (by decide))
    · exact fromServer _ (fun _ => List.mem_of_mem_filter) line server
    · exact absurd blank gap

/-! ### The directives of the pages -/

/-- The five pages, one after the other. -/
def renderedSettings (config : BeginnerConfig) : Text :=
  renderServiceConfig config ++ renderUpstreamsConfig config ++ renderPerformanceConfig config ++
    renderLoggingConfig config ++ renderNetworkConfig config

def SettingRow.directives (config : BeginnerConfig) (row : SettingRow) : List Directive :=
  (row.values config).map (⟨row.key, ·⟩)

/-- The values written for the rows fit on lines. -/
def RowsFit (config : BeginnerConfig) : Prop :=
  ∀ row ∈ settingRows, ∀ value ∈ row.values config, IsSetting value ∧ value ≠ []

theorem map_splitDirective_rows {config : BeginnerConfig} (fits : RowsFit config)
    {rows : List SettingRow} (listed : rows ⊆ settingRows) :
    (rows.flatMap (·.lines config)).map splitDirective =
      rows.flatMap (·.directives config) := by
  rw [List.map_flatMap]
  apply List.flatMap_congr
  intro row membership
  have keyword := (isKeyword_of_mem_settingRows row (listed membership)).1
  rw [SettingRow.lines, SettingRow.directives, List.map_map]
  apply List.map_congr_left
  intro value valueMem
  have setting := (fits row (listed membership) value valueMem).1
  rw [Function.comp_apply, splitDirective_keyed keyword.token, trim_eq_self setting.1]

theorem isSetting_of_mem_rows {config : BeginnerConfig} (fits : RowsFit config)
    {rows : List SettingRow} (listed : rows ⊆ settingRows) :
    ∀ line ∈ rows.flatMap (·.lines config), IsSetting line := by
  intro line membership
  obtain ⟨row, rowMem, lineMem⟩ := List.mem_flatMap.mp membership
  obtain ⟨value, valueMem, rfl⟩ := List.mem_map.mp lineMem
  obtain ⟨keyword, noBackslash⟩ := isKeyword_of_mem_settingRows row (listed rowMem)
  obtain ⟨setting, nonempty⟩ := fits row (listed rowMem) value valueMem
  exact isSetting_keyed keyword.token noBackslash setting nonempty

theorem settingRows_eq :
    settingRows = serviceRows ++ (performanceRows ++ loggingRows ++ networkRows) := by
  simp only [settingRows, List.append_assoc]

theorem serviceRows_subset : serviceRows ⊆ settingRows :=
  settingRows_eq ▸ List.subset_append_left _ _

theorem laterRows_subset : performanceRows ++ loggingRows ++ networkRows ⊆ settingRows :=
  settingRows_eq ▸ List.subset_append_right _ _

theorem performanceRows_subset : performanceRows ⊆ settingRows := by
  have later := laterRows_subset
  simp only [List.append_subset] at later
  exact later.1.1

theorem lastRows_subset : loggingRows ++ networkRows ⊆ settingRows := by
  have later := laterRows_subset
  rw [List.append_assoc, List.append_subset] at later
  exact later.2

/-- The settings come before and after the upstream servers. -/
theorem directives_renderedSettings {config : BeginnerConfig} (fits : RowsFit config)
    (fitting : ∀ upstream ∈ config.upstreams, FitsLine upstream) :
    ∃ servers : List Directive, (∀ directive ∈ servers, beginnerKeyword directive.key = .upstream) ∧
      directives (renderedSettings config) = serviceRows.flatMap (·.directives config) ++ servers ++
        (performanceRows ++ loggingRows ++ networkRows).flatMap (·.directives config) := by
  have first := serviceRows_subset
  have later := laterRows_subset
  obtain ⟨service, servicePage, serviceLines⟩ := listsSettings_service config
  obtain ⟨upstream, upstreamPage, upstreamLines⟩ := exists_lines_renderUpstreamsConfig fitting
  obtain ⟨performance, performancePage, performanceLines⟩ := listsSettings_performance config
  obtain ⟨logging, loggingPage, loggingLines⟩ := listsSettings_logging config
  obtain ⟨network, networkPage, networkLines⟩ := listsSettings_network config
  have written := fitsLine_writtenUpstreams fitting
  have page : renderedSettings config =
      unlines (service ++ upstream ++ (performance ++ logging ++ network)) := by
    rw [renderedSettings, servicePage, upstreamPage, performancePage, loggingPage, networkPage]
    simp only [unlines_append, List.append_assoc]
  have content : withoutBanners (service ++ upstream ++ (performance ++ logging ++ network)) =
      serviceRows.flatMap (·.lines config) ++ withoutBanners upstream ++
        (performanceRows ++ loggingRows ++ networkRows).flatMap (·.lines config) := by
    rw [← withoutBanners_rows config first, ← withoutBanners_rows config later]
    simp only [withoutBanners_append, List.flatMap_append, serviceLines, performanceLines,
      loggingLines, networkLines]
  refine ⟨(withoutBanners upstream).map splitDirective, ?_, ?_⟩
  · intro directive membership
    obtain ⟨line, lineMem, rfl⟩ := List.mem_map.mp membership
    obtain ⟨server, -, -, rfl⟩ := upstreamLines line lineMem
    exact beginnerKeyword_upstreamLine server
  · have fit : ∀ line ∈ withoutBanners
        (service ++ upstream ++ (performance ++ logging ++ network)), IsSetting line := by
      intro line membership
      rw [content] at membership
      rcases List.mem_append.mp membership with before | after
      · rcases List.mem_append.mp before with setting | server
        · exact isSetting_of_mem_rows fits first line setting
        · obtain ⟨upstream, upstreamMem, nonempty, rfl⟩ := upstreamLines line server
          exact isSetting_upstreamLine (written upstream upstreamMem) nonempty
      · exact isSetting_of_mem_rows fits later line after
    rw [directives_eq_map, page, logicalLines_unlines fit, content, List.map_append,
      List.map_append, map_splitDirective_rows fits first, map_splitDirective_rows fits later]

/-! ### Reading the pages -/

/-- A selection of one row among the keywords selects its directives. -/
theorem filter_directives_rows {config : BeginnerConfig} (selected : String → Prop)
    [DecidablePred selected] {row : SettingRow} {rows : List SettingRow}
    (distinct : (rows.map SettingRow.key).Nodup) (listed : row ∈ rows)
    (selects : ∀ other ∈ rows, selected other.key ↔ other = row) :
    (rows.flatMap (·.directives config)).filter (selected ·.key) = row.directives config := by
  induction rows with
  | nil => cases listed
  | cons first rest inductionHypothesis =>
      rw [List.map_cons, List.nodup_cons] at distinct
      rw [List.forall_mem_cons] at selects
      rw [List.flatMap_cons, List.filter_append]
      by_cases same : first = row
      · have others : (rest.flatMap (·.directives config)).filter (selected ·.key) = [] := by
          rw [List.filter_eq_nil_iff]
          intro directive membership
          obtain ⟨other, otherMem, directiveMem⟩ := List.mem_flatMap.mp membership
          obtain ⟨value, -, rfl⟩ := List.mem_map.mp directiveMem
          rw [decide_eq_true_eq, selects.2 other otherMem, ← same]
          rintro rfl
          exact distinct.1 (List.mem_map_of_mem otherMem)
        rw [others, List.append_nil, same, List.filter_eq_self]
        intro directive membership
        obtain ⟨value, -, rfl⟩ := List.mem_map.mp membership
        exact decide_eq_true (same ▸ selects.1.mpr same)
      · have skipped : (first.directives config).filter (selected ·.key) = [] := by
          rw [List.filter_eq_nil_iff]
          intro directive membership
          obtain ⟨value, -, rfl⟩ := List.mem_map.mp membership
          rw [decide_eq_true_eq]
          exact mt selects.1.mp same
        have later : row ∈ rest := (List.mem_cons.mp listed).resolve_left (Ne.symm same)
        rw [skipped, List.nil_append, inductionHypothesis distinct.2 later selects.2]

theorem keyword_ne_upstream : ∀ row ∈ settingRows, row.keyword ≠ .upstream := by decide

theorem eq_of_keyword_eq : ∀ row ∈ settingRows, ∀ other ∈ settingRows,
    row.keyword ≠ .extra → row.keyword ≠ .listExtra → other.keyword = row.keyword →
      other = row := by decide

theorem exists_field_row {keyword : BeginnerKeyword}
    (field : keyword ∉ [BeginnerKeyword.upstream, .listExtra, .extra]) :
    ∃ key, SettingRow.field keyword key ∈ settingRows := by
  have listed : ∃ row ∈ settingRows, row.keyword = keyword := by
    cases keyword <;> first | decide | exact absurd (by decide) field
  obtain ⟨row, membership, rfl⟩ := listed
  cases row with
  | field keyword key => exact ⟨key, membership⟩
  | extra key | switch key | list key | certificate key =>
      simp [SettingRow.keyword] at field

theorem eq_of_key_eq {row other : SettingRow} (listed : row ∈ settingRows)
    (listed' : other ∈ settingRows) (same : row.key = other.key) : row = other :=
  List.inj_on_of_nodup_map nodup_settingRows listed listed' same

/-- The keywords that the pages have a place for. -/
def rowKeys : List String := settingRows.map SettingRow.key

theorem not_mem_rowKeys_of_upstream {key : String} (server : beginnerKeyword key = .upstream) :
    key ∉ rowKeys := by
  intro membership
  obtain ⟨row, listed, rfl⟩ := List.mem_map.mp membership
  rw [beginnerKeyword_of_mem_settingRows row listed] at server
  exact keyword_ne_upstream row listed server

theorem filter_rowKeys_of_not_mem {ds : List Directive}
    (absent : ∀ directive ∈ ds, directive.key ∉ rowKeys) : ds.filter (·.key ∈ rowKeys) = [] := by
  rw [List.filter_eq_nil_iff]
  intro directive membership
  simpa using absent directive membership

theorem key_mem_rowKeys {config : BeginnerConfig} {rows : List SettingRow}
    (listed : rows ⊆ settingRows) {directive : Directive}
    (membership : directive ∈ rows.flatMap (·.directives config)) : directive.key ∈ rowKeys := by
  obtain ⟨row, rowMem, directiveMem⟩ := List.mem_flatMap.mp membership
  obtain ⟨value, -, rfl⟩ := List.mem_map.mp directiveMem
  exact List.mem_map_of_mem (listed rowMem)

theorem filter_rowKeys_rows {config : BeginnerConfig} {rows : List SettingRow}
    (listed : rows ⊆ settingRows) :
    (rows.flatMap (·.directives config)).filter (·.key ∈ rowKeys) =
      rows.flatMap (·.directives config) := by
  rw [List.filter_eq_self]
  intro directive membership
  exact decide_eq_true (key_mem_rowKeys listed membership)

/-- The directives with the keywords of the pages are those that were written; no other
sets a field or a list. -/
structure ListsRows (config : BeginnerConfig) (ds : List Directive) : Prop where
  rows : ds.filter (·.key ∈ rowKeys) = settingRows.flatMap (·.directives config)
  others : ∀ directive ∈ ds, directive.key ∉ rowKeys →
    beginnerKeyword directive.key = .upstream ∨ beginnerKeyword directive.key = .extra

section

variable {config : BeginnerConfig} {ds : List Directive} (lists : ListsRows config ds)

include lists

theorem ListsRows.filter (selected : String → Prop) [DecidablePred selected] {row : SettingRow}
    (listed : row ∈ settingRows)
    (selects : ∀ other ∈ settingRows, selected other.key ↔ other = row)
    (known : ∀ directive ∈ ds, selected directive.key → directive.key ∈ rowKeys) :
    ds.filter (selected ·.key) = row.directives config := by
  rw [← filter_directives_rows selected nodup_settingRows listed selects, ← lists.rows,
    List.filter_filter]
  apply List.filter_congr
  intro directive membership
  have first := known directive membership
  by_cases chosen : selected directive.key <;> simp [chosen, first]

/-- The values of a field are read as they were written. -/
theorem ListsRows.valuesOf {keyword : BeginnerKeyword}
    (field : keyword ∉ [BeginnerKeyword.upstream, .listExtra, .extra]) :
    valuesOf keyword ds = fieldValues config keyword := by
  obtain ⟨key, listed⟩ := exists_field_row field
  simp only [List.mem_cons, List.not_mem_nil, or_false, not_or] at field
  have selects : ∀ other ∈ settingRows, beginnerKeyword other.key = keyword ↔
      other = .field keyword key := by
    intro other membership
    rw [beginnerKeyword_of_mem_settingRows other membership]
    constructor
    · exact eq_of_keyword_eq _ listed other membership field.2.2 field.2.1
    · rintro rfl
      rfl
  have known : ∀ directive ∈ ds, beginnerKeyword directive.key = keyword →
      directive.key ∈ rowKeys := by
    intro directive membership same
    by_contra absent
    rcases lists.others directive membership absent with server | extra
    · exact field.1 (same.symm.trans server)
    · exact field.2.2 (same.symm.trans extra)
  rw [SmartDnsPlusUi.valuesOf, lists.filter (beginnerKeyword · = keyword) listed selects known,
    SettingRow.directives, List.map_map]
  exact List.map_id _

/-- So are the arguments of an extra. -/
theorem ListsRows.argumentsOf (fits : RowsFit config) {row : SettingRow}
    (listed : row ∈ settingRows) : argumentsOf row.key ds = row.values config := by
  have selects : ∀ other ∈ settingRows, other.key = row.key ↔ other = row :=
    fun other membership => ⟨eq_of_key_eq membership listed, congrArg _⟩
  have known : ∀ directive ∈ ds, directive.key = row.key → directive.key ∈ rowKeys :=
    fun _ _ same => same ▸ List.mem_map_of_mem listed
  have values : (row.directives config).map Directive.value = row.values config := by
    rw [SettingRow.directives, List.map_map]
    exact List.map_id _
  rw [SmartDnsPlusUi.argumentsOf, lists.filter (· = row.key) listed selects known, values,
    List.filter_eq_self]
  intro value membership
  simpa using (fits row listed value membership).2

end

/-- Without commas a list is written line by line, but for what is commented out. -/
theorem splitListExtra_of_entries {config : BeginnerConfig} {key : String} {value : Text}
    (found : config.extras key = some value)
    (entries : ∀ entry ∈ lines value, Trimmed entry ∧ entry ≠ [] ∧ ',' ∉ entry) :
    splitListExtra config key = (lines value).filter (·.head? ≠ some '#') := by
  have pieces : ((lines value).flatMap (·.splitOn ',')).map trim = lines value := by
    have whole : (lines value).flatMap (·.splitOn ',') =
        (lines value).flatMap fun entry => [entry] :=
      List.flatMap_congr fun entry membership => splitOn_of_not_mem (entries entry membership).2.2
    rw [whole, List.flatMap_singleton']
    conv_rhs => rw [← List.map_id (lines value)]
    exact List.map_congr_left fun entry membership => trim_eq_self (entries entry membership).1
  rw [splitListExtra, found]
  dsimp only
  rw [pieces]
  apply List.filter_congr
  intro entry membership
  simp [(entries entry membership).2.1]

theorem parseYesno_yesno : ∀ value fallback, parseYesno (yesno value) fallback = value := by decide

/-- A field's keyword sets no extra. -/
theorem lastExtra_field {keyword : BeginnerKeyword} {key : String} {ds : List Directive}
    {config : BeginnerConfig} (reads : beginnerKeyword key = keyword)
    (arguments : argumentsOf key ds = fieldValues config keyword) : lastExtra key ds = none := by
  by_cases extra : keyword = .extra
  · rw [lastExtra_eq_getLast? (reads.trans extra), arguments, extra]
    rfl
  · by_cases list : keyword = .listExtra
    · rw [lastExtra_eq_join (reads.trans list), arguments, list]
      rfl
    · exact lastExtra_eq_none (reads ▸ extra) (reads ▸ list) ds

section

variable {config : BeginnerConfig} (fits : RowsFit config)
  (fitting : ∀ upstream ∈ config.upstreams, FitsLine upstream)

include fits fitting

theorem listsRows_renderedSettings : ListsRows config (directives (renderedSettings config)) := by
  obtain ⟨servers, keywords, equality⟩ := directives_renderedSettings fits fitting
  have service := serviceRows_subset
  have later := laterRows_subset
  have server : ∀ directive ∈ servers, directive.key ∉ rowKeys :=
    fun directive membership => not_mem_rowKeys_of_upstream (keywords directive membership)
  rw [equality]
  constructor
  · rw [List.filter_append, List.filter_append, filter_rowKeys_rows service,
      filter_rowKeys_rows later, filter_rowKeys_of_not_mem server, List.append_nil,
      ← List.flatMap_append, ← settingRows_eq]
  · intro directive membership absent
    rcases List.mem_append.mp membership with before | after
    · rcases List.mem_append.mp before with written | named
      · exact absurd (key_mem_rowKeys service written) absent
      · exact .inl (keywords directive named)
    · exact absurd (key_mem_rowKeys later after) absent

/-- A keyword that is not in the table is an upstream server's, or none. -/
theorem lastExtra_of_not_mem {key : String} (absent : key ∉ rowKeys) :
    lastExtra key (directives (renderedSettings config)) = none := by
  obtain ⟨servers, keywords, equality⟩ := directives_renderedSettings fits fitting
  by_cases server : beginnerKeyword key = .upstream
  · apply lastExtra_eq_none <;> simp [server]
  · have none : argumentsOf key (directives (renderedSettings config)) = argumentsOf key [] := by
      apply argumentsOf_eq_nil
      rintro directive membership rfl
      rw [equality, List.mem_append, List.mem_append] at membership
      rcases membership with (written | named) | written
      · exact absent (key_mem_rowKeys serviceRows_subset written)
      · exact server (keywords directive named)
      · exact absent (key_mem_rowKeys laterRows_subset written)
    exact lastExtra_congr none

end

end SmartDnsPlusUi
