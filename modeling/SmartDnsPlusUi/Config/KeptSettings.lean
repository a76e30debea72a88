import SmartDnsPlusUi.Config.SavedDirectives

/-!
# What a save and a load make of the settings

The loader reads the user's own directives before and after the managed block
and, between them, those of the managed files.  A save writes what was read
into the managed files, also what came from the user's own text.  So the next
load finds the user's own listeners, upstream servers and list entries once
more; all else stays as it is when no page writes a value in another way than
it was read.
-/

namespace SmartDnsPlusUi

open Text

def repeated {Item : Type} (n : Nat) (items : List Item) : List Item :=
  (List.replicate n items).flatten

@[simp] theorem repeated_one {Item : Type} (items : List Item) : repeated 1 items = items := by
  simp [repeated]

/-- The settings after the entries of the user's own text, before and after the managed block,
have been added `n` times. -/
structure DriftsBy (n : Nat) (before after config again : BeginnerConfig) : Prop where
  binds : again.binds = repeated n before.binds ++ config.binds ++ repeated n after.binds
  upstreams : again.upstreams.Perm
    (repeated n (before.upstreams ++ after.upstreams) ++ config.upstreams)
  lists : ∀ key, beginnerKeyword key = .listExtra →
    splitListExtra again key = repeated n (splitListExtra before key) ++
      splitListExtra config key ++ repeated n (splitListExtra after key)
  extras : ∀ key, beginnerKeyword key ≠ .listExtra → again.extras key = config.extras key
  others : { again with
    binds := config.binds, upstreams := config.upstreams, extras := config.extras } = config

/-- A directive as the lines of a text yield it. -/
def FitsDirective (directive : Directive) : Prop :=
  Trimmed directive.value ∧ '\n' ∉ directive.value

theorem fitsDirective_of_mem {text : Text} :
    ∀ directive ∈ directives text, FitsDirective directive :=
  fun _ membership => ⟨trimmed_value_of_mem membership, not_mem_value_of_mem membership⟩

/-- The fields that are written with a default. -/
def scalarKeywords : List BeginnerKeyword :=
  [.cacheSize, .serveExpiredTtl, .responseMode, .speedCheckMode, .logLevel]

theorem field_of_mem_scalarKeywords : ∀ keyword ∈ scalarKeywords,
    keyword ∉ [BeginnerKeyword.upstream, .listExtra, .extra] := by decide

/-- The user's own directives before and after the managed ones, and the rules that a save
writes: every page writes the values that were loaded as they were read. -/
structure KeepsSettings (before managed after rules : List Directive) : Prop where
  binds : ∀ value ∈ valuesOf .bind (before ++ managed ++ after), value ≠ []
  some_bind : valuesOf .bind (before ++ managed ++ after) ≠ []
  upstreams : ∀ upstream ∈ (before ++ managed ++ after).flatMap upstreamsOf,
    upstream.value ≠ [] ∧ upstream.kind ≠ "server-h3" ∧
      endsWith '\\' (lastArgument upstream) = false
  lists : ∀ directive ∈ before ++ managed ++ after, beginnerKeyword directive.key = .listExtra →
    ',' ∉ directive.value ∧ directive.value.head? ≠ some '#'
  scalars : ∀ keyword ∈ scalarKeywords, valuesOf keyword after = [] →
    (valuesOf keyword (before ++ managed)).getLast? ≠ some []
  server_name : valuesOf .serverName after = [] →
    lastValue .serverName [] (before ++ managed) = [] → lastValue .serverName [] before = []
  switches : ∀ key, SettingRow.switch key ∈ settingRows → lastExtra key after = none →
    ∀ value ∈ lastExtra key (before ++ managed), value = "yes" ∨ value = "no"
  certificates : (∀ key ∈ ["bind-tls", "bind-https"],
      argumentsOf key (before ++ managed ++ after) = []) →
    ∀ key, SettingRow.certificate key ∈ settingRows →
      lastExtra key (before ++ after) = lastExtra key (before ++ managed ++ after)
  unwritten : ∀ key ∉ rowKeys, ¬ IsAssetKey key →
    lastExtra key (before ++ after) = lastExtra key (before ++ managed ++ after)
  last_rules : ∀ key, IsAssetKey key →
    lastExtra key (before ++ rules ++ after) = lastExtra key (before ++ managed ++ after)
  continued : ∀ row ∈ settingRows, ∀ value ∈ row.values (settingsOf (before ++ managed ++ after)),
    endsWith '\\' value = false

/-! ### The values of parsed settings -/

theorem not_mem_splitListExtra {config : BeginnerConfig} {key : String} :
    ∀ value ∈ splitListExtra config key, '\n' ∉ value := by
  intro value membership present
  rw [splitListExtra] at membership
  split at membership
  · obtain ⟨raw, rawMem, rfl⟩ := List.mem_map.mp (List.mem_of_mem_filter membership)
    obtain ⟨line, lineMem, piece⟩ := List.mem_flatMap.mp rawMem
    have inLine := (infix_of_mem_splitOn piece).subset (mem_of_mem_trim present)
    exact not_mem_of_mem_lines lineMem inLine
  · cases membership

/-- Entries that are written as they are read. -/
def IsEntry (value : Text) : Prop :=
  Trimmed value ∧ '\n' ∉ value ∧ ',' ∉ value ∧ value.head? ≠ some '#'

theorem splitListExtra_settingsOf {ds : List Directive} {key : String}
    (list : beginnerKeyword key = .listExtra)
    (entries : ∀ value ∈ argumentsOf key ds, IsEntry value) :
    splitListExtra (settingsOf ds) key = argumentsOf key ds := by
  have solid : ∀ value ∈ argumentsOf key ds, Trimmed value ∧ value ≠ [] ∧ '\n' ∉ value := by
    intro value membership
    obtain ⟨trimmed, free, -⟩ := entries value membership
    exact ⟨trimmed, (mem_argumentsOf_iff.mp membership).2, free⟩
  have found : (settingsOf ds).extras key = _ := lastExtra_eq_join list ds
  by_cases empty : argumentsOf key ds = []
  · rw [if_pos empty] at found
    rw [splitListExtra, found, empty]
  · rw [if_neg empty] at found
    have whole := lines_join solid
    rw [splitListExtra_of_entries found, whole, List.filter_eq_self]
    · intro value membership
      simpa using (entries value membership).2.2.2
    · intro value membership
      rw [whole] at membership
      obtain ⟨trimmed, nonempty, -⟩ := solid value membership
      exact ⟨trimmed, nonempty, (entries value membership).2.2.1⟩

section

variable {ds : List Directive} (fitting : ∀ directive ∈ ds, FitsDirective directive)

include fitting

theorem fits_of_mem_valuesOf (keyword : BeginnerKeyword) :
    ∀ value ∈ valuesOf keyword ds, Trimmed value ∧ '\n' ∉ value := by
  intro value membership
  obtain ⟨directive, directiveMem, rfl⟩ := List.mem_map.mp membership
  exact fitting directive (List.mem_of_mem_filter directiveMem)

theorem fits_lastValue (keyword : BeginnerKeyword) {defaultValue : Text}
    (default : Trimmed defaultValue ∧ '\n' ∉ defaultValue) :
    Trimmed (lastValue keyword defaultValue ds) ∧
      '\n' ∉ lastValue keyword defaultValue ds := by
  rw [lastValue]
  cases last : (valuesOf keyword ds).getLast? with
  | none => exact default
  | some value => exact fits_of_mem_valuesOf fitting keyword value (List.mem_of_getLast? last)

theorem fits_of_mem_argumentsOf (key : String) :
    ∀ value ∈ argumentsOf key ds, Trimmed value ∧ value ≠ [] ∧ '\n' ∉ value := by
  intro value membership
  obtain ⟨directiveMem, nonempty⟩ := mem_argumentsOf_iff.mp membership
  obtain ⟨trimmed, free⟩ := fitting _ directiveMem
  exact ⟨trimmed, nonempty, free⟩

theorem extraValues_settingsOf {key : String} (extra : beginnerKeyword key = .extra) :
    extraValues (settingsOf ds) key = (argumentsOf key ds).getLast?.toList := by
  have solid := fits_of_mem_argumentsOf fitting key
  have found : (settingsOf ds).extras key = (argumentsOf key ds).getLast? :=
    lastExtra_eq_getLast? extra ds
  rw [extraValues, found]
  cases last : (argumentsOf key ds).getLast? with
  | none => rfl
  | some value =>
      obtain ⟨trimmed, nonempty, -⟩ := solid value (List.mem_of_getLast? last)
      simp [filled, trim_eq_self trimmed, nonempty]

/-- Only a backslash keeps a value that was read from fitting on a line. -/
theorem rowsFit_settingsOf
    (continued : ∀ row ∈ settingRows, ∀ value ∈ row.values (settingsOf ds),
      endsWith '\\' value = false) : RowsFit (settingsOf ds) := by
  have kept : ∀ {values : List Text}, (∀ value ∈ values, '\n' ∉ value) →
      ∀ value ∈ filled values, Trimmed value ∧ '\n' ∉ value ∧ value ≠ [] := by
    intro values free value membership
    obtain ⟨raw, rawMem, rfl⟩ := List.mem_map.mp membership
    obtain ⟨listed, nonempty⟩ := List.mem_filter.mp rawMem
    exact ⟨trimmed_trim raw, fun present => free raw listed (mem_of_mem_trim present),
      by simpa using nonempty⟩
  have scalar : ∀ (keyword : BeginnerKeyword) (defaultValue : Text),
      Trimmed defaultValue ∧ '\n' ∉ defaultValue ∧ defaultValue ≠ [] →
      ∀ written ∈ [orDefaultValue (lastValue keyword defaultValue ds) defaultValue],
        Trimmed written ∧ '\n' ∉ written ∧ written ≠ [] := by
    intro keyword defaultValue default written membership
    obtain ⟨trimmed, free⟩ :=
      fits_lastValue fitting keyword ⟨default.1, default.2.1⟩
    rw [List.mem_singleton.mp membership, orDefaultValue, trim_eq_self trimmed]
    split
    · exact default
    · exact ⟨trimmed, free, ‹_›⟩
  have switch : ∀ value : Bool, ∀ written ∈ [yesno value],
      Trimmed written ∧ '\n' ∉ written ∧ written ≠ [] := by decide
  have extra : ∀ key, beginnerKeyword key = .extra → ∀ value ∈ extraValues (settingsOf ds) key,
      Trimmed value ∧ '\n' ∉ value ∧ value ≠ [] := by
    intro key reads value membership
    rw [extraValues_settingsOf fitting reads, Option.mem_toList] at membership
    obtain ⟨trimmed, nonempty, free⟩ :=
      fits_of_mem_argumentsOf fitting key value (List.mem_of_getLast? membership)
    exact ⟨trimmed, free, nonempty⟩
  intro row membership value valueMem
  have fits : Trimmed value ∧ '\n' ∉ value ∧ value ≠ [] := by
    have reads := beginnerKeyword_of_mem_settingRows row membership
    cases row with
    | field keyword key =>
        cases keyword with
        | serverName =>
            have unnamed : Trimmed [] ∧ '\n' ∉ [] := by decide
            have free := (fits_lastValue fitting .serverName unnamed).2
            exact kept (List.forall_mem_singleton.mpr free) value valueMem
        | bind =>
            apply kept _ value valueMem
            intro bind listed
            rw [writtenBinds] at listed
            split at listed
            · rw [List.mem_singleton.mp listed]
              decide
            · exact (fits_of_mem_valuesOf fitting .bind bind listed).2
        | cacheSize | serveExpiredTtl | responseMode | speedCheckMode | logLevel =>
            exact scalar _ _ (by decide) value valueMem
        | prefetchDomain | serveExpired | dualstackIpSelection | mdnsLookup | auditEnable =>
            exact switch _ value valueMem
        | upstream | listExtra | extra => cases valueMem
    | extra key => exact extra key reads value valueMem
    | certificate key =>
        rw [SettingRow.values] at valueMem
        split at valueMem
        · exact extra key reads value valueMem
        · cases valueMem
    | switch key =>
        obtain ⟨raw, -, rfl⟩ := List.mem_map.mp valueMem
        exact switch _ _ List.mem_cons_self
    | list key =>
        obtain ⟨trimmed, nonempty⟩ := isSolid_splitListExtra _ key value valueMem
        exact ⟨trimmed, not_mem_splitListExtra value valueMem, nonempty⟩
  exact ⟨⟨fits.1, fits.2.1, continued row membership value valueMem⟩, fits.2.2⟩

end

/-! ### The fields after a save -/

section

variable {before managed after rules saved : List Directive}
  (keeps : KeepsSettings before managed after rules)
  (fitting : ∀ directive ∈ before ++ managed ++ after, FitsDirective directive)
  (lists : ListsRows (settingsOf (before ++ managed ++ after)) saved)

include keeps fitting lists

/-- All listeners that were read are written. -/
theorem KeepsSettings.binds_saved :
    valuesOf .bind saved = valuesOf .bind (before ++ managed ++ after) := by
  have loaded : writtenBinds (settingsOf (before ++ managed ++ after)) =
      valuesOf .bind (before ++ managed ++ after) := if_neg keeps.some_bind
  rw [lists.valuesOf (by decide), fieldValues, loaded, filled_of_trimmed]
  intro value membership
  exact ⟨(fits_of_mem_valuesOf fitting .bind value membership).1, keeps.binds value membership⟩

/-- A field that is not empty is written and read again, unless the user's text sets it. -/
theorem KeepsSettings.scalar {keyword : BeginnerKeyword} {defaultValue : Text}
    (listed : keyword ∈ scalarKeywords) (default : Trimmed defaultValue ∧ '\n' ∉ defaultValue)
    (nonempty : defaultValue ≠ [])
    (written : fieldValues (settingsOf (before ++ managed ++ after)) keyword =
      [orDefaultValue (lastValue keyword defaultValue (before ++ managed ++ after))
        defaultValue]) :
    lastValue keyword defaultValue (before ++ saved ++ after) =
      lastValue keyword defaultValue (before ++ managed ++ after) := by
  have field : keyword ∉ [BeginnerKeyword.upstream, .listExtra, .extra] :=
    field_of_mem_scalarKeywords keyword listed
  have trimmed := (fits_lastValue fitting keyword default).1
  have read := lists.valuesOf field
  rw [lastValue_append _ _ (before ++ saved), lastValue_append _ _ (before ++ managed)]
  by_cases unset : valuesOf keyword after = []
  · have full : lastValue keyword defaultValue (before ++ managed) ≠ [] := by
      rw [lastValue]
      cases last : (valuesOf keyword (before ++ managed)).getLast? with
      | none => exact nonempty
      | some value =>
          rintro rfl
          exact keeps.scalars keyword listed unset last
    rw [lastValue_append _ _ (before ++ managed), unset] at written trimmed
    rw [lastValue_append _ _ before, read, written, unset]
    simp only [List.getLast?_nil, Option.getD_none, List.getLast?_singleton,
      Option.getD_some] at trimmed ⊢
    rw [orDefaultValue, trim_eq_self trimmed, if_neg full]
  · obtain ⟨value, last⟩ := Option.ne_none_iff_exists'.mp (mt List.getLast?_eq_none_iff.mp unset)
    rw [last]
    rfl

theorem KeepsSettings.server_name_eq :
    lastValue .serverName [] (before ++ saved ++ after) =
      lastValue .serverName [] (before ++ managed ++ after) := by
  have unnamed : Trimmed [] ∧ '\n' ∉ [] := by decide
  have trimmed := (fits_lastValue fitting .serverName unnamed).1
  have read : valuesOf .serverName saved =
      filled [lastValue .serverName [] (before ++ managed ++ after)] :=
    lists.valuesOf (by decide)
  rw [lastValue_append _ _ (before ++ saved), lastValue_append _ _ (before ++ managed)]
  by_cases unset : valuesOf .serverName after = []
  · rw [lastValue_append _ _ (before ++ managed), unset] at read trimmed
    rw [lastValue_append _ _ before, read, unset]
    simp only [List.getLast?_nil, Option.getD_none] at trimmed ⊢
    by_cases empty : lastValue .serverName [] (before ++ managed) = []
    · simp [empty, filled, keeps.server_name unset empty]
    · simp [empty, filled, trim_eq_self trimmed]
  · obtain ⟨value, last⟩ := Option.ne_none_iff_exists'.mp (mt List.getLast?_eq_none_iff.mp unset)
    rw [last]
    rfl

omit keeps fitting in
theorem lastYesno_saved {keyword : BeginnerKeyword} {defaultValue fallback : Bool}
    (field : keyword ∉ [BeginnerKeyword.upstream, .listExtra, .extra])
    (written : fieldValues (settingsOf (before ++ managed ++ after)) keyword =
      [yesno (lastYesno keyword defaultValue fallback (before ++ managed ++ after))]) :
    lastYesno keyword defaultValue fallback (before ++ saved ++ after) =
      lastYesno keyword defaultValue fallback (before ++ managed ++ after) := by
  have read := lists.valuesOf field
  rw [lastYesno_append _ _ _ (before ++ saved), lastYesno_append _ _ _ (before ++ managed)]
  by_cases unset : valuesOf keyword after = []
  · rw [lastYesno_append _ _ _ (before ++ managed), unset] at written
    rw [lastYesno_append _ _ _ before, read, written, unset]
    simp [parseYesno_yesno]
  · obtain ⟨value, last⟩ := Option.ne_none_iff_exists'.mp (mt List.getLast?_eq_none_iff.mp unset)
    rw [last]
    rfl

end

/-! ### The upstream servers after a save -/

theorem exists_upstream_of_ok {config : BeginnerConfig} {rulesText : Text}
    (accepted : (validateBeginnerConfig config rulesText).ok = true) :
    ∃ upstream ∈ config.upstreams, trim upstream.value ≠ [] := by
  by_contra none
  have blank : config.upstreams.all (trim ·.value = []) = true := by
    rw [List.all_eq_true]
    intro upstream membership
    by_contra nonempty
    exact none ⟨upstream, membership, by simpa using nonempty⟩
  simp [validateBeginnerConfig, blank, pushLine] at accepted

section

variable {before managed after rules : List Directive}
  (keeps : KeepsSettings before managed after rules)
  (fitting : ∀ directive ∈ before ++ managed ++ after, FitsDirective directive)

include keeps fitting

theorem KeepsSettings.readable :
    ∀ upstream ∈ (settingsOf (before ++ managed ++ after)).upstreams, IsReadable upstream := by
  intro upstream membership
  have address := (keeps.upstreams upstream membership).1
  obtain ⟨directive, directiveMem, parsed⟩ := List.mem_flatMap.mp membership
  obtain ⟨-, rfl⟩ := mem_upstreamsOf_iff.mp parsed
  apply isReadable_upstreamFrom
  · exact (fitting directive directiveMem).1
  · intro empty
    rw [value_upstreamFrom, empty] at address
    exact address rfl

/-- The page is read as the servers that were loaded, sorted by their groups. -/
theorem KeepsSettings.directives_upstreams
    (some : (settingsOf (before ++ managed ++ after)).upstreams ≠ []) :
    directives (renderUpstreamsConfig (settingsOf (before ++ managed ++ after))) =
      (stableSort firstGroup (settingsOf (before ++ managed ++ after)).upstreams).map
        (splitDirective <| upstreamLine ·) := by
  apply directives_renderUpstreamsConfig some (keeps.readable fitting)
  exact fun upstream membership => (keeps.upstreams upstream membership).2.2

theorem KeepsSettings.upstreams_perm
    (some : (settingsOf (before ++ managed ++ after)).upstreams ≠ []) :
    ((directives (renderUpstreamsConfig (settingsOf (before ++ managed ++ after)))).flatMap
      upstreamsOf).Perm (settingsOf (before ++ managed ++ after)).upstreams := by
  have directives := keeps.directives_upstreams fitting some
  have loaded := keeps.readable fitting
  have conditions : ∀ upstream ∈ (settingsOf (before ++ managed ++ after)).upstreams,
      upstreamKey upstream.kind = upstream.kind := by
    intro upstream membership
    have noHttp3 := (keeps.upstreams upstream membership).2.1
    obtain ⟨directive, -, parsed⟩ := List.mem_flatMap.mp membership
    obtain ⟨keyword, rfl⟩ := mem_upstreamsOf_iff.mp parsed
    rw [← kind_upstreamFrom] at keyword
    exact (upstreamKey_eq_iff_of_keyword keyword).mpr noHttp3
  generalize (settingsOf (before ++ managed ++ after)).upstreams = upstreams at *
  have sorted := perm_stableSort firstGroup upstreams
  have same : (stableSort firstGroup upstreams).map
      (fun upstream => { upstream with kind := upstreamKey upstream.kind }) =
        stableSort firstGroup upstreams := by
    rw [map_eq_self_iff]
    intro upstream membership
    rw [conditions upstream (sorted.mem_iff.mp membership)]
  rw [directives, flatMap_upstreamsOf_upstreamLine, same]
  · exact sorted
  · intro upstream membership
    exact loaded upstream (sorted.mem_iff.mp membership)

end

/-! ### The extras after a save -/

/-- The last argument may be repeated before those that come after it. -/
theorem getLast?_repeated {before managed after : List Text} {written : List Text}
    (same : after = [] → written = (before ++ managed).getLast?.toList) :
    (before ++ written ++ after).getLast? = (before ++ managed ++ after).getLast? := by
  by_cases unset : after = []
  · rw [same unset, unset, List.append_nil, List.append_nil, List.getLast?_append]
    cases last : (before ++ managed).getLast? with
    | none =>
        rw [List.getLast?_eq_none_iff, List.append_eq_nil_iff] at last
        rw [last.1]
        rfl
    | some value => rfl
  · rw [List.getLast?_append_of_ne_nil _ unset, List.getLast?_append_of_ne_nil _ unset]

theorem mem_settingRows_of_listExtra {key : String} (list : beginnerKeyword key = .listExtra) :
    SettingRow.list key ∈ settingRows := by
  unfold beginnerKeyword at list
  split at list <;> first | decide | cases list

theorem not_field_of_extra : ∀ row ∈ settingRows, row ≠ .field .extra row.key := by
  decide

section

variable {before managed after rules saved : List Directive}
  (keeps : KeepsSettings before managed after rules)
  (fitting : ∀ directive ∈ before ++ managed ++ after, FitsDirective directive)

include keeps fitting

theorem KeepsSettings.isEntry {key : String} (list : beginnerKeyword key = .listExtra) :
    ∀ value ∈ argumentsOf key (before ++ managed ++ after), IsEntry value := by
  intro value membership
  obtain ⟨directiveMem, -⟩ := mem_argumentsOf_iff.mp membership
  obtain ⟨trimmed, free⟩ := fitting _ directiveMem
  exact ⟨trimmed, free, keeps.lists _ directiveMem list⟩

theorem KeepsSettings.splitListExtra_eq {key : String} (list : beginnerKeyword key = .listExtra) :
    splitListExtra (settingsOf (before ++ managed ++ after)) key =
      argumentsOf key (before ++ managed ++ after) :=
  splitListExtra_settingsOf list (keeps.isEntry fitting list)

/-- Without a listener that is written, none was read. -/
theorem KeepsSettings.no_listener
    (silent : ¬ HasTlsListener (settingsOf (before ++ managed ++ after))) :
    ∀ key ∈ ["bind-tls", "bind-https"], argumentsOf key (before ++ managed ++ after) = [] := by
  obtain ⟨noTls, noHttps⟩ := not_or.mp silent
  rw [not_not, keeps.splitListExtra_eq fitting (by decide)] at noTls noHttps
  intro key membership
  rcases List.mem_pair.mp membership with rfl | rfl
  · exact noTls
  · exact noHttps

variable (lists : ListsRows (settingsOf (before ++ managed ++ after)) saved)

include lists

/-- All entries of a list that were read are written. -/
theorem KeepsSettings.lists_saved {key : String} (list : beginnerKeyword key = .listExtra) :
    argumentsOf key saved = argumentsOf key (before ++ managed ++ after) := by
  have listed : SettingRow.list key ∈ settingRows := mem_settingRows_of_listExtra list
  exact (lists.argumentsOf (rowsFit_settingsOf fitting keeps.continued) listed).trans
    (keeps.splitListExtra_eq fitting list)

theorem KeepsSettings.row_extra {row : SettingRow} (listed : row ∈ settingRows)
    (noList : beginnerKeyword row.key ≠ .listExtra) :
    lastExtra row.key (before ++ saved ++ after) =
      lastExtra row.key (before ++ managed ++ after) := by
  have reads := beginnerKeyword_of_mem_settingRows row listed
  have arguments :=
    lists.argumentsOf (rowsFit_settingsOf fitting keeps.continued) listed
  have written : beginnerKeyword row.key = .extra → argumentsOf row.key saved =
      (argumentsOf row.key (before ++ managed ++ after)).getLast?.toList →
      lastExtra row.key (before ++ saved ++ after) =
        lastExtra row.key (before ++ managed ++ after) := by
    intro extra same
    rw [lastExtra_eq_getLast? extra, lastExtra_eq_getLast? extra, argumentsOf_append,
      argumentsOf_append, argumentsOf_append, argumentsOf_append, same]
    apply getLast?_repeated
    intro unset
    rw [argumentsOf_append, argumentsOf_append, unset, List.append_nil]
  cases row with
  | field keyword key =>
      have noExtra : keyword ≠ .extra := by
        rintro rfl
        exact not_field_of_extra _ listed rfl
      have field : beginnerKeyword key ≠ .extra := by
        intro same
        exact noExtra (reads.symm.trans same)
      have unlisted : beginnerKeyword key ≠ .listExtra := noList
      rw [SettingRow.key, lastExtra_eq_none field unlisted, lastExtra_eq_none field unlisted]
  | list key => exact absurd reads noList
  | extra key =>
      apply written reads
      exact arguments.trans (extraValues_settingsOf fitting reads)
  | certificate key =>
      by_cases listens : HasTlsListener (settingsOf (before ++ managed ++ after))
      · apply written reads
        rw [arguments, SettingRow.values, if_pos listens]
        exact extraValues_settingsOf fitting reads
      · have none : argumentsOf key saved = [] := by
          rw [SettingRow.values, if_neg listens] at arguments
          exact arguments
        have silent := keeps.no_listener fitting listens
        rw [SettingRow.key, ← keeps.certificates silent key listed]
        apply lastExtra_congr
        rw [argumentsOf_append, argumentsOf_append, argumentsOf_append, none, List.append_nil]
  | switch key =>
      have extra : beginnerKeyword key = .extra := reads
      have values : argumentsOf key saved =
          (argumentsOf key (before ++ managed ++ after)).getLast?.toList.map
            fun value => yesno (parseYesno value false) := by
        rw [← extraValues_settingsOf fitting extra]
        exact arguments
      rw [SettingRow.key, lastExtra_eq_getLast? extra, lastExtra_eq_getLast? extra,
        argumentsOf_append, argumentsOf_append, argumentsOf_append, argumentsOf_append]
      apply getLast?_repeated
      intro unset
      have yesOrNo := keeps.switches key listed
      rw [lastExtra_eq_getLast? extra, lastExtra_eq_getLast? extra, unset] at yesOrNo
      rw [values, argumentsOf_append, unset, List.append_nil, ← argumentsOf_append]
      cases last : (argumentsOf key (before ++ managed)).getLast? with
      | none => rfl
      | some value => rcases yesOrNo rfl value last with rfl | rfl <;> decide

end

/-! ### The settings after a save -/

/-- The pages that a save writes are read as the rows of the settings, as the servers that were
loaded, and as the rules. -/
structure ReadsSaved (before managed after rules saved : List Directive) : Prop where
  lists : ListsRows (settingsOf (before ++ managed ++ after)) saved
  assets : ∀ directive ∈ rules, IsAssetKey directive.key
  servers : (saved.flatMap upstreamsOf).Perm ((before ++ managed ++ after).flatMap upstreamsOf)
  others : ∀ key ∉ rowKeys, lastExtra key (before ++ saved ++ after) =
    lastExtra key (before ++ rules ++ after)

section

variable {before managed after rules saved : List Directive}
  (keeps : KeepsSettings before managed after rules)
  (fitting : ∀ directive ∈ before ++ managed ++ after, FitsDirective directive)
  (reads : ReadsSaved before managed after rules saved)

include keeps fitting reads

/-- A save adds the entries of the user's own text once more. -/
theorem KeepsSettings.drifts :
    DriftsBy 1 (settingsOf before) (settingsOf after) (settingsOf (before ++ managed ++ after))
      (settingsOf (before ++ saved ++ after)) := by
  obtain ⟨lists, assets, servers, others⟩ := reads
  constructor
  case binds =>
    simp only [repeated_one, settingsOf, valuesOf_append]
    rw [keeps.binds_saved fitting lists, valuesOf_append, valuesOf_append]
  case upstreams =>
    simp only [repeated_one, settingsOf, List.flatMap_append] at servers ⊢
    rw [List.append_assoc, List.append_assoc]
    exact (List.perm_append_comm.trans (servers.append_left _)).append_left _
  case lists =>
    intro key list
    have entries := keeps.isEntry fitting list
    have written := keeps.lists_saved fitting lists list
    have again : argumentsOf key (before ++ saved ++ after) = argumentsOf key before ++
        argumentsOf key (before ++ managed ++ after) ++ argumentsOf key after := by
      rw [argumentsOf_append, argumentsOf_append, written]
    have own : ∀ value ∈ argumentsOf key before ++ argumentsOf key after, IsEntry value := by
      intro value membership
      apply entries
      rw [argumentsOf_append, argumentsOf_append]
      rcases List.mem_append.mp membership with first | last
      · exact List.mem_append_left _ (List.mem_append_left _ first)
      · exact List.mem_append_right _ last
    rw [List.forall_mem_append] at own
    rw [repeated_one, repeated_one, splitListExtra_settingsOf list own.1,
      splitListExtra_settingsOf list own.2, splitListExtra_settingsOf list entries, ← again]
    apply splitListExtra_settingsOf list
    rw [again, List.forall_mem_append, List.forall_mem_append]
    exact ⟨⟨own.1, entries⟩, own.2⟩
  case extras =>
    intro key noList
    by_cases emitted : key ∈ rowKeys
    · obtain ⟨row, listed, rfl⟩ := List.mem_map.mp emitted
      exact keeps.row_extra fitting lists listed noList
    · apply (others key emitted).trans
      by_cases asset : IsAssetKey key
      · exact keeps.last_rules key asset
      · have none : argumentsOf key rules = [] := by
          apply argumentsOf_eq_nil
          rintro directive membership rfl
          exact asset (assets directive membership)
        apply Eq.trans _ (keeps.unwritten key emitted asset)
        apply lastExtra_congr
        rw [argumentsOf_append, argumentsOf_append, argumentsOf_append, none, List.append_nil]
  case others =>
    apply BeginnerConfig.ext
    case extras | binds | upstreams => rfl
    case serverName => exact keeps.server_name_eq fitting lists
    case cacheSize | serveExpiredTtl | responseMode | speedCheckMode | logLevel =>
      exact keeps.scalar fitting lists (by decide) (by decide) (by decide) rfl
    all_goals exact lastYesno_saved lists (by decide) rfl

end

end SmartDnsPlusUi
