import SmartDnsPlusUi.Config.SettingsReread

/-!
# The settings, written and read again

The five pages yield the settings that they were rendered from.  Some settings
are not written as they are: without an address to bind to the default is
written, the extras of a certificate need a listener for TLS or HTTPS, an empty
extra is left out, and so are the entries of a list that are commented out.
-/

namespace SmartDnsPlusUi

open Text

/-- A list of entries on lines of their own. -/
def IsList (value : Text) : Prop :=
  value = join ['\n'] (lines value) ∧
    ∀ entry ∈ lines value, IsSetting entry ∧ entry ≠ [] ∧ ',' ∉ entry

/-- An extra that the pages have a place for, with a value of its kind. -/
def IsEmittedExtra (key : String) (value : Text) : Prop :=
  SettingRow.list key ∈ settingRows ∧ IsList value ∨
    SettingRow.switch key ∈ settingRows ∧ (value = "yes" ∨ value = "no") ∨
    (SettingRow.extra key ∈ settingRows ∨ SettingRow.certificate key ∈ settingRows) ∧
      IsSetting value

/-- Trimmed values on one line, of which none continues its line. -/
structure AreSettings (config : BeginnerConfig) : Prop where
  server_name : IsSetting config.serverName
  binds : ∀ bind ∈ config.binds, IsSetting bind ∧ bind ≠ []
  cache_size : IsSetting config.cacheSize ∧ config.cacheSize ≠ []
  serve_expired_ttl : IsSetting config.serveExpiredTtl ∧ config.serveExpiredTtl ≠ []
  response_mode : IsSetting config.responseMode ∧ config.responseMode ≠ []
  speed_check_mode : IsSetting config.speedCheckMode ∧ config.speedCheckMode ≠ []
  log_level : IsSetting config.logLevel ∧ config.logLevel ≠ []
  upstreams : ∀ upstream ∈ config.upstreams, FitsLine upstream
  extras : ∀ key value, config.extras key = some value → IsEmittedExtra key value

/-- The entries of a list that are not commented out. -/
def uncommented (value : Text) : Text :=
  join ['\n'] ((lines value).filter (·.head? ≠ some '#'))

/-- What is left of an extra on the pages. -/
def writtenExtra (config : BeginnerConfig) (key : String) (value : Text) : Option Text :=
  let written := if SettingRow.list key ∈ settingRows then uncommented value else value
  if written = [] ∨ SettingRow.certificate key ∈ settingRows ∧ ¬ HasTlsListener config then none
  else some written

def writtenExtras (config : BeginnerConfig) (key : String) : Option Text :=
  (config.extras key).bind (writtenExtra config key)

/-! ### The values written -/

section

variable {config : BeginnerConfig} {key : String} {value : Text}

theorem AreSettings.list (settings : AreSettings config)
    (listed : SettingRow.list key ∈ settingRows) (found : config.extras key = some value) :
    IsList value := by
  have differs : ∀ row ∈ settingRows, row.key = key → row = .list key :=
    fun row membership => eq_of_key_eq membership listed
  rcases settings.extras key value found with ⟨-, list⟩ | ⟨switch, -⟩ | ⟨extra | certificate, -⟩
  · exact list
  · cases differs _ switch rfl
  · cases differs _ extra rfl
  · cases differs _ certificate rfl

theorem AreSettings.switch (settings : AreSettings config)
    (listed : SettingRow.switch key ∈ settingRows) (found : config.extras key = some value) :
    value = "yes" ∨ value = "no" := by
  have differs : ∀ row ∈ settingRows, row.key = key → row = .switch key :=
    fun row membership => eq_of_key_eq membership listed
  rcases settings.extras key value found with ⟨list, -⟩ | ⟨-, yesOrNo⟩ | ⟨extra | certificate, -⟩
  · cases differs _ list rfl
  · exact yesOrNo
  · cases differs _ extra rfl
  · cases differs _ certificate rfl

theorem AreSettings.extra (settings : AreSettings config)
    (listed : SettingRow.extra key ∈ settingRows ∨ SettingRow.certificate key ∈ settingRows)
    (found : config.extras key = some value) : IsSetting value := by
  have differs : ∀ row ∈ settingRows, row.key = key →
      row = .extra key ∨ row = .certificate key := by
    intro row membership same
    rcases listed with extra | certificate
    · exact .inl (eq_of_key_eq membership extra same)
    · exact .inr (eq_of_key_eq membership certificate same)
  rcases settings.extras key value found with ⟨list, -⟩ | ⟨switch, -⟩ | ⟨-, setting⟩
  · rcases differs _ list rfl with same | same <;> cases same
  · rcases differs _ switch rfl with same | same <;> cases same
  · exact setting

theorem splitListExtra_of_isList (found : config.extras key = some value) (list : IsList value) :
    splitListExtra config key = (lines value).filter (·.head? ≠ some '#') := by
  apply splitListExtra_of_entries found
  intro entry membership
  obtain ⟨setting, nonempty, noComma⟩ := list.2 entry membership
  exact ⟨setting.1, nonempty, noComma⟩

theorem AreSettings.writtenBinds (settings : AreSettings config) :
    ∀ bind ∈ writtenBinds config, IsSetting bind ∧ bind ≠ [] := by
  unfold SmartDnsPlusUi.writtenBinds
  split
  · decide
  · exact settings.binds

/-- The values written for a row fit on lines. -/
theorem AreSettings.rowsFit (settings : AreSettings config) : RowsFit config := by
  have kept : ∀ {values : List Text}, (∀ value ∈ values, IsSetting value) →
      ∀ value ∈ filled values, IsSetting value ∧ value ≠ [] := by
    intro values fit value membership
    obtain ⟨raw, rawMem, rfl⟩ := List.mem_map.mp membership
    obtain ⟨listed, nonempty⟩ := List.mem_filter.mp rawMem
    rw [trim_eq_self (fit raw listed).1]
    exact ⟨fit raw listed, by simpa [trim_eq_self (fit raw listed).1] using nonempty⟩
  have scalar : ∀ {value defaultValue : Text}, IsSetting value ∧ value ≠ [] →
      ∀ written ∈ [orDefaultValue value defaultValue], IsSetting written ∧ written ≠ [] := by
    intro value defaultValue fits written membership
    rw [List.mem_singleton.mp membership, orDefaultValue, trim_eq_self fits.1.1, if_neg fits.2]
    exact fits
  have switch : ∀ (value : Bool), ∀ written ∈ [yesno value], IsSetting written ∧ written ≠ [] := by
    decide
  have extra : ∀ key, (∀ value, config.extras key = some value → IsSetting value) →
      ∀ value ∈ extraValues config key, IsSetting value ∧ value ≠ [] := by
    intro key fits
    apply kept
    intro value membership
    exact fits value (Option.mem_toList.mp membership)
  intro row membership value valueMem
  cases row with
  | field keyword key =>
      cases keyword with
      | serverName =>
          exact kept (List.forall_mem_singleton.mpr settings.server_name) value valueMem
      | bind => exact kept (fun bind listed => (settings.writtenBinds bind listed).1) value valueMem
      | cacheSize => exact scalar settings.cache_size value valueMem
      | serveExpiredTtl => exact scalar settings.serve_expired_ttl value valueMem
      | responseMode => exact scalar settings.response_mode value valueMem
      | speedCheckMode => exact scalar settings.speed_check_mode value valueMem
      | logLevel => exact scalar settings.log_level value valueMem
      | prefetchDomain | serveExpired | dualstackIpSelection | mdnsLookup | auditEnable =>
          exact switch _ value valueMem
      | upstream | listExtra | extra => cases valueMem
  | extra key =>
      exact extra key (fun value => settings.extra (.inl membership)) value valueMem
  | certificate key =>
      rw [SettingRow.values] at valueMem
      split at valueMem
      · exact extra key (fun value => settings.extra (.inr membership)) value valueMem
      · cases valueMem
  | switch key =>
      obtain ⟨raw, -, rfl⟩ := List.mem_map.mp valueMem
      exact switch _ _ List.mem_cons_self
  | list key =>
      cases found : config.extras key with
      | none => simp [SettingRow.values, splitListExtra, found] at valueMem
      | some list =>
          have isList := settings.list membership found
          rw [SettingRow.values, splitListExtra_of_isList found isList] at valueMem
          have entry := isList.2 value (List.mem_of_mem_filter valueMem)
          exact ⟨entry.1, entry.2.1⟩

/-! ### The extras -/

theorem extraValues_of_isSetting (found : config.extras key = some value)
    (setting : IsSetting value) :
    extraValues config key = if value = [] then [] else [value] := by
  by_cases empty : value = []
  · simp [extraValues, filled, found, empty]
  · simp [extraValues, filled, found, empty, trim_eq_self setting.1]

theorem extraValues_of_none (absent : config.extras key = none) : extraValues config key = [] := by
  simp [extraValues, filled, absent]

theorem not_mem_of_key_eq {row other : SettingRow} (listed : row ∈ settingRows)
    (same : other.key = row.key) (differs : other ≠ row) : other ∉ settingRows :=
  fun membership => differs (eq_of_key_eq membership listed same)

theorem writtenExtra_extra (listed : SettingRow.extra key ∈ settingRows) :
    writtenExtra config key value = if value = [] then none else some value := by
  have noList : SettingRow.list key ∉ settingRows :=
    not_mem_of_key_eq listed rfl (by simp)
  have noCertificate : SettingRow.certificate key ∉ settingRows :=
    not_mem_of_key_eq listed rfl (by simp)
  simp [writtenExtra, noList, noCertificate]

theorem writtenExtra_switch (listed : SettingRow.switch key ∈ settingRows) :
    writtenExtra config key value = if value = [] then none else some value := by
  have noList : SettingRow.list key ∉ settingRows :=
    not_mem_of_key_eq listed rfl (by simp)
  have noCertificate : SettingRow.certificate key ∉ settingRows :=
    not_mem_of_key_eq listed rfl (by simp)
  simp [writtenExtra, noList, noCertificate]

theorem writtenExtra_certificate (listed : SettingRow.certificate key ∈ settingRows) :
    writtenExtra config key value =
      if value = [] ∨ ¬ HasTlsListener config then none else some value := by
  have noList : SettingRow.list key ∉ settingRows :=
    not_mem_of_key_eq listed rfl (by simp)
  simp [writtenExtra, noList, listed]

theorem writtenExtra_list (listed : SettingRow.list key ∈ settingRows) :
    writtenExtra config key value =
      if uncommented value = [] then none else some (uncommented value) := by
  have noCertificate : SettingRow.certificate key ∉ settingRows :=
    not_mem_of_key_eq listed rfl (by simp)
  simp [writtenExtra, noCertificate, listed]

theorem AreSettings.extras_none (settings : AreSettings config)
    (absent : SettingRow.list key ∉ settingRows ∧ SettingRow.switch key ∉ settingRows ∧
      SettingRow.extra key ∉ settingRows ∧ SettingRow.certificate key ∉ settingRows) :
    config.extras key = none := by
  cases found : config.extras key with
  | none => rfl
  | some value =>
      rcases settings.extras key value found with ⟨list, -⟩ | ⟨switch, -⟩ | ⟨extra | certificate, -⟩
      · exact absurd list absent.1
      · exact absurd switch absent.2.1
      · exact absurd extra absent.2.2.1
      · exact absurd certificate absent.2.2.2

theorem lastExtra_settings (settings : AreSettings config) (key : String) :
    lastExtra key (directives (renderedSettings config)) = writtenExtras config key := by
  have fits := settings.rowsFit
  have fitting := settings.upstreams
  by_cases emitted : key ∈ rowKeys
  · obtain ⟨row, listed, rfl⟩ := List.mem_map.mp emitted
    have reads := beginnerKeyword_of_mem_settingRows row listed
    have arguments := (listsRows_renderedSettings fits fitting).argumentsOf fits listed
    generalize directives (renderedSettings config) = ds at arguments
    cases row with
    | field keyword key =>
        have absent : config.extras key = none := by
          apply settings.extras_none
          refine ⟨?_, ?_, ?_, ?_⟩ <;> exact not_mem_of_key_eq listed rfl (by simp)
        rw [lastExtra_field reads arguments]
        simp [writtenExtras, SettingRow.key, absent]
    | extra key =>
        rw [lastExtra_eq_getLast? reads, arguments]
        cases found : config.extras key with
        | none =>
            have none := extraValues_of_none found
            simp [SettingRow.values, SettingRow.key, writtenExtras, none, found]
        | some value =>
            have setting := settings.extra (.inl listed) found
            simp only [SettingRow.values, SettingRow.key, writtenExtras, found, Option.bind_some,
              writtenExtra_extra listed, extraValues_of_isSetting found setting]
            split <;> rfl
    | switch key =>
        rw [lastExtra_eq_getLast? reads, arguments]
        cases found : config.extras key with
        | none =>
            have none := extraValues_of_none found
            simp [SettingRow.values, SettingRow.key, writtenExtras, none, found]
        | some value =>
            have yesOrNo := settings.switch listed found
            have setting : IsSetting value := by
              rcases yesOrNo with rfl | rfl <;> decide
            simp only [SettingRow.values, SettingRow.key, writtenExtras, found, Option.bind_some,
              writtenExtra_switch listed, extraValues_of_isSetting found setting]
            rcases yesOrNo with rfl | rfl <;> decide
    | certificate key =>
        rw [lastExtra_eq_getLast? reads, arguments]
        cases found : config.extras key with
        | none =>
            have none := extraValues_of_none found
            simp [SettingRow.values, SettingRow.key, writtenExtras, none, found]
        | some value =>
            have setting := settings.extra (.inr listed) found
            simp only [SettingRow.values, SettingRow.key, writtenExtras, found, Option.bind_some,
              writtenExtra_certificate listed, extraValues_of_isSetting found setting]
            by_cases listens : HasTlsListener config <;> by_cases empty : value = [] <;>
              simp [listens, empty]
    | list key =>
        have filledIn : ∀ value ∈ splitListExtra config key, value ≠ [] :=
          fun value membership => (isSolid_splitListExtra config key value membership).2
        rw [lastExtra_eq_join reads, arguments]
        cases found : config.extras key with
        | none => simp [SettingRow.values, SettingRow.key, writtenExtras, splitListExtra, found]
        | some value =>
            have entries := splitListExtra_of_isList found (settings.list listed found)
            rw [entries] at filledIn
            simp only [SettingRow.values, SettingRow.key, writtenExtras, found, Option.bind_some,
              writtenExtra_list listed, entries]
            by_cases empty : (lines value).filter (·.head? ≠ some '#') = []
            · have blank : uncommented value = [] := by
                rw [uncommented, empty]
                rfl
              rw [if_pos empty, if_pos blank]
            · have full : uncommented value ≠ [] := join_full_ne_nil _ filledIn empty
              rw [if_neg empty, if_neg full]
              rfl
  · have absent : ∀ row ∈ settingRows, row.key ≠ key :=
      fun row membership same => emitted (List.mem_map.mpr ⟨row, membership, same⟩)
    have unset : config.extras key = none := by
      apply settings.extras_none
      refine ⟨?_, ?_, ?_, ?_⟩ <;> exact fun membership => absent _ membership rfl
    rw [lastExtra_of_not_mem fits fitting emitted]
    simp [writtenExtras, unset]

theorem extras_renderedSettings (settings : AreSettings config) :
    (parseBeginnerConfig (renderedSettings config)).extras = writtenExtras config := by
  have extras := funext (lastExtra_settings settings)
  rw [parseBeginnerConfig_eq, settingsOf, extras]

end

/-! ### The whole -/

/-- Read again, the five pages yield the settings. -/
theorem parse_renderedSettings {config : BeginnerConfig} (settings : AreSettings config) :
    { parseBeginnerConfig (renderedSettings config) with upstreams := config.upstreams } =
      { config with binds := writtenBinds config, extras := writtenExtras config } := by
  have fits := settings.rowsFit
  have fitting := settings.upstreams
  have values : ∀ keyword ∉ [BeginnerKeyword.upstream, .listExtra, .extra],
      valuesOf keyword (directives (renderedSettings config)) = fieldValues config keyword :=
    fun keyword => (listsRows_renderedSettings fits fitting).valuesOf
  have extras := funext (lastExtra_settings settings)
  rw [parseBeginnerConfig_eq, settingsOf, extras]
  generalize directives (renderedSettings config) = ds at values
  have scalar : ∀ {keyword value} defaultValue,
      keyword ∉ [BeginnerKeyword.upstream, .listExtra, .extra] → IsSetting value ∧ value ≠ [] →
      fieldValues config keyword = [orDefaultValue value defaultValue] →
      lastValue keyword defaultValue ds = value := by
    intro keyword value defaultValue field fits written
    rw [lastValue, values keyword field, written, orDefaultValue, trim_eq_self fits.1.1,
      if_neg fits.2]
    rfl
  have switch : ∀ {keyword value} defaultValue fallback,
      keyword ∉ [BeginnerKeyword.upstream, .listExtra, .extra] →
      fieldValues config keyword = [yesno value] →
      lastYesno keyword defaultValue fallback ds = value := by
    intro keyword value defaultValue fallback field written
    rw [lastYesno, values keyword field, written]
    exact parseYesno_yesno value fallback
  have binds : valuesOf .bind ds = writtenBinds config := by
    rw [values .bind (by decide), fieldValues]
    exact filled_of_trimmed fun bind membership =>
      ⟨(settings.writtenBinds bind membership).1.1, (settings.writtenBinds bind membership).2⟩
  have serverName : lastValue .serverName [] ds = config.serverName := by
    rw [lastValue, values .serverName (by decide), fieldValues]
    by_cases empty : config.serverName = []
    · simp [filled, empty]
    · simp [filled, empty, trim_eq_self settings.server_name.1]
  rw [serverName, binds, scalar _ (by decide) settings.cache_size rfl,
    scalar _ (by decide) settings.serve_expired_ttl rfl,
    scalar _ (by decide) settings.response_mode rfl,
    scalar _ (by decide) settings.speed_check_mode rfl,
    scalar _ (by decide) settings.log_level rfl,
    switch _ _ (by decide) rfl, switch _ _ (by decide) rfl, switch _ _ (by decide) rfl,
    switch _ _ (by decide) rfl, switch _ _ (by decide) rfl]

/-! ### A certificate with and without a listener -/

def certificateSettings (listeners : Option Text) : BeginnerConfig :=
  { defaultSettings with
    binds := ["[::]:53"]
    upstreams := [{ kind := "server", value := "1.1.1.1" }]
    extras := fun key =>
      if key = "bind-tls" then listeners
      else if key = "bind-cert-file" then some "/etc/server.crt"
      else none }

theorem scalars_defaultSettings : ∀ value ∈ [defaultSettings.cacheSize,
    defaultSettings.serveExpiredTtl, defaultSettings.responseMode, defaultSettings.speedCheckMode,
    defaultSettings.logLevel], IsSetting value ∧ value ≠ [] := by decide

theorem areSettings_certificateSettings {listeners : Option Text}
    (lists : ∀ value, listeners = some value → IsList value) :
    AreSettings (certificateSettings listeners) := by
  have scalar := scalars_defaultSettings
  simp only [List.forall_mem_cons] at scalar
  obtain ⟨cacheSize, serveExpiredTtl, responseMode, speedCheckMode, logLevel, -⟩ := scalar
  have unnamed : IsSetting [] := by decide
  have binds : ∀ bind ∈ [("[::]:53" : Text)], IsSetting bind ∧ bind ≠ [] := by decide
  have server : ∀ argument ∈ upstreamArguments { kind := "server", value := "1.1.1.1" },
      IsSetting argument := by decide
  refine ⟨unnamed, binds, cacheSize, serveExpiredTtl, responseMode, speedCheckMode, logLevel,
    List.forall_mem_singleton.mpr server, ?_⟩
  intro key value found
  by_cases tls : key = "bind-tls"
  · subst tls
    exact .inl ⟨by decide, lists value found⟩
  · by_cases certificate : key = "bind-cert-file"
    · subst certificate
      obtain rfl := Option.some.inj found
      exact .inr (.inr ⟨.inr (by decide), by decide⟩)
    · rw [certificateSettings] at found
      dsimp only at found
      rw [if_neg tls, if_neg certificate] at found
      cases found

theorem parse_renderedSettings_example :
    { parseBeginnerConfig (renderedSettings (certificateSettings (some "[::]:853"))) with
      upstreams := (certificateSettings (some "[::]:853")).upstreams } =
      { certificateSettings (some "[::]:853") with
        binds := writtenBinds (certificateSettings (some "[::]:853"))
        extras := writtenExtras (certificateSettings (some "[::]:853")) } :=
  parse_renderedSettings <| areSettings_certificateSettings fun _ found =>
    Option.some.inj found ▸ ⟨by decide, by decide⟩

theorem not_parse_renderedSettings :
    ¬ ∀ (config : BeginnerConfig) (rulesText : Text),
      (validateBeginnerConfig config rulesText).ok = true → AreSettings config →
      (parseBeginnerConfig (renderedSettings config)).extras = config.extras := by
  intro all
  have settings : AreSettings (certificateSettings none) :=
    areSettings_certificateSettings fun _ found => by cases found
  have same := all (certificateSettings none) [] (by decide) settings
  rw [extras_renderedSettings settings] at same
  exact absurd (congrFun same "bind-cert-file") (by decide)

end SmartDnsPlusUi
