import SmartDnsPlusUi.Config.UpstreamPage

/-!
# What the settings pages contain

Every keyword of the settings is written at one place of one page, so a page
contains the lines of its keywords, one after the other.  A row of the table
below is a keyword with what is written for it.
-/

namespace SmartDnsPlusUi

open Text

/-! ### The keywords of the pages -/

/-- A keyword: a field of the settings, an extra that is written as it is, one
that is yes or no, one that is a list, or one that is written along with a
listener for TLS or HTTPS. -/
inductive SettingRow where
  | field (keyword : BeginnerKeyword) (key : String)
  | extra (key : String)
  | switch (key : String)
  | list (key : String)
  | certificate (key : String)
  deriving DecidableEq

def SettingRow.key : SettingRow → String
  | .field _ key | .extra key | .switch key | .list key | .certificate key => key

/-- How the parser reads the keyword. -/
def SettingRow.keyword : SettingRow → BeginnerKeyword
  | .field keyword _ => keyword
  | .list _ => .listExtra
  | .extra _ | .switch _ | .certificate _ => .extra

/-- What is written only with a listener for TLS or HTTPS. -/
def listenerRows : List SettingRow :=
  [.list "bind-tls", .list "bind-https", .certificate "bind-cert-file",
    .certificate "bind-cert-key-file", .certificate "bind-cert-generate",
    .certificate "bind-cert-san", .certificate "bind-cert-key-pass",
    .certificate "bind-cert-root-key-file", .certificate "bind-cert-validity-days"]

def serviceRows : List SettingRow :=
  [.field .serverName "server-name", .field .bind "bind", .list "bind-tcp"] ++ listenerRows ++
    [.field .responseMode "response-mode", .field .speedCheckMode "speed-check-mode",
      .field .mdnsLookup "mdns-lookup", .extra "user", .extra "socket-buff-size",
      .switch "no-daemon", .switch "restart-on-crash", .switch "expand-ptr-from-address",
      .extra "proxy-server", .extra "hosts-file", .extra "ca-file", .extra "ca-path",
      .list "conf-file"]

def performanceRows : List SettingRow :=
  [.field .cacheSize "cache-size", .field .prefetchDomain "prefetch-domain",
    .field .serveExpired "serve-expired", .field .serveExpiredTtl "serve-expired-ttl",
    .extra "cache-persist", .extra "cache-file", .extra "rr-ttl-min", .extra "rr-ttl-max",
    .extra "rr-ttl-reply-max", .extra "local-ttl", .extra "max-reply-ip-num",
    .extra "max-query-limit", .extra "tcp-idle-time", .extra "serve-expired-reply-ttl",
    .extra "serve-expired-prefetch-time",
    .field .dualstackIpSelection "dualstack-ip-selection",
    .extra "dualstack-ip-selection-threshold"]

def loggingRows : List SettingRow :=
  [.field .logLevel "log-level", .extra "log-file", .extra "log-size", .extra "log-num",
    .switch "log-console", .switch "log-syslog", .field .auditEnable "audit-enable",
    .extra "audit-file", .extra "audit-size", .extra "audit-num", .switch "audit-console"]

def networkRows : List SettingRow :=
  [.extra "force-qtype-SOA", .switch "force-AAAA-SOA", .switch "force-no-CNAME",
    .extra "edns-client-subnet", .extra "dns64", .extra "ddns-domain", .extra "local-domain",
    .extra "dnsmasq-lease-file"]

def settingRows : List SettingRow := serviceRows ++ performanceRows ++ loggingRows ++ networkRows

theorem nodup_settingRows : (settingRows.map SettingRow.key).Nodup := by decide +kernel

theorem beginnerKeyword_of_mem_settingRows : ∀ row ∈ settingRows,
    beginnerKeyword row.key = row.keyword := by decide +kernel

/-- Letters, digits and hyphens are no white space and start no comment or continuation. -/
theorem plain_of_keyChar {c : Char}
    (range : (45 ≤ c.toNat ∧ c.toNat ≤ 90) ∨ (97 ≤ c.toNat ∧ c.toNat ≤ 122)) :
    isWhitespace c = false ∧ c ≠ '#' ∧ c ≠ '\\' := by
  refine ⟨?_, ?_, ?_⟩
  · simp only [isWhitespace, Bool.or_eq_false_iff, Bool.and_eq_false_iff, decide_eq_false_iff_not,
      beq_eq_false_iff_ne]
    omega
  · rintro rfl
    revert range
    decide
  · rintro rfl
    revert range
    decide

theorem isKeyword_of_mem_settingRows : ∀ row ∈ settingRows,
    IsKeyword row.key.toList ∧ '\\' ∉ row.key.toList := by
  have checked : ∀ row ∈ settingRows, row.key ≠ "" ∧ row.key.toList.all (fun c =>
      (45 ≤ c.toNat && c.toNat ≤ 90) || (97 ≤ c.toNat && c.toNat ≤ 122)) = true := by
    decide +kernel
  intro row membership
  obtain ⟨nonempty, range⟩ := checked row membership
  simp only [List.all_eq_true, Bool.or_eq_true, Bool.and_eq_true, decide_eq_true_eq] at range
  have plain := fun c present => plain_of_keyChar (range c present)
  refine ⟨⟨⟨?_, fun c present => (plain c present).1⟩, ?_⟩, ?_⟩
  · exact fun empty => nonempty (String.toList_eq_nil_iff.mp empty)
  · exact fun hash => (plain '#' (List.mem_of_mem_head? hash)).2.1 rfl
  · exact fun present => (plain '\\' present).2.2 rfl

/-! ### The values written for a keyword -/

/-- An entry for a TLS or HTTPS listener is listed. -/
def HasTlsListener (config : BeginnerConfig) : Prop :=
  splitListExtra config "bind-tls" ≠ [] ∨ splitListExtra config "bind-https" ≠ []

instance (config : BeginnerConfig) : Decidable (HasTlsListener config) :=
  inferInstanceAs (Decidable (_ ∨ _))

/-- The values that are not blank, trimmed. -/
def filled (values : List Text) : List Text := (values.filter (trim · ≠ [])).map trim

def orDefaultValue (value defaultValue : Text) : Text :=
  if trim value = [] then defaultValue else trim value

def writtenBinds (config : BeginnerConfig) : List Text :=
  if config.binds = [] then ["[::]:53"] else config.binds

def fieldValues (config : BeginnerConfig) : BeginnerKeyword → List Text
  | .serverName => filled [config.serverName]
  | .bind => filled (writtenBinds config)
  | .cacheSize => [orDefaultValue config.cacheSize "32768"]
  | .prefetchDomain => [yesno config.prefetchDomain]
  | .serveExpired => [yesno config.serveExpired]
  | .serveExpiredTtl => [orDefaultValue config.serveExpiredTtl "86400"]
  | .responseMode => [orDefaultValue config.responseMode "first-ping"]
  | .speedCheckMode => [orDefaultValue config.speedCheckMode "ping,tcp:80,tcp:443"]
  | .dualstackIpSelection => [yesno config.dualstackIpSelection]
  | .logLevel => [orDefaultValue config.logLevel "info"]
  | .mdnsLookup => [yesno config.mdnsLookup]
  | .auditEnable => [yesno config.auditEnable]
  | .upstream | .listExtra | .extra => []

def extraValues (config : BeginnerConfig) (key : String) : List Text :=
  filled (config.extras key).toList

def SettingRow.values (config : BeginnerConfig) : SettingRow → List Text
  | .field keyword _ => fieldValues config keyword
  | .extra key => extraValues config key
  | .switch key => (extraValues config key).map fun value => yesno (parseYesno value false)
  | .list key => splitListExtra config key
  | .certificate key => if HasTlsListener config then extraValues config key else []

def SettingRow.lines (config : BeginnerConfig) (row : SettingRow) : List Text :=
  (row.values config).map (keyed row.key)

/-! ### The renderers' helpers -/

section

variable (config : BeginnerConfig) (key : String)

theorem isSolid_splitListExtra : ∀ item ∈ splitListExtra config key, Trimmed item ∧ item ≠ [] := by
  intro item membership
  unfold splitListExtra at membership
  split at membership
  · simp only [List.mem_filter, List.mem_map, decide_eq_true_eq] at membership
    obtain ⟨⟨raw, -, rfl⟩, nonempty, -⟩ := membership
    exact ⟨trimmed_trim raw, nonempty⟩
  · cases membership

theorem filled_of_trimmed {values : List Text}
    (trimmed : ∀ value ∈ values, Trimmed value ∧ value ≠ []) : filled values = values := by
  have listed : values.filter (trim · ≠ []) = values := by
    rw [List.filter_eq_self]
    intro value membership
    simpa [trim_eq_self (trimmed value membership).1] using (trimmed value membership).2
  rw [filled, listed]
  conv_rhs => rw [← List.map_id values]
  exact List.map_congr_left fun value membership => trim_eq_self (trimmed value membership).1

theorem pushEach_eq (values : List Text) :
    pushEach key values = (filled values).map (keyed key) := by
  rw [pushEach, filled, List.map_map]
  rfl

theorem pushEach_splitListExtra :
    pushEach key (splitListExtra config key) = (SettingRow.list key).lines config := by
  rw [pushEach_eq, filled_of_trimmed (isSolid_splitListExtra config key)]
  rfl

theorem pushExtraIfPresent_eq :
    pushExtraIfPresent config key = (SettingRow.extra key).lines config := by
  rw [pushExtraIfPresent, SettingRow.lines, SettingRow.values, extraValues]
  cases config.extras key with
  | none => rfl
  | some value => by_cases blank : trim value = [] <;> simp [filled, blank, SettingRow.key]

theorem pushExtraBoolIfPresent_eq :
    pushExtraBoolIfPresent config key = (SettingRow.switch key).lines config := by
  rw [pushExtraBoolIfPresent, SettingRow.lines, SettingRow.values, extraValues]
  cases config.extras key with
  | none => rfl
  | some value => by_cases blank : trim value = [] <;> simp [filled, blank, SettingRow.key]

theorem lines_certificate (listens : HasTlsListener config) :
    (SettingRow.certificate key).lines config = (SettingRow.extra key).lines config := by
  simp [SettingRow.lines, SettingRow.values, SettingRow.key, listens]

theorem lines_listenerRows (noListener : ¬ HasTlsListener config) :
    listenerRows.flatMap (·.lines config) = [] := by
  obtain ⟨noTls, noHttps⟩ := not_or.mp noListener
  rw [not_not] at noTls noHttps
  simp [listenerRows, SettingRow.lines, SettingRow.values, noListener, noTls, noHttps]

end

/-! ### Lines other than banners -/

def withoutBanners (ls : List Text) : List Text := ls.filter fun line => ¬ IsBanner line

theorem withoutBanners_append (ls rest : List Text) :
    withoutBanners (ls ++ rest) = withoutBanners ls ++ withoutBanners rest := List.filter_append ..

theorem withoutBanners_of_banners {ls : List Text} (banners : ∀ line ∈ ls, IsBanner line) :
    withoutBanners ls = [] := by
  rw [withoutBanners, List.filter_eq_nil_iff]
  intro line membership
  simpa using banners line membership

theorem withoutBanners_pushLine {line : Text} (banner : IsBanner line) :
    withoutBanners (pushLine line) = [] :=
  withoutBanners_of_banners (List.forall_mem_singleton.mpr banner)

theorem contentLines_withoutBanners (ls : List Text) :
    contentLines (withoutBanners ls) = contentLines ls := by
  induction ls with
  | nil => rfl
  | cons line ls inductionHypothesis =>
      rw [contentLines_cons, ← inductionHypothesis]
      by_cases banner : IsBanner line
      · have skipped : contentLines [line] = [] := contentLines_of_skipped (by simp [banner.1])
        simp [withoutBanners, banner, skipped]
      · rw [withoutBanners, List.filter_cons_of_pos (by simpa using banner), contentLines_cons]
        rfl

theorem not_mem_of_withoutBanners {ls : List Text}
    (free : ∀ line ∈ withoutBanners ls, '\n' ∉ line) : ∀ line ∈ ls, '\n' ∉ line := by
  intro line membership
  by_cases banner : IsBanner line
  · exact banner.2
  · exact free line (List.mem_filter.mpr ⟨membership, by simpa using banner⟩)

/-- A line that starts with a keyword is no banner. -/
theorem withoutBanners_rows (config : BeginnerConfig) {rows : List SettingRow}
    (listed : rows ⊆ settingRows) :
    withoutBanners (rows.flatMap (·.lines config)) = rows.flatMap (·.lines config) := by
  rw [withoutBanners, List.filter_eq_self]
  intro line membership
  obtain ⟨row, rowMem, lineMem⟩ := List.mem_flatMap.mp membership
  obtain ⟨value, -, rfl⟩ := List.mem_map.mp lineMem
  have keyword := (isKeyword_of_mem_settingRows row (listed rowMem)).1
  have noComment := keyword.no_comment
  obtain ⟨c, rest, equality⟩ := List.exists_cons_of_ne_nil keyword.token.1
  rw [equality, List.head?_cons] at noComment
  simp [IsBanner, keyed, equality, noComment]

/-! ### The pages -/

/-- The page contains the lines of these rows. -/
def ListsSettings (config : BeginnerConfig) (rows : List SettingRow) (page : Text) : Prop :=
  ∃ ls, page = unlines ls ∧
    withoutBanners ls = withoutBanners (rows.flatMap (·.lines config))

theorem withoutBanners_pageHeader {title : Text} (banner : IsBanner title) :
    withoutBanners (pageHeader title) = [] := by
  have producer : IsBanner "#  由 SmartDNS Plus UI 生成" := by decide
  apply withoutBanners_of_banners
  simp only [pageHeader, List.forall_mem_cons]
  exact ⟨isBanner_ruler, banner, producer, isBanner_ruler, by decide, List.forall_mem_nil _⟩

theorem listsSettings_performance (config : BeginnerConfig) :
    ListsSettings config performanceRows (renderPerformanceConfig config) := by
  have cacheSize : pushKv "cache-size" config.cacheSize "32768" =
      (SettingRow.field .cacheSize "cache-size").lines config := rfl
  have prefetch : pushBool "prefetch-domain" config.prefetchDomain =
      (SettingRow.field .prefetchDomain "prefetch-domain").lines config := rfl
  have serveExpired : pushBool "serve-expired" config.serveExpired =
      (SettingRow.field .serveExpired "serve-expired").lines config := rfl
  have serveExpiredTtl : pushKv "serve-expired-ttl" config.serveExpiredTtl "86400" =
      (SettingRow.field .serveExpiredTtl "serve-expired-ttl").lines config := rfl
  have dualstack : pushBool "dualstack-ip-selection" config.dualstackIpSelection =
      (SettingRow.field .dualstackIpSelection "dualstack-ip-selection").lines config := rfl
  refine ⟨_, join_append_nil _, ?_⟩
  rw [cacheSize, prefetch, serveExpired, serveExpiredTtl, dualstack]
  simp (disch := decide) only [pushExtraIfPresent_eq, withoutBanners_append,
    withoutBanners_pushLine, withoutBanners_pageHeader]
  simp only [performanceRows, List.flatMap_cons, List.flatMap_nil, withoutBanners_append,
    List.append_assoc, List.nil_append, List.append_nil]

theorem listsSettings_logging (config : BeginnerConfig) :
    ListsSettings config loggingRows (renderLoggingConfig config) := by
  have logLevel : pushKv "log-level" config.logLevel "info" =
      (SettingRow.field .logLevel "log-level").lines config := rfl
  have audit : pushBool "audit-enable" config.auditEnable =
      (SettingRow.field .auditEnable "audit-enable").lines config := rfl
  refine ⟨_, join_append_nil _, ?_⟩
  rw [logLevel, audit]
  simp (disch := decide) only [pushExtraIfPresent_eq, pushExtraBoolIfPresent_eq,
    withoutBanners_append, withoutBanners_pushLine, withoutBanners_pageHeader]
  simp only [loggingRows, List.flatMap_cons, List.flatMap_nil, withoutBanners_append,
    List.append_assoc, List.nil_append, List.append_nil]

theorem listsSettings_network (config : BeginnerConfig) :
    ListsSettings config networkRows (renderNetworkConfig config) := by
  refine ⟨_, join_append_nil _, ?_⟩
  simp (disch := decide) only [pushExtraIfPresent_eq, pushExtraBoolIfPresent_eq,
    withoutBanners_append, withoutBanners_pageHeader]
  simp only [networkRows, List.flatMap_cons, List.flatMap_nil, withoutBanners_append,
    List.append_assoc, List.nil_append, List.append_nil]

theorem withoutBanners_confFiles (config : BeginnerConfig) :
    withoutBanners (if splitListExtra config "conf-file" ≠ [] then
      pushLine [] ++ pushLine "# ── 自定义引入配置 ──" ++
        (splitListExtra config "conf-file").map (keyed "conf-file")
    else []) = withoutBanners ((SettingRow.list "conf-file").lines config) := by
  have same : (splitListExtra config "conf-file").map (keyed "conf-file") =
      (SettingRow.list "conf-file").lines config := rfl
  by_cases empty : splitListExtra config "conf-file" = []
  · rw [if_neg (not_not.mpr empty), ← same, empty]
    rfl
  · rw [if_pos empty, same]
    simp (disch := decide) only [withoutBanners_append, withoutBanners_pushLine,
      List.nil_append]

theorem listsSettings_service (config : BeginnerConfig) :
    ListsSettings config serviceRows (renderServiceConfig config) := by
  have serverName : (if trim config.serverName ≠ [] then
      [keyed "server-name" (trim config.serverName)] else []) =
        (SettingRow.field .serverName "server-name").lines config := by
    by_cases blank : trim config.serverName = [] <;>
      simp [SettingRow.lines, SettingRow.values, SettingRow.key, fieldValues, filled, blank]
  have binds : pushEach "bind" (if config.binds = [] then pushLine "[::]:53" else config.binds) =
      (SettingRow.field .bind "bind").lines config := pushEach_eq "bind" _
  have responseMode : pushKv "response-mode" config.responseMode "first-ping" =
      (SettingRow.field .responseMode "response-mode").lines config := rfl
  have speedCheckMode : pushKv "speed-check-mode" config.speedCheckMode "ping,tcp:80,tcp:443" =
      (SettingRow.field .speedCheckMode "speed-check-mode").lines config := rfl
  have mdns : pushBool "mdns-lookup" config.mdnsLookup =
      (SettingRow.field .mdnsLookup "mdns-lookup").lines config := rfl
  refine ⟨_, join_append_nil _, ?_⟩
  rw [serverName, binds, responseMode, speedCheckMode, mdns]
  simp (disch := decide) only [pushExtraIfPresent_eq, pushExtraBoolIfPresent_eq,
    pushEach_splitListExtra, withoutBanners_append, withoutBanners_pushLine,
    withoutBanners_pageHeader, withoutBanners_confFiles]
  rw [serviceRows, List.flatMap_append, List.flatMap_append]
  simp only [List.flatMap_cons, List.flatMap_nil, withoutBanners_append, List.append_assoc,
    List.nil_append, List.append_nil]
  by_cases listens : HasTlsListener config
  · have gate : splitListExtra config "bind-tls" ≠ [] ∨ splitListExtra config "bind-https" ≠ [] :=
      listens
    rw [if_pos gate]
    simp (disch := decide) only [withoutBanners_append, withoutBanners_pushLine]
    simp only [listenerRows, lines_certificate config _ listens, List.flatMap_cons,
      List.flatMap_nil, withoutBanners_append, List.append_assoc, List.nil_append, List.append_nil]
  · have gate : ¬ (splitListExtra config "bind-tls" ≠ [] ∨
        splitListExtra config "bind-https" ≠ []) := listens
    rw [if_neg gate, lines_listenerRows config listens]

end SmartDnsPlusUi
