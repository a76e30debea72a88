import SmartDnsPlusUi.Json.Compact
import SmartDnsPlusUi.Server.ApiMsg
import SmartDnsPlusUi.Server.Settings

/-!
# The messages of the API are read back

What one function wrote the other reads, field by field, except for two of them:
the type of an upstream server that is not known has a name that is not read, and
the field `refer` of the owner of a domain is not written.
-/

namespace SmartDnsPlusUi.ApiMsg

open Text Json

/-! ### Lists -/

theorem mapM_eq_ok {Item Result : Type} {parse : Item → Except Text Result} {items : List Item}
    {read : Item → Result} (each : ∀ item ∈ items, parse item = .ok (read item)) :
    items.mapM parse = .ok (items.map read) := by
  induction items with
  | nil => rfl
  | cons item items inductionHypothesis =>
      rw [List.forall_mem_cons] at each
      rw [List.mapM_cons, each.1, inductionHypothesis each.2]
      rfl

theorem exists_ok_of_mapM {Item Result : Type} {parse : Item → Except Text Result}
    {items : List Item} {results : List Result} (read : items.mapM parse = .ok results) :
    ∀ item ∈ items, ∃ result, parse item = .ok result := by
  induction items generalizing results with
  | nil => simp
  | cons item items inductionHypothesis =>
      rw [List.mapM_cons] at read
      cases first : parse item with
      | error message =>
          rw [first] at read
          cases read
      | ok result =>
          rw [first] at read
          cases rest : items.mapM parse with
          | error message =>
              rw [rest] at read
              cases read
          | ok results =>
              exact List.forall_mem_cons.mpr ⟨⟨result, first⟩, inductionHypothesis rest⟩

theorem mapM_gen {Item : Type} {gen : Item → Value} {parse : Value → Except Text Item}
    {items : List Item} (each : ∀ item ∈ items, parse (gen item) = .ok item) :
    (items.map gen).mapM parse = .ok items := by
  have read : items.mapM (parse ∘ gen) = .ok (items.map id) := mapM_eq_ok each
  rw [List.mapM_map, read, List.map_id]

/-- Reading by index reads the items in order. -/
theorem map_item_range (items : List Value) :
    (List.range items.length).map (fun i => (Value.array items).item i) = items := by
  apply List.ext_getElem
  · simp
  · intro i below inside
    simp [Value.item, inside]

/-! ### The items -/

theorem required_some {Field : Type} (name : Text) (value : Field) :
    required name (some value) = .ok value := rfl

/-- The values are those of the types of the source. -/
structure IsTypedDomain (domain : DomainData) : Prop where
  id : domain.id < 2 ^ 64
  timestamp : domain.timestamp < 2 ^ 64
  domain_type : domain.domainType < 2 ^ 32
  reply_code : domain.replyCode < 2 ^ 16
  query_time : -2 ^ 31 ≤ domain.queryTime ∧ domain.queryTime < 2 ^ 31
  ping_time : isFiniteF64 domain.pingTime = true

theorem isCanonical_genJsonObjectDomain (domain : DomainData) :
    IsCanonical (genJsonObjectDomain domain) := by
  apply isCanonical_ofMembers
  simp only [List.forall_mem_cons]
  exact ⟨isCanonical_ofU64 _, isCanonical_ofU64 _, .string _, isCanonical_ofU64 _, .string _,
    .string _, isCanonical_ofU64 _, isCanonical_ofI64 _, isCanonical_ofF64 _, .bool _, .bool _,
    by simp⟩

theorem parse_genJsonObjectDomain {domain : DomainData} (typed : IsTypedDomain domain) :
    parseJsonObjectDomainValue (genJsonObjectDomain domain) = .ok domain := by
  have fields := Value.get_of_members (rfl : genJsonObjectDomain domain = .ofMembers _)
    (by simp only [List.map_cons, List.map_nil]; decide)
  simp only [List.forall_mem_cons] at fields
  obtain ⟨id, timestamp, name, domainType, client, domainGroup, replyCode, queryTime, pingTime,
    isBlocked, isCached, -⟩ := fields
  have time : (Int64.ofInt domain.queryTime).toInt32.toInt = domain.queryTime := by
    rw [Int64.toInt32_ofInt]
    exact Int32.toInt_ofInt_of_le typed.query_time.1 typed.query_time.2
  rw [parseJsonObjectDomainValue, id, timestamp, name, domainType, client, domainGroup, replyCode,
    queryTime, pingTime, isBlocked, isCached]
  simp only [asU64_ofU64, asI64_ofI64, asF64_ofF64 typed.ping_time, Value.asStr, Value.asBool,
    required_some]
  simp only [bind, Except.bind, pure, Except.pure, time, UInt64.toUInt32_ofNat',
    UInt64.toUInt16_ofNat', UInt64.toNat_ofNat_of_lt' typed.id,
    UInt64.toNat_ofNat_of_lt' typed.timestamp, UInt32.toNat_ofNat_of_lt' typed.domain_type,
    UInt16.toNat_ofNat_of_lt' typed.reply_code]

structure IsTypedClient (client : ClientData) : Prop where
  id : client.id < 2 ^ 32
  last_query_timestamp : client.lastQueryTimestamp < 2 ^ 64

theorem isCanonical_genJsonObjectClient (client : ClientData) :
    IsCanonical (genJsonObjectClient client) := by
  apply isCanonical_ofMembers
  simp only [List.forall_mem_cons]
  exact ⟨isCanonical_ofU64 _, .string _, .string _, .string _, isCanonical_ofU64 _, by simp⟩

theorem parse_genJsonObjectClient {client : ClientData} (typed : IsTypedClient client) :
    parseClient (genJsonObjectClient client) = .ok client := by
  have fields := Value.get_of_members (rfl : genJsonObjectClient client = .ofMembers _)
    (by simp only [List.map_cons, List.map_nil]; decide)
  simp only [List.forall_mem_cons] at fields
  obtain ⟨id, clientIp, mac, hostname, lastQueryTimestamp, -⟩ := fields
  rw [parseClient, id, clientIp, mac, hostname, lastQueryTimestamp]
  simp only [asU64_ofU64, Value.asStr, required_some]
  simp only [bind, Except.bind, pure, Except.pure, UInt64.toUInt32_ofNat',
    UInt32.toNat_ofNat_of_lt' typed.id, UInt64.toNat_ofNat_of_lt' typed.last_query_timestamp]

theorem isCanonical_genUpstreamServer (server : UpstreamServerInfo) :
    IsCanonical (genUpstreamServer server) := by
  apply isCanonical_ofMembers
  simp only [List.forall_mem_cons]
  exact ⟨.string _, .string _, isCanonical_ofU64 _, .string _, isCanonical_ofU64 _,
    isCanonical_ofU64 _, isCanonical_ofU64 _, isCanonical_ofF64 _, isCanonical_ofF64 _,
    .string _, .string _, by simp⟩

structure IsFiniteServer (server : UpstreamServerInfo) : Prop where
  query_success_rate : isFiniteF64 server.querySuccessRate = true
  avg_time : isFiniteF64 server.avgTime = true

/-- The name of a known type is read as the type. -/
theorem fromStr_toString (serverType : DnsServerType) :
    DnsServerType.fromStr serverType.toString =
      if serverType = .serverUnknown then .error "unknown" else .ok serverType := by
  cases serverType <;> decide

theorem parse_genUpstreamServer {server : UpstreamServerInfo} (finite : IsFiniteServer server) :
    parseUpstreamServer (genUpstreamServer server) =
      if server.serverType = .serverUnknown then .error "unknown" else .ok server := by
  have fields := Value.get_of_members (rfl : genUpstreamServer server = .ofMembers _)
    (by simp only [List.map_cons, List.map_nil]; decide)
  simp only [List.forall_mem_cons] at fields
  obtain ⟨host, ip, port, serverType, totalQueryCount, totalQuerySuccess, totalQueryRecvCount,
    querySuccessRate, avgTime, status, security, -⟩ := fields
  rw [parseUpstreamServer, host, ip, port, serverType, totalQueryCount, totalQuerySuccess,
    totalQueryRecvCount, querySuccessRate, avgTime, status, security]
  simp only [asU64_ofU64, asF64_ofF64 finite.query_success_rate, asF64_ofF64 finite.avg_time,
    Value.asStr, required_some]
  simp only [bind, Except.bind, pure, Except.pure, fromStr_toString, UInt16.toUInt16_toUInt64]
  by_cases unknown : server.serverType = .serverUnknown
  · simp only [if_pos unknown]
  · simp only [if_neg unknown]

theorem isCanonical_genTopClient (client : ClientQueryCount) :
    IsCanonical (genTopClient client) := by
  apply isCanonical_ofMembers
  simp only [List.forall_mem_cons]
  exact ⟨.string _, isCanonical_ofU64 _, isCanonical_ofU64 _, isCanonical_ofU64 _, by simp⟩

theorem parse_genTopClient (client : ClientQueryCount) :
    parseTopClient (genTopClient client) = .ok client := by
  have fields := Value.get_of_members (rfl : genTopClient client = .ofMembers _)
    (by simp only [List.map_cons, List.map_nil]; decide)
  simp only [List.forall_mem_cons] at fields
  obtain ⟨clientIp, queryCount, timestampStart, timestampEnd, -⟩ := fields
  rw [parseTopClient, clientIp, queryCount, timestampStart, timestampEnd]
  simp only [asU64_ofU64, Value.asStr, required_some]
  simp only [bind, Except.bind, pure, Except.pure, UInt32.toUInt32_toUInt64]

theorem isCanonical_genTopDomain (domain : DomainQueryCount) :
    IsCanonical (genTopDomain domain) := by
  apply isCanonical_ofMembers
  simp only [List.forall_mem_cons]
  exact ⟨.string _, isCanonical_ofU64 _, isCanonical_ofU64 _, isCanonical_ofU64 _, by simp⟩

theorem parse_genTopDomain (domain : DomainQueryCount) :
    parseTopDomain (genTopDomain domain) = .ok domain := by
  have fields := Value.get_of_members (rfl : genTopDomain domain = .ofMembers _)
    (by simp only [List.map_cons, List.map_nil]; decide)
  simp only [List.forall_mem_cons] at fields
  obtain ⟨name, queryCount, timestampStart, timestampEnd, -⟩ := fields
  rw [parseTopDomain, name, queryCount, timestampStart, timestampEnd]
  simp only [asU64_ofU64, Value.asStr, required_some]
  simp only [bind, Except.bind, pure, Except.pure, UInt32.toUInt32_toUInt64]

theorem isCanonical_genHourlyItem (item : HourlyQueryCountItem) :
    IsCanonical (genHourlyItem item) := by
  apply isCanonical_ofMembers
  simp only [List.forall_mem_cons]
  exact ⟨.string _, isCanonical_ofU64 _, by simp⟩

theorem parse_genHourlyItem (item : HourlyQueryCountItem) :
    parseHourlyItem (genHourlyItem item) = .ok item := by
  have fields := Value.get_of_members (rfl : genHourlyItem item = .ofMembers _)
    (by simp only [List.map_cons, List.map_nil]; decide)
  simp only [List.forall_mem_cons] at fields
  obtain ⟨hour, queryCount, -⟩ := fields
  rw [parseHourlyItem, hour, queryCount]
  simp only [asU64_ofU64, Value.asStr, required_some]
  simp only [bind, Except.bind, pure, Except.pure, UInt32.toUInt32_toUInt64]

theorem isCanonical_genDailyItem (item : DailyQueryCountItem) :
    IsCanonical (genDailyItem item) := by
  apply isCanonical_ofMembers
  simp only [List.forall_mem_cons]
  exact ⟨.string _, isCanonical_ofU64 _, by simp⟩

theorem parse_genDailyItem (item : DailyQueryCountItem) :
    parseDailyItem (genDailyItem item) = .ok item := by
  have fields := Value.get_of_members (rfl : genDailyItem item = .ofMembers _)
    (by simp only [List.map_cons, List.map_nil]; decide)
  simp only [List.forall_mem_cons] at fields
  obtain ⟨day, queryCount, -⟩ := fields
  rw [parseDailyItem, day, queryCount]
  simp only [asU64_ofU64, Value.asStr, required_some]
  simp only [bind, Except.bind, pure, Except.pure, UInt32.toUInt32_toUInt64]

/-! ### The messages -/

section Messages

variable (library : Library)

theorem isCanonical_array {Item : Type} {gen : Item → Value}
    (each : ∀ item, IsCanonical (gen item)) (items : List Item) :
    IsCanonical (.array (items.map gen)) := by
  refine .array fun value listed => ?_
  obtain ⟨item, -, rfl⟩ := List.mem_map.mp listed
  exact each item

/-- What the library wrote from members is read as these members. -/
theorem fromStr_ofMembers {members : List (Text × Value)}
    (each : ∀ entry ∈ members, IsCanonical entry.2) :
    library.fromStr (library.toString (.ofMembers members)) = .ok (.ofMembers members) :=
  library.fromStr_toString _ (isCanonical_ofMembers each)

theorem parse_genDomain {domain : DomainData} (typed : IsTypedDomain domain) :
    parseDomain library (genDomain library domain) = .ok domain := by
  rw [parseDomain, genDomain, library.fromStr_toString _ (isCanonical_genJsonObjectDomain domain)]
  simp only [bind, Except.bind]
  exact parse_genJsonObjectDomain typed

/-- The fields of a page besides its array. -/
def pageKeys : List Text := ["list_count", "total_page", "total_count", "step_by_cursor"]

theorem nodup_pageKeys_append {name : Text} (fresh : name ∉ pageKeys) :
    (pageKeys ++ [name]).Nodup := by
  refine List.nodup_append.mpr ⟨by decide, List.nodup_singleton name, ?_⟩
  intro key listed other single same
  rw [List.mem_singleton.mp single] at same
  exact fresh (same ▸ listed)

/-- A page whose items are read back is read back. -/
theorem parse_genPage {Item : Type} {name : Text} {gen : Item → Value}
    {parse : Value → Except Text Item} {items : List Item}
    (fresh : name ∉ pageKeys)
    (short : items.length < 2 ^ 63) (canonical : ∀ item, IsCanonical (gen item))
    (each : ∀ item ∈ items, parse (gen item) = .ok item) (stepByCursor : Bool)
    (totalPage totalCount : UInt64) :
    parsePage library name parse
      (genPage library name gen items stepByCursor totalPage totalCount) = .ok items := by
  have fields := Value.get_of_members (rfl : Value.ofMembers
      [("list_count", .ofU64 (UInt64.ofNat items.length)), ("total_page", .ofU64 totalPage),
        ("total_count", .ofU64 totalCount), ("step_by_cursor", .bool stepByCursor),
        (name, .array (items.map gen))] = _) (nodup_pageKeys_append fresh)
  simp only [List.forall_mem_cons] at fields
  obtain ⟨listCount, -, -, -, array, -⟩ := fields
  have length : (UInt64.ofNat items.length).toNat = (items.map gen).length := by
    rw [UInt64.toNat_ofNat_of_lt' (Nat.lt_trans short (by decide)), List.length_map]
  have read : library.fromStr (genPage library name gen items stepByCursor totalPage totalCount) =
      .ok _ := fromStr_ofMembers library (by
    simp only [List.forall_mem_cons]
    exact ⟨isCanonical_ofU64 _, isCanonical_ofU64 _, isCanonical_ofU64 _, .bool _,
      isCanonical_array canonical items, by simp⟩)
  rw [parsePage, read]
  simp only [bind, Except.bind, listCount, array, asU64_ofU64, required_some, length]
  have indexed := map_item_range (items.map gen)
  have whole := mapM_gen each
  rw [← indexed, List.mapM_map] at whole
  exact whole

/-- A list is read as its items are. -/
theorem parse_genList {Item : Type} (name : Text) {gen : Item → Value}
    {parse : Value → Except Text Item} (canonical : ∀ item, IsCanonical (gen item))
    (items : List Item) :
    parseList library name parse (genList library name gen items) = (items.map gen).mapM parse := by
  have array := Value.get_of_members
    (rfl : Value.ofMembers [(name, .array (items.map gen))] = _) (List.nodup_singleton name)
    _ List.mem_cons_self
  have read : library.fromStr (genList library name gen items) = .ok _ :=
    fromStr_ofMembers library (by
      simpa using isCanonical_array canonical items)
  rw [parseList, read]
  simp only [bind, Except.bind, array, Value.asArray, required_some]

theorem parse_genDomainList {result : QueryDomainListResult}
    (short : result.domainList.length < 2 ^ 63)
    (typed : ∀ domain ∈ result.domainList, IsTypedDomain domain) (totalPage totalCount : UInt64) :
    parseDomainList library (genDomainList library result totalPage totalCount) =
      .ok result.domainList :=
  parse_genPage library (by decide) short isCanonical_genJsonObjectDomain
    (fun domain listed => parse_genJsonObjectDomain (typed domain listed)) _ _ _

theorem parse_genClientList {result : QueryClientListResult}
    (short : result.clientList.length < 2 ^ 63)
    (typed : ∀ client ∈ result.clientList, IsTypedClient client) (totalPage totalCount : UInt64) :
    parseClientList library (genClientList library result totalPage totalCount) =
      .ok result.clientList :=
  parse_genPage library (by decide) short isCanonical_genJsonObjectClient
    (fun client listed => parse_genJsonObjectClient (typed client listed)) _ _ _

/-- A list of upstream servers is read back exactly when the type of each is known. -/
theorem parse_genUpstreamServerList_iff {servers : List UpstreamServerInfo}
    (finite : ∀ server ∈ servers, IsFiniteServer server) :
    parseUpstreamServerList library (genUpstreamServerList library servers) = .ok servers ↔
      ∀ server ∈ servers, server.serverType ≠ .serverUnknown := by
  rw [parseUpstreamServerList, genUpstreamServerList,
    parse_genList library _ isCanonical_genUpstreamServer]
  constructor
  · intro read server listed unknown
    obtain ⟨result, ok⟩ := exists_ok_of_mapM read _ (List.mem_map.mpr ⟨server, listed, rfl⟩)
    rw [parse_genUpstreamServer (finite server listed), if_pos unknown] at ok
    cases ok
  · intro known
    refine mapM_gen fun server listed => ?_
    rw [parse_genUpstreamServer (finite server listed), if_neg (known server listed)]

theorem parse_genTopClientList (clients : List ClientQueryCount) :
    parseTopClientList library (genTopClientList library clients) = .ok clients := by
  rw [parseTopClientList, genTopClientList, parse_genList library _ isCanonical_genTopClient]
  exact mapM_gen fun client _ => parse_genTopClient client

theorem parse_genTopDomainList (domains : List DomainQueryCount) :
    parseTopDomainList library (genTopDomainList library domains) = .ok domains := by
  rw [parseTopDomainList, genTopDomainList, parse_genList library _ isCanonical_genTopDomain]
  exact mapM_gen fun domain _ => parse_genTopDomain domain

theorem lookup_foldl_insertString {members : List (Text × Value)}
    (distinct : (members.map Prod.fst).Nodup)
    (strings : ∀ entry ∈ members, ∃ value, entry.2 = .string value) (start : ConfigTable)
    (key : Text) :
    (members.foldl insertString start).lookup key =
      ((members.lookup key).bind Value.asStr).or (start.lookup key) := by
  induction members generalizing start with
  | nil => simp
  | cons entry members inductionHypothesis =>
      obtain ⟨first, held⟩ := entry
      rw [List.map_cons, List.nodup_cons] at distinct
      rw [List.forall_mem_cons] at strings
      obtain ⟨value, rfl⟩ := strings.1
      rw [List.foldl_cons, inductionHypothesis distinct.2 strings.2, Value.lookup_cons_ite,
        insertString]
      by_cases same : key = first
      · have absent : members.lookup key = none := by
          rw [List.lookup_eq_none_iff]
          intro entry listed
          rw [bne_iff_ne]
          rintro rfl
          exact distinct.1 (same ▸ List.mem_map.mpr ⟨entry, listed, rfl⟩)
        rw [absent, if_pos same, same, AList.lookup_insert]
        rfl
      · rw [if_neg same, AList.lookup_insert_ne same]

/-- The map that is read has the same entries. -/
theorem parse_genKeyValue (data : ConfigTable) :
    ∃ parsed, parseKeyValue library (genKeyValue library data) = .ok parsed ∧
      ∀ key, parsed.lookup key = data.lookup key := by
  have strings : ∀ entry ∈ data.entries.map fun entry => (entry.1, Value.string entry.2),
      ∃ value, entry.2 = Value.string value := by
    intro entry listed
    obtain ⟨row, -, rfl⟩ := List.mem_map.mp listed
    exact ⟨row.2, rfl⟩
  have read : library.fromStr (genKeyValue library data) = .ok _ :=
    fromStr_ofMembers library fun entry listed => by
      obtain ⟨value, equality⟩ := strings entry listed
      rw [equality]
      exact .string value
  have distinct : ((data.entries.map fun entry => (entry.1, Value.string entry.2)).map
      Prod.fst).Nodup := by
    rw [List.map_map]
    exact data.nodupKeys
  refine ⟨_, by rw [parseKeyValue, read]; rfl, fun key => ?_⟩
  rw [lookup_foldl_insertString (isSorted_insertAll _ List.Pairwise.nil).nodup
    (fun entry listed => strings entry ((mem_insertAll listed).resolve_right (by simp))),
    AList.lookup_empty, Option.or_none]
  cases found : data.lookup key with
  | none =>
      rw [Value.lookup_insertAll_of_not_mem, List.lookup_nil]
      · rfl
      · rw [List.map_map]
        exact AList.lookup_eq_none.mp found
  | some value =>
      have listed := AList.mem_lookup_iff.mp (Option.mem_def.mpr found)
      rw [Value.lookup_insertAll_of_mem distinct (List.mem_map.mpr ⟨_, listed, rfl⟩)]
      rfl

structure IsFiniteMetrics (data : MetricsData) : Prop where
  avg_query_time : isFiniteF64 data.avgQueryTime = true
  cache_hit_rate : isFiniteF64 data.cacheHitRate = true

theorem parse_genMetricsData {data : MetricsData} (finite : IsFiniteMetrics data) :
    parseMetricsData library (genMetricsData library data) = .ok data := by
  have read : library.fromStr (genMetricsData library data) = .ok _ :=
    fromStr_ofMembers library (by
      simp only [List.forall_mem_cons]
      exact ⟨isCanonical_ofU64 _, isCanonical_ofU64 _, isCanonical_ofU64 _, isCanonical_ofU64 _,
        isCanonical_ofF64 _, isCanonical_ofF64 _, isCanonical_ofU64 _, isCanonical_ofU64 _,
        isCanonical_ofU64 _, isCanonical_ofU64 _, .bool _, by simp⟩)
  rw [parseMetricsData, read]
  simp only [bind, Except.bind]
  generalize built : Value.ofMembers _ = v
  have fields := Value.get_of_members built.symm
    (by simp only [List.map_cons, List.map_nil]; decide)
  simp only [List.forall_mem_cons] at fields
  obtain ⟨totalQueryCount, blockQueryCount, requestDropCount, failQueryCount, avgQueryTime,
    cacheHitRate, cacheNumber, cacheMemorySize, qps, memoryUsage, isMetricsSuspended, -⟩ := fields
  rw [totalQueryCount, blockQueryCount, requestDropCount, failQueryCount, avgQueryTime,
    cacheHitRate, cacheNumber, cacheMemorySize, qps, memoryUsage, isMetricsSuspended]
  simp only [asU64_ofU64, asF64_ofF64 finite.avg_query_time, asF64_ofF64 finite.cache_hit_rate,
    Value.asBool, required_some, pure, Except.pure, UInt32.toUInt32_toUInt64, Option.getD_some]

theorem parse_genStatsOverview (data : OverviewData) :
    parseStatsOverview library (genStatsOverview library data) = .ok data := by
  have read : library.fromStr (genStatsOverview library data) = .ok _ :=
    fromStr_ofMembers library (by
      simp only [List.forall_mem_cons]
      exact ⟨.string _, isCanonical_ofU64 _, isCanonical_ofU64 _, isCanonical_ofU64 _, .bool _,
        by simp⟩)
  rw [parseStatsOverview, read]
  simp only [bind, Except.bind]
  generalize built : Value.ofMembers _ = v
  have fields := Value.get_of_members built.symm
    (by simp only [List.map_cons, List.map_nil]; decide)
  simp only [List.forall_mem_cons] at fields
  obtain ⟨serverName, dbSize, startupTimestamp, freeDiskSpace, isProcessSuspended, -⟩ := fields
  rw [serverName, dbSize, startupTimestamp, freeDiskSpace, isProcessSuspended]
  simp only [asU64_ofU64, Value.asStr, Value.asBool, required_some, pure, Except.pure]

theorem parse_genHourlyQueryCount (hourlyCount : HourlyQueryCount) :
    parseHourlyQueryCount library (genHourlyQueryCount library hourlyCount) = .ok hourlyCount := by
  have read : library.fromStr (genHourlyQueryCount library hourlyCount) = .ok _ :=
    fromStr_ofMembers library (by
      simp only [List.forall_mem_cons]
      exact ⟨isCanonical_ofU64 _, isCanonical_array isCanonical_genHourlyItem _, by simp⟩)
  have items : (hourlyCount.hourlyQueryCount.map genHourlyItem).mapM parseHourlyItem = _ :=
    mapM_gen fun item _ => parse_genHourlyItem item
  rw [parseHourlyQueryCount, read]
  simp only [bind, Except.bind]
  generalize built : Value.ofMembers _ = v
  have fields := Value.get_of_members built.symm
    (by simp only [List.map_cons, List.map_nil]; decide)
  simp only [List.forall_mem_cons] at fields
  obtain ⟨queryTimestamp, hourlyList, -⟩ := fields
  rw [queryTimestamp, hourlyList]
  simp only [asU64_ofU64, Value.asArray, required_some, items, pure, Except.pure]

theorem parse_genDailyQueryCount (dailyCount : DailyQueryCount) :
    parseDailyQueryCount library (genDailyQueryCount library dailyCount) = .ok dailyCount := by
  have read : library.fromStr (genDailyQueryCount library dailyCount) = .ok _ :=
    fromStr_ofMembers library (by
      simp only [List.forall_mem_cons]
      exact ⟨isCanonical_ofU64 _, isCanonical_array isCanonical_genDailyItem _, by simp⟩)
  have items : (dailyCount.dailyQueryCount.map genDailyItem).mapM parseDailyItem = _ :=
    mapM_gen fun item _ => parse_genDailyItem item
  rw [parseDailyQueryCount, read]
  simp only [bind, Except.bind]
  generalize built : Value.ofMembers _ = v
  have fields := Value.get_of_members built.symm
    (by simp only [List.map_cons, List.map_nil]; decide)
  simp only [List.forall_mem_cons] at fields
  obtain ⟨queryTimestamp, dailyList, -⟩ := fields
  rw [queryTimestamp, dailyList]
  simp only [asU64_ofU64, Value.asArray, required_some, items, pure, Except.pure]

/-- The owner of a domain is read back without the field `refer`. -/
theorem parse_genWhoisInfo (data : WhoIsInfo) :
    parseWhoisInfo library (genWhoisInfo library data) = .ok { data with refer := [] } := by
  have read : library.fromStr (genWhoisInfo library data) = .ok _ :=
    fromStr_ofMembers library (by
      simp only [List.forall_mem_cons]
      exact ⟨.string _, .string _, .string _, .string _, .string _, .string _, by simp⟩)
  rw [parseWhoisInfo, read]
  simp only [bind, Except.bind]
  generalize built : Value.ofMembers _ = v
  have fields := Value.get_of_members built.symm
    (by simp only [List.map_cons, List.map_nil]; decide)
  simp only [List.forall_mem_cons] at fields
  have absent : v.get "refer" = .null :=
    built ▸ Value.get_ofMembers_of_not_mem (by simp only [List.map_cons, List.map_nil]; decide)
  obtain ⟨domain, registrar, organization, address, city, country, -⟩ := fields
  rw [domain, registrar, organization, address, city, country, absent]
  simp only [Value.asStr, required_some, pure, Except.pure, Option.getD_none]

theorem parse_genWhoisInfo_iff (data : WhoIsInfo) :
    parseWhoisInfo library (genWhoisInfo library data) = .ok data ↔ data.refer = [] := by
  rw [parse_genWhoisInfo, Except.ok.injEq]
  constructor
  · intro same
    exact (congrArg WhoIsInfo.refer same).symm
  · intro empty
    rw [← empty]

end Messages

/-- Every message is read back, except for an upstream server of unknown type and
for the field `refer`. -/
theorem messages_roundTrip_iff (library : Library) :
    (∀ domain, IsTypedDomain domain →
      parseDomain library (genDomain library domain) = .ok domain) ∧
    (∀ (result : QueryDomainListResult) (totalPage totalCount : UInt64),
      result.domainList.length < 2 ^ 63 → (∀ domain ∈ result.domainList, IsTypedDomain domain) →
        parseDomainList library (genDomainList library result totalPage totalCount) =
          .ok result.domainList) ∧
    (∀ (result : QueryClientListResult) (totalPage totalCount : UInt64),
      result.clientList.length < 2 ^ 63 → (∀ client ∈ result.clientList, IsTypedClient client) →
        parseClientList library (genClientList library result totalPage totalCount) =
          .ok result.clientList) ∧
    (∀ servers : List UpstreamServerInfo, (∀ server ∈ servers, IsFiniteServer server) →
      (parseUpstreamServerList library (genUpstreamServerList library servers) = .ok servers ↔
        ∀ server ∈ servers, server.serverType ≠ .serverUnknown)) ∧
    (∀ data, ∃ parsed, parseKeyValue library (genKeyValue library data) = .ok parsed ∧
      ∀ key, parsed.lookup key = data.lookup key) ∧
    (∀ clients, parseTopClientList library (genTopClientList library clients) = .ok clients) ∧
    (∀ domains, parseTopDomainList library (genTopDomainList library domains) = .ok domains) ∧
    (∀ data, IsFiniteMetrics data →
      parseMetricsData library (genMetricsData library data) = .ok data) ∧
    (∀ data, parseStatsOverview library (genStatsOverview library data) = .ok data) ∧
    (∀ count, parseHourlyQueryCount library (genHourlyQueryCount library count) = .ok count) ∧
    (∀ count, parseDailyQueryCount library (genDailyQueryCount library count) = .ok count) ∧
    (∀ data, parseWhoisInfo library (genWhoisInfo library data) = .ok data ↔ data.refer = []) :=
  ⟨fun _ => parse_genDomain library,
    fun _ totalPage totalCount short typed =>
      parse_genDomainList library short typed totalPage totalCount,
    fun _ totalPage totalCount short typed =>
      parse_genClientList library short typed totalPage totalCount,
    fun _ => parse_genUpstreamServerList_iff library,
    parse_genKeyValue library,
    parse_genTopClientList library,
    parse_genTopDomainList library,
    fun _ => parse_genMetricsData library,
    parse_genStatsOverview library,
    parse_genHourlyQueryCount library,
    parse_genDailyQueryCount library,
    parse_genWhoisInfo_iff library⟩

/-! ### A library -/

/-- The bits of 1.5. -/
def oneAndAHalf : UInt64 := 0x3ff8000000000000

/-- A notation that agrees with the usual one on 1.5.  The bits of any other float
stand in the exponent of a zero. -/
def sampleFormat : FloatFormat where
  write bits := if bits = oneAndAHalf then "1.5" else ("0.0e" : Text) ++ showNat bits.toNat
  read t :=
    if t = "1.5" then some oneAndAHalf
    else some (UInt64.ofNat (Nat.ofDigitChars 10 (t.drop 4) 0))
  number bits c listed := by
    by_cases same : bits = oneAndAHalf
    · rw [if_pos same] at listed
      have each : ∀ c ∈ ("1.5" : Text), isNumberChar c = true := List.all_eq_true.mp (by decide)
      exact each c listed
    · rw [if_neg same, List.mem_append] at listed
      rcases listed with zero | digit
      · have each : ∀ c ∈ ("0.0e" : Text), isNumberChar c = true := List.all_eq_true.mp (by decide)
        exact each c zero
      · exact isNumberChar_of_isDigit (isDigit_of_mem_showNat digit)
  point bits := by
    by_cases same : bits = oneAndAHalf <;> simp [same]
  read_write bits _ := by
    by_cases same : bits = oneAndAHalf
    · rw [if_pos same, if_pos rfl, same]
    · have other : ("0.0e" : Text) ++ showNat bits.toNat ≠ "1.5" := fun equal =>
        absurd (List.head_eq_of_cons_eq equal) (by decide)
      have value : Nat.ofDigitChars 10 (showNat bits.toNat) 0 = bits.toNat :=
        Nat.ofDigitChars_ten_toDigits
      have digits : (("0.0e" : Text) ++ showNat bits.toNat).drop 4 = showNat bits.toNat := rfl
      rw [if_neg same, if_neg other, digits, value, UInt64.ofNat_toNat]

def sampleLibrary : Library := compactLibrary sampleFormat

/-- The text of a map is the one that the settings are shown as. -/
theorem genKeyValue_compactLibrary (format : FloatFormat) (data : ConfigTable) :
    genKeyValue (compactLibrary format) data = apiMsgGenKeyValue data := by
  have distinct : ((data.entries.map fun entry => (entry.1, Value.string entry.2)).map
      Prod.fst).Nodup := by
    rw [List.map_map]
    exact data.nodupKeys
  have kept : (Value.insertAll (data.entries.map fun entry => (entry.1, Value.string entry.2))
      []).Perm (data.entries.map fun entry => (entry.1, Value.string entry.2)) :=
    perm_insertAll distinct
  have rows : (stringMembers (sortedEntries data)).Perm
      (data.entries.map fun entry => (entry.1, Value.string entry.2)) := by
    have mapped := (List.mergeSort_perm (data.entries.map fun entry => (entry.1, entry.2))
      fun a b => keyLe a.1 b.1).map fun entry => (entry.1, Value.string entry.2)
    rw [List.map_map] at mapped
    exact mapped
  have sortedRows : (stringMembers (sortedEntries data)).Pairwise
      fun entry later => keyLe entry.1 later.1 = true :=
    List.pairwise_map.mpr (List.pairwise_mergeSort
      (fun a b c : Text × Text => keyLe_trans a.1 b.1 c.1) (fun a b => keyLe_total a.1 b.1) _)
  have members : Value.insertAll (data.entries.map fun entry => (entry.1, Value.string entry.2))
      [] = stringMembers (sortedEntries data) := by
    refine List.Perm.eq_of_pairwise (fun a b listed listedOther before after => ?_)
      ((isSorted_insertAll _ List.Pairwise.nil).imp fun both => both.1) sortedRows
      (kept.trans rows.symm)
    exact List.inj_on_of_nodup_map distinct (kept.subset listed) (rows.subset listedOther)
      (keyLe_antisymm before after)
  rw [apiMsgGenKeyValue, ← compact_stringMembers format, ← members]
  rfl

def knownServer : UpstreamServerInfo where
  host := "dns.example"
  ip := "192.0.2.1"
  port := 443
  serverType := .serverHttps
  totalQueryCount := 3
  totalQuerySuccess := 2
  totalQueryRecvCount := 2
  querySuccessRate := oneAndAHalf
  avgTime := oneAndAHalf
  status := "Normal"
  security := "Secure"

theorem isFiniteServer_knownServer : IsFiniteServer knownServer := ⟨by decide, by decide⟩

theorem messages_roundTrip_example :
    parseUpstreamServerList sampleLibrary (genUpstreamServerList sampleLibrary [knownServer]) =
      .ok [knownServer] :=
  ((messages_roundTrip_iff sampleLibrary).2.2.2.1 [knownServer]
    (List.forall_mem_singleton.mpr isFiniteServer_knownServer)).mpr
    (List.forall_mem_singleton.mpr (by decide))

/-- A server of unknown type makes the whole list unreadable. -/
theorem not_messages_roundTrip :
    ¬ ∀ servers : List UpstreamServerInfo, (∀ server ∈ servers, IsFiniteServer server) →
      parseUpstreamServerList sampleLibrary (genUpstreamServerList sampleLibrary servers) =
        .ok servers := by
  intro roundTrip
  have finite : IsFiniteServer { knownServer with serverType := .serverUnknown } :=
    ⟨isFiniteServer_knownServer.1, isFiniteServer_knownServer.2⟩
  have finiteAll := List.forall_mem_singleton.mpr finite
  have known := (parse_genUpstreamServerList_iff sampleLibrary finiteAll).mp
    (roundTrip _ finiteAll)
  exact known _ (List.mem_singleton.mpr rfl) rfl

end SmartDnsPlusUi.ApiMsg
